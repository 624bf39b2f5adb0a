import Mathlib.Data.Set.Lattice

/-!
# Digests of trees of files

A file is digested from its content, a directory from the names and the digests of its entries. Nothing in a digest tells a file from a directory, so what a digest determines is only what the names of the entries tell apart: where the name says which of the two an entry is, equal digests are digests of the same files.
-/

namespace BotCord.Merkle

/-- How files and directories are digested. An entry without a digest is a directory that was never digested. -/
structure Scheme (κ χ η : Type*) where
  leaf : χ → η
  node : List (κ × Option η) → η
  /-- The names of files. -/
  IsLeaf : κ → Prop
  /-- The names an entry may have. -/
  Named : κ → Prop

variable {κ χ η : Type*} {S : Scheme κ χ η}

namespace Scheme

def IsDigest (S : Scheme κ χ η) (digest : η) : Prop :=
  (∃ content, digest = S.leaf content) ∨ ∃ entries, digest = S.node entries

def Listable (S : Scheme κ χ η) (entries : List (κ × Option η)) : Prop :=
  ∀ e ∈ entries, S.Named e.1 ∧ ∀ digest ∈ e.2, S.IsDigest digest

/-- Two contents, or two listings, do not have the same digest. -/
structure CollisionFree (S : Scheme κ χ η) : Prop where
  leaf_inj : Function.Injective S.leaf
  node_inj : ∀ entries entries', S.Listable entries → S.Listable entries' → S.node entries = S.node entries' →
    entries = entries'

end Scheme

/-- The digest of a directory with these files, by name and content, somewhere below it. -/
inductive Digests (S : Scheme κ χ η) : Option η → Set (κ × χ) → Prop
  | unset : Digests S none ∅
  | listing (entries : List (κ × Option η)) (below : κ → Set (κ × χ)) (named : ∀ e ∈ entries, S.Named e.1)
      (leaves : ∀ e ∈ entries, S.IsLeaf e.1 → ∃ content, e.2 = some (S.leaf content) ∧ below e.1 = {(e.1, content)})
      (nodes : ∀ e ∈ entries, ¬ S.IsLeaf e.1 → Digests S e.2 (below e.1)) :
      Digests S (some (S.node entries)) (⋃ e ∈ entries, below e.1)

namespace Digests

theorem eq_empty_of_none {files : Set (κ × χ)} (h : Digests S none files) : files = ∅ := by
  cases h
  rfl

theorem of_some {digest : η} {files : Set (κ × χ)} (h : Digests S (some digest) files) :
    ∃ (entries : List (κ × Option η)) (below : κ → Set (κ × χ)), digest = S.node entries ∧
      files = (⋃ e ∈ entries, below e.1) ∧ (∀ e ∈ entries, S.Named e.1) ∧
      (∀ e ∈ entries, S.IsLeaf e.1 → ∃ content, e.2 = some (S.leaf content) ∧ below e.1 = {(e.1, content)}) ∧
      ∀ e ∈ entries, ¬ S.IsLeaf e.1 → Digests S e.2 (below e.1) := by
  cases h with
  | listing entries below named leaves nodes => exact ⟨entries, below, rfl, rfl, named, leaves, nodes⟩

theorem isDigest {digest : Option η} {files : Set (κ × χ)} (h : Digests S digest files) : ∀ x ∈ digest, S.IsDigest x := by
  intro x hx
  rw [Option.mem_def.mp hx] at h
  obtain ⟨entries, -, hnode, -⟩ := h.of_some
  exact .inr ⟨entries, hnode⟩

theorem listable {entries : List (κ × Option η)} {below : κ → Set (κ × χ)} (named : ∀ e ∈ entries, S.Named e.1)
    (leaves : ∀ e ∈ entries, S.IsLeaf e.1 → ∃ content, e.2 = some (S.leaf content) ∧ below e.1 = {(e.1, content)})
    (nodes : ∀ e ∈ entries, ¬ S.IsLeaf e.1 → Digests S e.2 (below e.1)) : S.Listable entries := by
  intro e he
  refine ⟨named e he, fun x hx => ?_⟩
  by_cases hleaf : S.IsLeaf e.1
  · obtain ⟨content, hdigest, -⟩ := leaves e he hleaf
    rw [hdigest] at hx
    exact .inl ⟨content, (Option.some.inj hx).symm⟩
  · exact (nodes e he hleaf).isDigest x hx

theorem unique (hS : S.CollisionFree) {digest : Option η} {files files' : Set (κ × χ)} (h : Digests S digest files)
    (h' : Digests S digest files') : files = files' := by
  induction h generalizing files' with
  | unset => exact h'.eq_empty_of_none.symm
  | listing entries below named leaves nodes ih =>
    obtain ⟨entries', below', hnode, rfl, named', leaves', nodes'⟩ := h'.of_some
    obtain rfl := hS.node_inj entries entries' (listable named leaves nodes) (listable named' leaves' nodes') hnode
    refine Set.iUnion₂_congr fun e he => ?_
    by_cases hleaf : S.IsLeaf e.1
    · obtain ⟨content, hdigest, hbelow⟩ := leaves e he hleaf
      obtain ⟨content', hdigest', hbelow'⟩ := leaves' e he hleaf
      rw [hdigest] at hdigest'
      rw [hbelow, hbelow', hS.leaf_inj (Option.some.inj hdigest')]
    · exact ih e he hleaf (nodes' e he hleaf)

end Digests

end BotCord.Merkle
