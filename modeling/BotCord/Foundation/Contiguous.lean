import Mathlib.Data.List.Infix
import Mathlib.Data.List.Nodup

/-!
# Contiguous parts of a list

A set of elements of a list without repetitions is contiguous if whatever lies between two of its elements belongs to it. A block of the list is contiguous, elements added at the end of the list change nothing, and two contiguous sets that share an element or have neighbouring ones are contiguous together.
-/

namespace BotCord

variable {α : Type*} [DecidableEq α] {list front : List α} {s t : α → Prop} {x y : α}

/-- Whatever lies between two elements of the set belongs to it. -/
def Contiguous (list : List α) (s : α → Prop) : Prop :=
  ∀ a b c, b ∈ list → c ∈ list → list.idxOf a ≤ list.idxOf b → list.idxOf b ≤ list.idxOf c → s a → s c → s b

theorem Contiguous.congr (h : Contiguous list s) (hst : ∀ x, t x ↔ s x) : Contiguous list t :=
  fun a b c hb hc hab hbc ha ht => (hst b).mpr (h a b c hb hc hab hbc ((hst a).mp ha) ((hst c).mp ht))

theorem contiguous_of_forall_not (h : ∀ x, ¬ s x) : Contiguous list s := fun a _ _ _ _ _ _ ha => absurd ha (h a)

theorem Contiguous.append (h : Contiguous front s) (hmem : ∀ x, s x → x ∈ front) (rest : List α) :
    Contiguous (front ++ rest) s := by
  intro a b c hb _ hab hbc ha hc
  rw [List.idxOf_append_of_mem (hmem c hc)] at hbc
  rw [List.idxOf_append_of_mem (hmem a ha)] at hab
  have hfront : b ∈ front := by
    by_contra hnot
    rw [List.idxOf_append_of_notMem hnot] at hbc
    exact absurd (List.idxOf_lt_length_of_mem (hmem c hc)) (by omega)
  rw [List.idxOf_append_of_mem hfront] at hab hbc
  exact h a b c hfront (hmem c hc) hab hbc ha hc

theorem mem_block_iff {pre block post : List α} (hnodup : (pre ++ block ++ post).Nodup) (hx : x ∈ pre ++ block ++ post) :
    x ∈ block ↔ pre.length ≤ (pre ++ block ++ post).idxOf x ∧
      (pre ++ block ++ post).idxOf x < pre.length + block.length := by
  rw [List.append_assoc] at hnodup hx ⊢
  obtain ⟨-, hrest, hpre⟩ := List.nodup_append'.mp hnodup
  obtain ⟨-, -, hblock⟩ := List.nodup_append'.mp hrest
  rcases List.mem_append.mp hx with hx | hx
  · rw [List.idxOf_append_of_mem hx]
    have hlt := List.idxOf_lt_length_of_mem hx
    exact iff_of_false (fun hmem => hpre hx (List.mem_append_left _ hmem)) (by omega)
  · rw [List.idxOf_append_of_notMem fun hmem => hpre hmem hx]
    rcases List.mem_append.mp hx with hx | hx
    · rw [List.idxOf_append_of_mem hx]
      have hlt := List.idxOf_lt_length_of_mem hx
      exact iff_of_true hx (by omega)
    · rw [List.idxOf_append_of_notMem fun hmem => hblock hmem hx]
      exact iff_of_false (fun hmem => hblock hmem hx) (by omega)

theorem contiguous_of_block {block : List α} (hnodup : list.Nodup) (h : block <:+: list) :
    Contiguous list (· ∈ block) := by
  obtain ⟨pre, post, rfl⟩ := h
  intro a b c hb hc hab hbc ha hmem
  have hmemA : a ∈ pre ++ block ++ post := by simp [ha]
  rw [mem_block_iff hnodup hmemA] at ha
  rw [mem_block_iff hnodup hc] at hmem
  rw [mem_block_iff hnodup hb]
  omega

theorem idxOf_eq_succ (hnodup : list.Nodup) (h : [x, y] <:+: list) : list.idxOf y = list.idxOf x + 1 := by
  obtain ⟨pre, post, rfl⟩ := h
  rw [List.append_assoc] at hnodup ⊢
  obtain ⟨-, hrest, hpre⟩ := List.nodup_append'.mp hnodup
  have hx : x ∉ pre := fun hmem => hpre hmem (by simp)
  have hy : y ∉ pre := fun hmem => hpre hmem (by simp)
  rw [List.idxOf_append_of_notMem hx, List.idxOf_append_of_notMem hy]
  have hne : x ≠ y := by
    rintro rfl
    simp at hrest
  simp [hne]

/-- The sets share an element, or an element of the one is next to one of the other. -/
def Touch (list : List α) (s t : α → Prop) : Prop :=
  ∃ x y, s x ∧ t y ∧ (x = y ∨ [x, y] <:+: list ∨ [y, x] <:+: list)

theorem Contiguous.union (hnodup : list.Nodup) (hs : Contiguous list s) (ht : Contiguous list t)
    (hsl : ∀ x, s x → x ∈ list) (htl : ∀ x, t x → x ∈ list) (htouch : Touch list s t) :
    Contiguous list fun x => s x ∨ t x := by
  obtain ⟨x, y, hx, hy, hnear⟩ := htouch
  have hdistance : list.idxOf y ≤ list.idxOf x + 1 ∧ list.idxOf x ≤ list.idxOf y + 1 := by
    rcases hnear with rfl | h | h
    · omega
    · have := idxOf_eq_succ hnodup h
      omega
    · have := idxOf_eq_succ hnodup h
      omega
  intro a b c hb hc hab hbc ha hmem
  rcases ha with ha | ha <;> rcases hmem with hmem | hmem
  · exact .inl (hs a b c hb hc hab hbc ha hmem)
  · by_cases hbx : list.idxOf b ≤ list.idxOf x
    · exact .inl (hs a b x hb (hsl x hx) hab hbx ha hx)
    · exact .inr (ht y b c hb hc (by omega) hbc hy hmem)
  · by_cases hby : list.idxOf b ≤ list.idxOf y
    · exact .inr (ht a b y hb (htl y hy) hab hby ha hy)
    · exact .inl (hs x b c hb hc (by omega) hbc hx hmem)
  · exact .inr (ht a b c hb hc hab hbc ha hmem)

end BotCord
