import BotCord.Foundation.Keyed

/-!
# One row for another

A step of a system whose calls are the rows of a table touches one of them: a call begins, goes on or ends. `Exchange` says which row went and which one came, and that the others are where they were.
-/

namespace BotCord.Keyed

variable {ρ κ : Type*} {key : ρ → κ} {t u : Keyed key} {r : ρ} {k : κ}

structure Exchange (t u : Keyed key) (before after : Option ρ) : Prop where
  mem : ∀ r ∈ before, r ∈ t
  cases : ∀ r ∈ u, r ∈ t ∧ some r ≠ before ∨ after = some r
  others : ∀ r ∈ t, some r ≠ before → r ∈ u
  new : ∀ r ∈ after, r ∈ u

theorem Exchange.refl (t : Keyed key) : Exchange t t none none :=
  ⟨fun _ h => (by cases h), fun _ hr => .inl ⟨hr, nofun⟩, fun _ hr _ => hr, fun _ h => (by cases h)⟩

theorem Adds.exchange (h : t.Adds r u) : Exchange t u none (some r) := by
  refine ⟨fun _ h => (by cases h), fun x hx => ?_, fun x hx _ => h.mem_iff.mpr (.inl hx), fun x hx => ?_⟩
  · rcases h.mem_iff.mp hx with hx | rfl
    · exact .inl ⟨hx, nofun⟩
    · exact .inr rfl
  · cases hx
    exact h.mem_iff.mpr (.inr rfl)

section Lookup

variable [DecidableEq κ] {f : ρ → ρ} (hf : ∀ r, key (f r) = key r)

theorem exchange_modify (h : t.get? k = some r) : Exchange t (t.modify (key · = k) f hf) (some r) (some (f r)) := by
  obtain ⟨hr, hk⟩ := get?_eq_some_iff.mp h
  refine ⟨fun x hx => ?_, fun x hx => ?_, fun x hx hne => ?_, fun x hx => ?_⟩
  · cases hx
    exact hr
  · obtain ⟨y, hy, rfl⟩ := (mem_modify hf).mp hx
    split
    · rename_i hkey
      rw [eq_of_key hy hr (hkey.trans hk.symm)]
      exact .inr rfl
    · rename_i hkey
      refine .inl ⟨hy, fun heq => hkey ?_⟩
      rw [Option.some.inj heq]
      exact hk
  · refine mem_modify_of_not hf hx fun hkey => hne ?_
    rw [eq_of_key hx hr (hkey.trans hk.symm)]
  · cases hx
    have hmem := mem_modify_of_mem hf hr (p := (key · = k))
    rw [if_pos hk] at hmem
    exact hmem

theorem exchange_remove (h : t.get? k = some r) : Exchange t (t.remove (key · = k)) (some r) none := by
  obtain ⟨hr, hk⟩ := get?_eq_some_iff.mp h
  refine ⟨fun x hx => ?_, fun x hx => ?_, fun x hx hne => ?_, fun _ h => (by cases h)⟩
  · cases hx
    exact hr
  · obtain ⟨hx, hkey⟩ := mem_remove.mp hx
    refine .inl ⟨hx, fun heq => hkey ?_⟩
    rw [Option.some.inj heq]
    exact hk
  · refine mem_remove.mpr ⟨hx, fun hkey => hne ?_⟩
    rw [eq_of_key hx hr (hkey.trans hk.symm)]

end Lookup

end BotCord.Keyed
