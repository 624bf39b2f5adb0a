import BotCord.Foundation.Table

/-!
# Tables with a primary key

A table that carries the proof that no two of its rows have one key. A row is found by its key, a row under a new key can be added, and rows can be rewritten by a function that leaves the key alone; there is no way to break the key. Rows can be taken out by a condition.
-/

namespace BotCord

/-- Rows with distinct keys, in the order in which they were added. -/
structure Keyed {ρ κ : Type*} (key : ρ → κ) where
  rows : List ρ := []
  distinct : (rows.map key).Nodup := by exact List.nodup_nil

namespace Keyed

variable {ρ κ : Type*} {key : ρ → κ} {t u : Keyed key} {r x : ρ} {k : κ}

instance : Inhabited (Keyed key) := ⟨{}⟩

instance : Membership ρ (Keyed key) := ⟨fun t r => r ∈ t.rows⟩

theorem mem_def : r ∈ t ↔ r ∈ t.rows := Iff.rfl

instance [DecidableEq ρ] : Decidable (r ∈ t) := inferInstanceAs (Decidable (r ∈ t.rows))

instance (p : ρ → Prop) [DecidablePred p] : Decidable (∃ r ∈ t, p r) := inferInstanceAs (Decidable (∃ r ∈ t.rows, p r))

instance (p : ρ → Prop) [DecidablePred p] : Decidable (∀ r ∈ t, p r) := inferInstanceAs (Decidable (∀ r ∈ t.rows, p r))

theorem eq_of_key (hr : r ∈ t) (hx : x ∈ t) (h : key r = key x) : r = x :=
  List.inj_on_of_nodup_map t.distinct hr hx h

@[simp] theorem not_mem_empty : r ∉ ({} : Keyed key) := List.not_mem_nil

structure Adds (t : Keyed key) (r : ρ) (u : Keyed key) : Prop where
  new : ∀ x ∈ t, key x ≠ key r
  rows : u.rows = t.rows ++ [r]

theorem Adds.mem_iff (h : t.Adds r u) : x ∈ u ↔ x ∈ t ∨ x = r := by
  rw [mem_def, h.rows, List.mem_append, List.mem_singleton, mem_def]

section Lookup

variable [DecidableEq κ]

def get? (t : Keyed key) (k : κ) : Option ρ := t.rows.find? (key · = k)

theorem get?_eq_some_iff : t.get? k = some r ↔ r ∈ t ∧ key r = k := by
  constructor
  · intro h
    exact ⟨List.mem_of_find?_eq_some h, by simpa using List.find?_some h⟩
  · rintro ⟨hr, rfl⟩
    exact Table.find?_eq_some_of_mem t.distinct hr

theorem get?_key (hr : r ∈ t) : t.get? (key r) = some r := get?_eq_some_iff.mpr ⟨hr, rfl⟩

theorem Adds.get? (h : t.Adds r u) : u.get? k = if k = key r then some r else t.get? k := by
  apply Option.ext
  intro x
  rw [get?_eq_some_iff, h.mem_iff]
  by_cases hk : k = key r
  · subst hk
    rw [if_pos rfl, Option.some.injEq]
    constructor
    · rintro ⟨hx | rfl, hkey⟩
      · exact absurd hkey (h.new x hx)
      · rfl
    · rintro rfl
      exact ⟨.inr rfl, rfl⟩
  · rw [if_neg hk, get?_eq_some_iff]
    constructor
    · rintro ⟨hx | rfl, hkey⟩
      · exact ⟨hx, hkey⟩
      · exact absurd hkey.symm hk
    · rintro ⟨hx, hkey⟩
      exact ⟨.inl hx, hkey⟩

theorem get?_eq_none_iff : t.get? k = none ↔ ∀ x ∈ t, key x ≠ k := by
  simp [get?, List.find?_eq_none, mem_def]

def insert? (t : Keyed key) (r : ρ) : Option (Keyed key) :=
  if h : ∀ x ∈ t.rows, key x ≠ key r then
    some { rows := t.rows ++ [r], distinct := Table.nodup_append_singleton t.distinct h }
  else none

theorem insert?_eq_some (h : t.insert? r = some u) : t.Adds r u := by
  unfold insert? at h
  split at h
  · rename_i hnew
    cases h
    exact ⟨hnew, rfl⟩
  · cases h

theorem insert?_eq_none (h : t.insert? r = none) : ∃ x ∈ t, key x = key r := by
  unfold insert? at h
  split at h
  · cases h
  · rename_i hnew
    push Not at hnew
    exact hnew

end Lookup

/-- Rewrite the rows that satisfy a condition, by a function that leaves the key alone. -/
def modify (t : Keyed key) (p : ρ → Prop) [DecidablePred p] (f : ρ → ρ) (hf : ∀ r, key (f r) = key r := by intro; rfl) :
    Keyed key where
  rows := Table.update p f t.rows
  distinct := by
    rw [Table.map_update fun r _ _ => hf r]
    exact t.distinct

variable {p : ρ → Prop} [DecidablePred p] {f : ρ → ρ} (hf : ∀ r, key (f r) = key r)

theorem mem_modify : x ∈ t.modify p f hf ↔ ∃ r ∈ t, (if p r then f r else r) = x := Table.mem_update

theorem mem_modify_of_mem (hr : r ∈ t) : (if p r then f r else r) ∈ t.modify p f hf :=
  (mem_modify hf).mpr ⟨r, hr, rfl⟩

theorem mem_modify_of_not (hr : r ∈ t) (hp : ¬ p r) : r ∈ t.modify p f hf := Table.mem_update_of_not hr hp

theorem ext_rows (h : t.rows = u.rows) : t = u := by
  cases t
  cases u
  cases h
  rfl

theorem modify_modify {g : ρ → ρ} (hg : ∀ r, key (g r) = key r) (hp : ∀ r, p r → p (f r)) :
    (t.modify p f hf).modify p g hg = t.modify p (fun r => g (f r)) fun r => (hg (f r)).trans (hf r) := by
  apply ext_rows
  show Table.update p g (Table.update p f t.rows) = Table.update p (fun r => g (f r)) t.rows
  unfold Table.update
  rw [List.map_map]
  refine List.map_congr_left fun r _ => ?_
  by_cases hr : p r
  · simp only [Function.comp_apply, if_pos hr, if_pos (hp r hr)]
  · simp only [Function.comp_apply, if_neg hr]

theorem get?_modify [DecidableEq κ] (k : κ) :
    (t.modify p f hf).get? k = (t.get? k).map fun r => if p r then f r else r := by
  have hkey : ∀ r, key (if p r then f r else r) = key r := by
    intro r
    split
    · exact hf r
    · rfl
  apply Option.ext
  intro x
  simp only [Option.map_eq_some_iff, get?_eq_some_iff, mem_modify]
  constructor
  · rintro ⟨⟨r, hr, rfl⟩, hk⟩
    exact ⟨r, ⟨hr, (hkey r).symm.trans hk⟩, rfl⟩
  · rintro ⟨r, ⟨hr, hk⟩, rfl⟩
    exact ⟨⟨r, hr, rfl⟩, (hkey r).trans hk⟩

theorem get?_modify_key [DecidableEq κ] {k' : κ} :
    (t.modify (key · = k) f hf).get? k' = if k' = k then (t.get? k).map f else t.get? k' := by
  rw [get?_modify]
  by_cases hk : k' = k
  · subst hk
    rw [if_pos rfl]
    refine Option.map_congr fun r hr => if_pos (get?_eq_some_iff.mp hr).2
  · rw [if_neg hk]
    cases hfound : t.get? k' with
    | none => rfl
    | some r =>
      have hr : key r ≠ k := (get?_eq_some_iff.mp hfound).2.symm ▸ hk
      rw [Option.map_some, if_neg hr]

theorem modify_eq_self (h : ∀ r ∈ t, p r → f r = r) : t.modify p f hf = t := by
  apply ext_rows
  show Table.update p f t.rows = t.rows
  unfold Table.update
  conv_rhs => rw [← List.map_id t.rows]
  refine List.map_congr_left fun r hr => ?_
  by_cases hp : p r
  · rw [if_pos hp, h r hr hp, id]
  · rw [if_neg hp, id]

def remove (t : Keyed key) (p : ρ → Prop) [DecidablePred p] : Keyed key where
  rows := t.rows.filter (¬ p ·)
  distinct := t.distinct.sublist (List.filter_sublist.map key)

theorem mem_remove : x ∈ t.remove p ↔ x ∈ t ∧ ¬ p x := by
  simp [remove, mem_def]

theorem get?_remove [DecidableEq κ] (k : κ) : (t.remove p).get? k = (t.get? k).filter (¬ p ·) := by
  apply Option.ext
  intro x
  simp only [Option.filter_eq_some_iff, get?_eq_some_iff, mem_remove, decide_eq_true_eq]
  exact and_right_comm

/-- How many rows satisfy a condition. -/
def count (t : Keyed key) (p : ρ → Prop) [DecidablePred p] : ℕ := t.rows.countP (p ·)

end Keyed

end BotCord
