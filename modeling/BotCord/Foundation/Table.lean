import Mathlib.Algebra.Order.BigOperators.Group.List
import Mathlib.Algebra.Order.Ring.Int
import Mathlib.Data.List.Nodup
import Mathlib.Tactic.Ring

/-!
# Tables as lists of rows

A table is the list of its rows in insertion order. What a statement does to a table is one of two things, a row appended or the rows with some key rewritten, and what an invariant says about a table is a total over its rows or a lookup by key. The lemmas here say how each total and each lookup moves under each statement.
-/

namespace BotCord.Table

variable {ρ κ : Type*}

def total (weight : ρ → ℤ) (rows : List ρ) : ℤ := (rows.map weight).sum

/-- Rewrite the rows that satisfy a condition, in place. -/
def update (p : ρ → Prop) [DecidablePred p] (f : ρ → ρ) (rows : List ρ) : List ρ :=
  rows.map fun r => if p r then f r else r

@[simp] theorem total_nil (weight : ρ → ℤ) : total weight [] = 0 := rfl

@[simp] theorem total_cons (weight : ρ → ℤ) (r : ρ) (rows : List ρ) :
    total weight (r :: rows) = weight r + total weight rows := by
  simp [total]

@[simp] theorem total_append (weight : ρ → ℤ) (left right : List ρ) :
    total weight (left ++ right) = total weight left + total weight right := by
  simp [total]

@[simp] theorem update_cons (p : ρ → Prop) [DecidablePred p] (f : ρ → ρ) (r : ρ) (rows : List ρ) :
    update p f (r :: rows) = (if p r then f r else r) :: update p f rows := rfl

variable {rows : List ρ} {f : ρ → ρ} {p : ρ → Prop}

theorem mem_update [DecidablePred p] {x : ρ} :
    x ∈ update p f rows ↔ ∃ r ∈ rows, (if p r then f r else r) = x := by
  simp [update]

theorem mem_update_of_not [DecidablePred p] {x : ρ}
    (hx : x ∈ rows) (hp : ¬ p x) : x ∈ update p f rows :=
  mem_update.mpr ⟨x, hx, if_neg hp⟩

theorem update_cases [DecidablePred p] {x : ρ} (hx : x ∈ update p f rows) :
    (x ∈ rows ∧ ¬ p x) ∨ ∃ r ∈ rows, p r ∧ x = f r := by
  obtain ⟨r, hr, rfl⟩ := mem_update.mp hx
  by_cases hp : p r
  · rw [if_pos hp]
    exact .inr ⟨r, hr, hp, rfl⟩
  · rw [if_neg hp]
    exact .inl ⟨hr, hp⟩

theorem map_update [DecidablePred p] {column : ρ → κ}
    (hf : ∀ r ∈ rows, p r → column (f r) = column r) : (update p f rows).map column = rows.map column := by
  unfold update
  rw [List.map_map]
  apply List.map_congr_left
  intro r hr
  by_cases hp : p r
  · simp [hp, hf r hr hp]
  · simp [hp]

theorem total_congr {weight weight' : ρ → ℤ} (h : ∀ r ∈ rows, weight r = weight' r) :
    total weight rows = total weight' rows :=
  congrArg List.sum (List.map_congr_left h)

variable {weight : ρ → ℤ}

theorem total_eq_zero (h : ∀ r ∈ rows, weight r = 0) :
    total weight rows = 0 := by
  induction rows with
  | nil => rfl
  | cons r rest ih =>
    rw [total_cons, h r List.mem_cons_self, ih fun x hx => h x (List.mem_cons_of_mem r hx), add_zero]

theorem total_filter (p : ρ → Prop) [DecidablePred p] (weight : ρ → ℤ) (rows : List ρ) :
    total weight (rows.filter (p ·)) = total (fun r => if p r then weight r else 0) rows := by
  induction rows with
  | nil => rfl
  | cons r rest ih =>
    by_cases hp : p r
    · rw [List.filter_cons_of_pos (by simpa using hp), total_cons, total_cons, ih, if_pos hp]
    · rw [List.filter_cons_of_neg (by simpa using hp), total_cons, ih, if_neg hp, zero_add]

theorem total_indicator (p : ρ → Prop) [DecidablePred p] (rows : List ρ) :
    total (fun r => if p r then 1 else 0) rows = (rows.countP (p ·) : ℤ) := by
  induction rows with
  | nil => rfl
  | cons r rest ih =>
    rw [total_cons, ih, List.countP_cons]
    by_cases hp : p r
    · simp only [hp, if_true, decide_true, Nat.cast_add, Nat.cast_one, add_comm]
    · simp [hp]

theorem total_update_of_eq [DecidablePred p]
    (hf : ∀ r ∈ rows, p r → weight (f r) = weight r) : total weight (update p f rows) = total weight rows :=
  congrArg List.sum (map_update hf)

variable {key : ρ → κ} {r : ρ}

/-- Rewriting the one row with a key changes the total by what that row's weight changes. -/
theorem total_update_key [DecidableEq κ]
    (hkeys : (rows.map key).Nodup) (hr : r ∈ rows) :
    total weight (update (key · = key r) f rows) = total weight rows - weight r + weight (f r) := by
  induction rows with
  | nil => simp at hr
  | cons x rest ih =>
    rw [List.map_cons, List.nodup_cons] at hkeys
    rw [update_cons, total_cons, total_cons]
    rcases List.mem_cons.mp hr with rfl | hrest
    · have hsame : total weight (update (key · = key r) f rest) = total weight rest :=
        total_update_of_eq fun y hy hkey => absurd (hkey ▸ List.mem_map_of_mem hy) hkeys.1
      rw [if_pos rfl, hsame]
      ring
    · have hne : key x ≠ key r := fun h => hkeys.1 (h ▸ List.mem_map_of_mem hrest)
      rw [if_neg hne, ih hkeys.2 hrest]
      ring

theorem total_nonneg (h : ∀ r ∈ rows, 0 ≤ weight r) : 0 ≤ total weight rows := by
  unfold total
  apply List.sum_nonneg
  intro x hx
  obtain ⟨r, hr, rfl⟩ := List.mem_map.mp hx
  exact h r hr

theorem le_total (h : ∀ x ∈ rows, 0 ≤ weight x) (hr : r ∈ rows) :
    weight r ≤ total weight rows := by
  unfold total
  apply List.single_le_sum
  · intro x hx
    obtain ⟨y, hy, rfl⟩ := List.mem_map.mp hx
    exact h y hy
  · exact List.mem_map_of_mem hr

theorem total_single_key [DecidableEq κ] {key : κ} {weight : ℤ} {keys : List κ} (hkeys : keys.Nodup)
    (hmem : key ∈ keys) : total (fun k => if key = k then weight else 0) keys = weight := by
  induction keys with
  | nil => simp at hmem
  | cons k rest ih =>
    rw [List.nodup_cons] at hkeys
    rw [total_cons]
    by_cases hk : key = k
    · subst hk
      have hzero : total (fun k => if key = k then weight else 0) rest = 0 :=
        total_eq_zero fun x hx => if_neg fun h => hkeys.1 (by rw [h]; exact hx)
      rw [if_pos rfl, hzero, add_zero]
    · rw [if_neg hk, zero_add]
      exact ih hkeys.2 ((List.mem_cons.mp hmem).resolve_left hk)

/-- Summing the rows key by key, over keys that cover every row of nonzero weight, is summing the rows. -/
theorem total_by_key [DecidableEq κ] {keys : List κ}
    (hkeys : keys.Nodup) (hcover : ∀ r ∈ rows, weight r ≠ 0 → key r ∈ keys) :
    total (fun k => total (fun r => if key r = k then weight r else 0) rows) keys = total weight rows := by
  induction rows with
  | nil => exact total_eq_zero fun _ _ => rfl
  | cons r rest ih =>
    have hrow : total (fun k => if key r = k then weight r else 0) keys = weight r := by
      by_cases hzero : weight r = 0
      · rw [hzero]
        exact total_eq_zero fun k _ => by simp
      · exact total_single_key hkeys (hcover r List.mem_cons_self hzero)
    have hsplit : total (fun k => total (fun x => if key x = k then weight x else 0) (r :: rest)) keys =
        total (fun k => if key r = k then weight r else 0) keys +
          total (fun k => total (fun x => if key x = k then weight x else 0) rest) keys := by
      simp only [total_cons]
      unfold total
      rw [← List.sum_map_add]
    rw [hsplit, hrow, ih fun x hx => hcover x (List.mem_cons_of_mem r hx), total_cons]

theorem find?_update {p q : ρ → Prop} [DecidablePred p] [DecidablePred q]
    (hf : ∀ r ∈ rows, p r → (q (f r) ↔ q r)) :
    (update p f rows).find? (q ·) = (rows.find? (q ·)).map fun r => if p r then f r else r := by
  induction rows with
  | nil => rfl
  | cons r rest ih =>
    have ih := ih fun x hx => hf x (List.mem_cons_of_mem r hx)
    have hq : q (if p r then f r else r) ↔ q r := by
      by_cases hp : p r
      · rw [if_pos hp]
        exact hf r List.mem_cons_self hp
      · rw [if_neg hp]
    rw [update_cons, List.find?_cons, List.find?_cons]
    by_cases hr : q r
    · simp [hr, hq.mpr hr]
    · simp [hr, mt hq.mp hr, ih]

theorem find?_append_singleton {q : ρ → Prop} [DecidablePred q] :
    (rows ++ [r]).find? (q ·) = (rows.find? (q ·)).or (if q r then some r else none) := by
  rw [List.find?_append]
  by_cases hq : q r <;> simp [hq]

theorem find?_eq_some_of_mem [DecidableEq κ]
    (hkeys : (rows.map key).Nodup) (hr : r ∈ rows) : rows.find? (key · = key r) = some r := by
  induction rows with
  | nil => simp at hr
  | cons x rest ih =>
    rw [List.map_cons, List.nodup_cons] at hkeys
    rcases List.mem_cons.mp hr with rfl | hrest
    · simp
    · have hne : key x ≠ key r := fun h => hkeys.1 (h ▸ List.mem_map_of_mem hrest)
      rw [List.find?_cons_of_neg (by simpa using hne)]
      exact ih hkeys.2 hrest

theorem nodup_append_singleton (hkeys : (rows.map key).Nodup)
    (hnew : ∀ x ∈ rows, key x ≠ key r) : ((rows ++ [r]).map key).Nodup := by
  rw [List.map_append, List.map_singleton]
  refine List.Nodup.append hkeys (List.nodup_singleton _) ?_
  rw [List.disjoint_singleton]
  intro hmem
  obtain ⟨x, hx, hkey⟩ := List.mem_map.mp hmem
  exact hnew x hx hkey

/-- Write a row under its key, over the row that has it or as a new one. -/
def put [DecidableEq κ] (key : ρ → κ) (row : ρ) (rows : List ρ) : List ρ :=
  if key row ∈ rows.map key then update (key · = key row) (fun _ => row) rows else rows ++ [row]

theorem find?_put_self [DecidableEq κ] (key : ρ → κ) (row : ρ) (rows : List ρ) :
    (put key row rows).find? (key · = key row) = some row := by
  rw [put]
  split
  · rename_i hmem
    obtain ⟨old, hold, hkey⟩ := List.mem_map.mp hmem
    rw [find?_update fun _ _ _ => by simp_all]
    cases hfind : rows.find? (key · = key row) with
    | none => exact absurd hkey (by simpa using List.find?_eq_none.mp hfind old hold)
    | some found =>
      have hfound : key found = key row := by simpa using List.find?_some hfind
      rw [Option.map_some, if_pos hfound]
  · rename_i hnew
    have hnone : rows.find? (key · = key row) = none := by
      rw [List.find?_eq_none]
      intro x hx hkey
      exact hnew (of_decide_eq_true hkey ▸ List.mem_map_of_mem hx)
    rw [find?_append_singleton, hnone, if_pos rfl, Option.none_or]

theorem find?_put_of_ne [DecidableEq κ] {row : ρ} {other : κ} (h : other ≠ key row) :
    (put key row rows).find? (key · = other) = rows.find? (key · = other) := by
  rw [put]
  split
  · rw [find?_update fun x _ hx => by rw [hx]]
    cases hfind : rows.find? (key · = other) with
    | none => rfl
    | some found =>
      have hfound : key found = other := by simpa using List.find?_some hfind
      rw [Option.map_some, if_neg (hfound ▸ h)]
  · rw [find?_append_singleton, if_neg h.symm, Option.or_none]

end BotCord.Table
