import Mathlib.Data.List.MinMax
import Mathlib.Data.List.Perm.Basic

/-!
# Answers that do not depend on the order of the rows

A select without an order returns its rows in any order. What a caller makes of them is determined all the same where it asks for a row that is the only one of its kind, or for the greatest value of some measure.
-/

namespace BotCord.Select

variable {ρ κ β : Type*}

def Sole (p : ρ → Prop) (rows : List ρ) : Prop :=
  ∀ x ∈ rows, ∀ y ∈ rows, p x → p y → x = y

theorem Sole.subset {p q : ρ → Prop} {rows sub : List ρ} (h : Sole p rows) (hsub : ∀ x ∈ sub, x ∈ rows)
    (hq : ∀ x ∈ sub, q x → p x) : Sole q sub :=
  fun x hx y hy hqx hqy => h x (hsub x hx) y (hsub y hy) (hq x hx hqx) (hq y hy hqy)

theorem find?_eq_some_iff_of_sole {p : ρ → Bool} {rows : List ρ} (h : Sole (fun x => p x) rows) {a : ρ} :
    rows.find? p = some a ↔ a ∈ rows ∧ p a := by
  constructor
  · intro hfind
    exact ⟨List.mem_of_find?_eq_some hfind, List.find?_some hfind⟩
  · rintro ⟨ha, hpa⟩
    cases hfind : rows.find? p with
    | none =>
      rw [List.find?_eq_none] at hfind
      exact absurd hpa (hfind a ha)
    | some b =>
      have hb : b ∈ rows ∧ p b := ⟨List.mem_of_find?_eq_some hfind, List.find?_some hfind⟩
      rw [h b hb.1 a ha hb.2 hpa]

theorem find?_reverse_eq_some_iff_of_sole {p : ρ → Bool} {rows : List ρ} (h : Sole (fun x => p x) rows)
    {a : ρ} : rows.reverse.find? p = some a ↔ a ∈ rows ∧ p a := by
  have hreverse : Sole (fun x => p x) rows.reverse :=
    h.subset (fun x hx => List.mem_reverse.mp hx) fun _ _ hpx => hpx
  rw [find?_eq_some_iff_of_sole hreverse, List.mem_reverse]

theorem head?_eq_some_iff_of_sole {rows : List ρ} (h : Sole (fun _ => True) rows) {a : ρ} :
    rows.head? = some a ↔ a ∈ rows := by
  constructor
  · exact List.mem_of_mem_head?
  · intro ha
    cases rows with
    | nil => exact absurd ha List.not_mem_nil
    | cons b rest => rw [List.head?_cons, h b List.mem_cons_self a ha trivial trivial]

section Best

variable [LinearOrder β] {measure : ρ → β}

theorem measure_argmax_eq {left right : List ρ} (h : ∀ x, x ∈ left ↔ x ∈ right) {a b : ρ}
    (ha : a ∈ left.argmax measure) (hb : b ∈ right.argmax measure) : measure a = measure b := by
  apply le_antisymm
  · exact List.le_of_mem_argmax ((h a).mp (List.argmax_mem ha)) hb
  · exact List.le_of_mem_argmax ((h b).mpr (List.argmax_mem hb)) ha

/-- Keep a row in place of the best one so far of its key if it is strictly better. -/
def keepBest [DecidableEq κ] (key : ρ → κ) (measure : ρ → β) (best : κ → Option ρ) (r : ρ) : κ → Option ρ :=
  match best (key r) with
  | none => Function.update best (key r) (some r)
  | some b => if measure b < measure r then Function.update best (key r) (some r) else best

theorem keepBest_self [DecidableEq κ] (key : ρ → κ) (best : κ → Option ρ) (r : ρ) :
    keepBest key measure best r (key r)
      = (best (key r)).elim (some r) fun b => if measure b < measure r then some r else some b := by
  unfold keepBest
  cases hbest : best (key r) with
  | none => simp
  | some b => by_cases hlt : measure b < measure r <;> simp [hlt, hbest]

theorem keepBest_of_ne [DecidableEq κ] {key : ρ → κ} {r : ρ} {k : κ} (h : key r ≠ k) (best : κ → Option ρ) :
    keepBest key measure best r k = best k := by
  unfold keepBest
  cases best (key r) with
  | none => simp [Function.update_of_ne (Ne.symm h)]
  | some b => by_cases hlt : measure b < measure r <;> simp [hlt, Function.update_of_ne (Ne.symm h)]

/-- A pass that keeps the best row of each key ends with the first greatest row of each. -/
theorem foldl_keepBest [DecidableEq κ] (key : ρ → κ) (rows : List ρ) (k : κ) :
    rows.foldl (keepBest key measure) (fun _ => none) k
      = (rows.filter fun r => key r = k).argmax measure := by
  induction rows using List.reverseRecOn with
  | nil => rfl
  | append_singleton rest r ih =>
    rw [List.foldl_append, List.foldl_cons, List.foldl_nil, List.filter_append]
    by_cases hk : key r = k
    · subst hk
      rw [keepBest_self, ih, List.filter_cons_of_pos (by simp), List.filter_nil, List.argmax_concat]
      cases List.argmax measure (rest.filter fun x => key x = key r) with
      | none => rfl
      | some b => rfl
    · rw [keepBest_of_ne hk, ih, List.filter_cons_of_neg (by simpa using hk), List.filter_nil,
        List.append_nil]

end Best

end BotCord.Select
