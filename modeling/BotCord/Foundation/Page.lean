import Mathlib.Data.List.Nodup
import Mathlib.Data.List.Pairwise
import Mathlib.Data.List.Perm.Basic

/-!
# Pages

The first rows of an ordered select, of which one more than asked for is fetched to see whether there are more. Up to its last row a page leaves nothing out, and a page without more leaves nothing out at all.
-/

namespace BotCord

variable {ρ : Type*}

/-- A page in an order of the rows, and whether there are more. -/
def page (le : ρ → ρ → Bool) (limit : ℕ) (rows : List ρ) : List ρ × Bool :=
  let fetched := (rows.mergeSort le).take (limit + 1)
  (fetched.take limit, limit < fetched.length)

variable {le : ρ → ρ → Bool} {limit : ℕ} {rows : List ρ} {x last : ρ}

theorem page_fst : (page le limit rows).1 = (rows.mergeSort le).take limit := by
  simp only [page, List.take_take, Nat.min_eq_left (Nat.le_succ limit)]

theorem mem_of_mem_page (h : x ∈ (page le limit rows).1) : x ∈ rows := by
  rw [page_fst] at h
  exact List.mem_mergeSort.mp (List.mem_of_mem_take h)

theorem nodup_page (h : rows.Nodup) : (page le limit rows).1.Nodup := by
  rw [page_fst]
  exact ((List.mergeSort_perm rows le).nodup_iff.mpr h).sublist (List.take_sublist limit _)

theorem mem_page_of_not_more (hmore : (page le limit rows).2 = false) (hx : x ∈ rows) : x ∈ (page le limit rows).1 := by
  have hlength : (rows.mergeSort le).length ≤ limit := by
    have hmore := of_decide_eq_false hmore
    rw [List.length_take] at hmore
    omega
  rw [page_fst, List.take_of_length_le hlength]
  exact List.mem_mergeSort.mpr hx

section Order

variable (htrans : ∀ a b c, le a b = true → le b c = true → le a c = true) (htotal : ∀ a b, (le a b || le b a) = true)

include htrans htotal

theorem le_last_of_mem_page (hlast : last ∈ (page le limit rows).1.getLast?) (hx : x ∈ (page le limit rows).1) :
    x = last ∨ le x last = true := by
  have hsorted : (page le limit rows).1.Pairwise fun a b => le a b = true := by
    rw [page_fst]
    exact (List.pairwise_mergeSort htrans htotal rows).sublist (List.take_sublist limit _)
  obtain ⟨front, hfront⟩ := List.getLast?_eq_some_iff.mp hlast
  rw [hfront] at hx hsorted
  rcases List.mem_append.mp hx with hx | hx
  · exact .inr ((List.pairwise_append.mp hsorted).2.2 x hx last (List.mem_singleton.mpr rfl))
  · exact .inl (List.mem_singleton.mp hx)

theorem mem_page_of_not_le (hlast : last ∈ (page le limit rows).1.getLast?) (hx : x ∈ rows) (hnot : ¬ le last x = true) :
    x ∈ (page le limit rows).1 := by
  have hsorted := List.pairwise_mergeSort htrans htotal rows
  have hx : x ∈ rows.mergeSort le := List.mem_mergeSort.mpr hx
  have hmem := List.mem_of_mem_getLast? hlast
  rw [page_fst] at hmem ⊢
  rw [← List.take_append_drop limit (rows.mergeSort le)] at hsorted hx
  refine (List.mem_append.mp hx).resolve_right fun hdrop => hnot ?_
  exact (List.pairwise_append.mp hsorted).2.2 last hmem x hdrop

end Order

end BotCord
