import Mathlib.Data.Int.Notation
import Mathlib.Data.List.Basic

/-!
# Texts put together with a mark

Joining with a separator loses nothing as long as the parts do not contain it, and splitting at the separator gives such parts.
-/

namespace BotCord.Text

variable {α : Type*} [BEq α] [LawfulBEq α] {mark : α}

/-- Two texts split at a mark, with as many marks after it, are split at the same place. -/
theorem append_mark_inj {left left' right right' : List α} (h : left ++ mark :: right = left' ++ mark :: right')
    (hcount : right.count mark = right'.count mark) : left = left' ∧ right = right' := by
  have hleft : left = left' := by
    rcases List.append_eq_append_iff.mp h with ⟨middle, rfl, hrest⟩ | ⟨middle, rfl, hrest⟩
    · cases middle with
      | nil => rw [List.append_nil]
      | cons x middle =>
        have hright : right = middle ++ mark :: right' := (List.cons.inj hrest).2
        rw [hright, List.count_append, List.count_cons_self] at hcount
        omega
    · cases middle with
      | nil => rw [List.append_nil]
      | cons x middle =>
        have hright : right' = middle ++ mark :: right := (List.cons.inj hrest).2
        rw [hright, List.count_append, List.count_cons_self] at hcount
        omega
  subst hleft
  exact ⟨rfl, (List.cons.inj (List.append_cancel_left h)).2⟩

theorem intercalate_inj {parts parts' : List (List α)} (hparts : ∀ part ∈ parts, mark ∉ part)
    (hparts' : ∀ part ∈ parts', mark ∉ part) (hne : parts ≠ []) (hne' : parts' ≠ [])
    (h : [mark].intercalate parts = [mark].intercalate parts') : parts = parts' := by
  rw [← List.splitOn_intercalate mark hparts hne, h, List.splitOn_intercalate mark hparts' hne']

theorem not_mem_of_mem_splitOn {text part : List α} (h : part ∈ text.splitOn mark) : mark ∉ part := by
  induction text generalizing part with
  | nil =>
    rw [List.splitOn_nil, List.mem_singleton] at h
    simp [h]
  | cons x rest ih =>
    rw [List.splitOn_cons_eq_if_modifyHead] at h
    split at h
    · rcases List.mem_cons.mp h with rfl | hrest
      · simp
      · exact ih hrest
    · rename_i hx
      cases hsplit : rest.splitOn mark with
      | nil => exact absurd hsplit (List.splitOn_ne_nil mark rest)
      | cons first others =>
        rw [hsplit] at h ih
        rcases List.mem_cons.mp h with rfl | hother
        · intro hmem
          rcases List.mem_cons.mp hmem with hmark | hfirst
          · exact hx (by simp [hmark])
          · exact ih List.mem_cons_self hfirst
        · exact ih (List.mem_cons_of_mem _ hother)

omit [BEq α] [LawfulBEq α] in
theorem intercalate_ne_nil (mark : α) {parts : List (List α)} (hne : parts ≠ []) (hparts : ∀ part ∈ parts, part ≠ []) :
    [mark].intercalate parts ≠ [] := by
  cases parts with
  | nil => exact absurd rfl hne
  | cons part rest =>
    have hpart := hparts part List.mem_cons_self
    cases rest with
    | nil => simpa using hpart
    | cons next rest =>
      rw [List.intercalate_cons_cons]
      simp [hpart]

omit [BEq α] [LawfulBEq α] in
theorem mem_intercalate {parts : List (List α)} {x : α} (h : x ∈ [mark].intercalate parts) :
    x = mark ∨ ∃ part ∈ parts, x ∈ part := by
  induction parts with
  | nil => simp at h
  | cons part rest ih =>
    cases rest with
    | nil =>
      rw [List.intercalate_singleton] at h
      exact .inr ⟨part, List.mem_cons_self, h⟩
    | cons next rest =>
      rw [List.intercalate_cons_cons, List.mem_append, List.mem_append, List.mem_singleton] at h
      rcases h with (hpart | hmark) | hrest
      · exact .inr ⟨part, List.mem_cons_self, hpart⟩
      · exact .inl hmark
      · exact (ih hrest).imp id fun ⟨other, hother, hx⟩ => ⟨other, List.mem_cons_of_mem _ hother, hx⟩

omit [BEq α] [LawfulBEq α] in
theorem getLast?_intercalate_ne (mark : α) {parts : List (List α)} (hne : parts ≠ [])
    (hparts : ∀ part ∈ parts, part ≠ [] ∧ mark ∉ part) : ([mark].intercalate parts).getLast? ≠ some mark := by
  induction parts with
  | nil => exact absurd rfl hne
  | cons part rest ih =>
    obtain ⟨hpart, hmark⟩ := hparts part List.mem_cons_self
    cases rest with
    | nil =>
      rw [List.intercalate_singleton]
      exact fun hlast => hmark (List.mem_of_getLast? hlast)
    | cons next rest =>
      have hrest : [mark].intercalate (next :: rest) ≠ [] :=
        intercalate_ne_nil mark (List.cons_ne_nil _ _) fun other hother => (hparts other (List.mem_cons_of_mem _ hother)).1
      rw [List.intercalate_cons_cons, List.getLast?_append_of_ne_nil _ hrest]
      exact ih (List.cons_ne_nil _ _) fun other hother => hparts other (List.mem_cons_of_mem _ hother)

omit [BEq α] [LawfulBEq α] in
theorem intercalate_prefix (mark : α) {front parts : List (List α)} (h : front <+: parts) :
    [mark].intercalate front <+: [mark].intercalate parts := by
  induction front generalizing parts with
  | nil => exact List.nil_prefix
  | cons part rest ih =>
    obtain ⟨back, rfl⟩ := h
    cases rest with
    | nil =>
      rw [List.intercalate_singleton]
      cases back with
      | nil => simp
      | cons next back => simp [List.intercalate_cons_cons, List.append_assoc]
    | cons next rest =>
      have hrest : [mark].intercalate (next :: rest) <+: [mark].intercalate (next :: rest ++ back) := ih ⟨back, rfl⟩
      simp only [List.cons_append, List.intercalate_cons_cons] at hrest ⊢
      exact (List.prefix_append_right_inj _).mpr hrest

/-- Joins of as many parts, with as many marks in each of them, are joins of the same parts. -/
theorem intercalate_inj_of_count {parts parts' : List (List α)}
    (hcount : parts.map (List.count mark) = parts'.map (List.count mark))
    (h : [mark].intercalate parts = [mark].intercalate parts') : parts = parts' := by
  induction parts generalizing parts' with
  | nil =>
    cases parts' with
    | nil => rfl
    | cons part' rest' => cases hcount
  | cons part rest ih =>
    cases parts' with
    | nil => cases hcount
    | cons part' rest' =>
      obtain ⟨hpart, hrest⟩ := List.cons.inj hcount
      cases rest with
      | nil =>
        cases rest' with
        | nil =>
          rw [List.intercalate_singleton, List.intercalate_singleton] at h
          rw [h]
        | cons next' rest' => cases hrest
      | cons next rest =>
        cases rest' with
        | nil => cases hrest
        | cons next' rest' =>
          have hmarked : part ++ mark :: [mark].intercalate (next :: rest)
              = part' ++ mark :: [mark].intercalate (next' :: rest') := by
            simpa [List.intercalate_cons_cons] using h
          have htotal := congrArg (List.count mark) hmarked
          simp only [List.count_append, List.count_cons_self] at htotal hpart
          obtain ⟨rfl, hjoin⟩ := append_mark_inj hmarked (by omega)
          rw [ih hrest hjoin]

section

variable {β : Type*}

/-- The two lists agree up to a part of the second that goes on where that part of the first ends, with what the first has after it. -/
def Overlaps : List (List β) → List (List β) → Prop
  | x :: xs, y :: ys =>
    x = y ∧ Overlaps xs ys ∨ x ≠ y ∧ x <+: y ∧ xs.flatten = y.drop x.length ++ ys.flatten
  | _, _ => False

instance decidableOverlaps [DecidableEq β] : ∀ xs ys : List (List β), Decidable (Overlaps xs ys)
  | [], _ => inferInstanceAs (Decidable False)
  | _ :: _, [] => inferInstanceAs (Decidable False)
  | x :: xs, y :: ys =>
    have := decidableOverlaps xs ys
    inferInstanceAs (Decidable (x = y ∧ Overlaps xs ys ∨ x ≠ y ∧ x <+: y ∧ xs.flatten = y.drop x.length ++ ys.flatten))

theorem overlaps_cons {x y : List β} {xs ys : List (List β)} :
    Overlaps (x :: xs) (y :: ys) ↔
      x = y ∧ Overlaps xs ys ∨ x ≠ y ∧ x <+: y ∧ xs.flatten = y.drop x.length ++ ys.flatten := Iff.rfl

theorem overlaps_cons_self {x : List β} {xs ys : List (List β)} :
    Overlaps (x :: xs) (x :: ys) ↔ Overlaps xs ys := by
  simp [overlaps_cons]

theorem Overlaps.flatten_eq {xs ys : List (List β)} (h : Overlaps xs ys) : xs.flatten = ys.flatten := by
  induction xs generalizing ys with
  | nil => exact h.elim
  | cons x xs ih =>
    cases ys with
    | nil => exact h.elim
    | cons y ys =>
      rcases overlaps_cons.mp h with ⟨rfl, hrest⟩ | ⟨-, ⟨extra, rfl⟩, hrest⟩
      · rw [List.flatten_cons, List.flatten_cons, ih hrest]
      · rw [List.flatten_cons, List.flatten_cons, hrest, List.drop_left, List.append_assoc]

/-- Lists of as many parts make the same text exactly if they are the same or one of them overlaps the other. -/
theorem flatten_eq_iff {xs ys : List (List β)} (hlen : xs.length = ys.length) :
    xs.flatten = ys.flatten ↔ xs = ys ∨ Overlaps xs ys ∨ Overlaps ys xs := by
  constructor
  · intro h
    induction xs generalizing ys with
    | nil => exact Or.inl (List.length_eq_zero_iff.mp hlen.symm).symm
    | cons x xs ih =>
      cases ys with
      | nil => cases hlen
      | cons y ys =>
        by_cases hxy : x = y
        · subst hxy
          rw [overlaps_cons_self, overlaps_cons_self, List.cons.injEq, eq_self, true_and]
          exact ih (Nat.succ.inj hlen) (List.append_cancel_left h)
        · rw [List.flatten_cons, List.flatten_cons] at h
          rcases List.append_eq_append_iff.mp h with ⟨extra, rfl, hrest⟩ | ⟨extra, rfl, hrest⟩
          · refine Or.inr (Or.inl (Or.inr ⟨hxy, List.prefix_append _ _, ?_⟩))
            rw [hrest, List.drop_left]
          · refine Or.inr (Or.inr (Or.inr ⟨Ne.symm hxy, List.prefix_append _ _, ?_⟩))
            rw [hrest, List.drop_left]
  · rintro (rfl | h | h)
    · rfl
    · exact h.flatten_eq
    · exact h.flatten_eq.symm

end

theorem nat_repr_injective {m n : ℕ} (h : m.repr = n.repr) : m = n := by
  rw [← Nat.ofDigitChars_ten_toDigits (n := m), ← Nat.ofDigitChars_ten_toDigits (n := n), ← Nat.toList_repr,
    ← Nat.toList_repr, h]

theorem isDigit_of_mem_nat_repr {n : ℕ} {c : Char} (h : c ∈ n.repr.toList) : c.isDigit := by
  rw [Nat.toList_repr] at h
  exact Nat.isDigit_of_mem_toDigits (by omega) (by omega) h

theorem mem_int_repr {n : ℤ} {c : Char} (h : c ∈ n.repr.toList) : c = '-' ∨ c.isDigit := by
  rw [Int.repr_eq_if] at h
  split_ifs at h
  · exact Or.inr (isDigit_of_mem_nat_repr h)
  · rw [String.toList_append, List.mem_append] at h
    rcases h with h | h
    · left
      simpa using h
    · exact Or.inr (isDigit_of_mem_nat_repr h)

theorem int_repr_injective {m n : ℤ} (h : m.repr = n.repr) : m = n := by
  have hsign : ∀ a b : ℕ, a.repr ≠ "-" ++ b.repr := fun a b hab => by
    have hminus : '-' ∈ a.repr.toList := by
      rw [hab, String.toList_append]
      exact List.mem_append_left _ (by decide)
    exact absurd (isDigit_of_mem_nat_repr hminus) (by decide)
  rw [Int.repr_eq_if, Int.repr_eq_if] at h
  split_ifs at h
  · have := nat_repr_injective h
    omega
  · exact absurd h (hsign _ _)
  · exact absurd h.symm (hsign _ _)
  · have := nat_repr_injective (String.append_right_inj _ |>.mp h)
    omega

end BotCord.Text
