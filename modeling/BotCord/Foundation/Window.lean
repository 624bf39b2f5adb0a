import Mathlib.Algebra.Order.Group.Defs
import Mathlib.Data.List.Basic
import Mathlib.Data.List.TakeWhile

/-!
# Sliding windows

A window holds the times that were admitted within the last span, the oldest first. Before a new time is admitted the front of the window is dropped as far as the span has passed over it, and the new time is admitted only while fewer than the limit are left.
-/

namespace BotCord.Window

variable {τ : Type*} [AddCommGroup τ] [LinearOrder τ]

/-- The window without what the span has passed over. -/
def live (span now : τ) (window : List τ) : List τ := window.dropWhile (· ≤ now - span)

def within (span now : τ) (times : List τ) : List τ := times.filter (now - span < ·)

/-- At most so many times in any interval as long as the span, its end left out. -/
def Sparse (limit : ℕ) (span : τ) (times : List τ) : Prop :=
  ∀ start, (times.filter fun t => start ≤ t ∧ t < start + span).length ≤ limit

/-- The window is a last part of the admitted times, and what it lacks is too old to count. -/
structure Tracks (span : τ) (admitted window : List τ) (now : τ) : Prop where
  sorted : admitted.Pairwise (· ≤ ·)
  past : ∀ t ∈ admitted, t ≤ now
  recent : ∃ dropped, admitted = dropped ++ window ∧ ∀ t ∈ dropped, t ≤ now - span

theorem within_append (span now : τ) (front back : List τ) :
    within span now (front ++ back) = within span now front ++ within span now back :=
  List.filter_append front back

theorem within_eq_nil {span now : τ} {times : List τ} (h : ∀ t ∈ times, t ≤ now - span) :
    within span now times = [] := by
  rw [within, List.filter_eq_nil_iff]
  intro t ht
  simpa using h t ht

theorem live_eq_within {span now : τ} {window : List τ} (hsorted : window.Pairwise (· ≤ ·)) :
    live span now window = within span now window := by
  induction window with
  | nil => rfl
  | cons t rest ih =>
    rw [List.pairwise_cons] at hsorted
    by_cases hold : t ≤ now - span
    · have hkept : ¬ now - span < t := not_lt.mpr hold
      rw [live, List.dropWhile_cons_of_pos (by simpa using hold), within,
        List.filter_cons_of_neg (by simpa using hkept)]
      exact ih hsorted.2
    · rw [live, List.dropWhile_cons_of_neg (by simpa using hold), within, List.filter_eq_self.mpr]
      intro x hx
      rcases List.mem_cons.mp hx with rfl | hrest
      · simpa using hold
      · simpa using (not_le.mp hold).trans_le (hsorted.1 x hrest)

theorem Sparse.nil {limit : ℕ} {span : τ} : Sparse limit span [] := fun _ => Nat.zero_le _

theorem Sparse.sublist {limit : ℕ} {span : τ} {times fewer : List τ} (h : Sparse limit span times)
    (hsub : List.Sublist fewer times) : Sparse limit span fewer :=
  fun start => (hsub.filter _).length_le.trans (h start)

namespace Tracks

variable {span now : τ} {admitted window : List τ}

theorem nil : Tracks span [] [] now :=
  ⟨List.Pairwise.nil, by simp, [], rfl, by simp⟩

theorem push (h : Tracks span admitted window now) : Tracks span (admitted ++ [now]) (window ++ [now]) now := by
  obtain ⟨dropped, hsplit, hold⟩ := h.recent
  refine ⟨?_, ?_, dropped, by rw [hsplit, List.append_assoc], hold⟩
  · rw [List.pairwise_append]
    exact ⟨h.sorted, List.pairwise_singleton _ _, by simpa using h.past⟩
  · intro t ht
    rcases List.mem_append.mp ht with hadmitted | hnew
    · exact h.past t hadmitted
    · rw [List.mem_singleton.mp hnew]

theorem trim (h : Tracks span admitted window now) : Tracks span admitted (live span now window) now := by
  obtain ⟨dropped, hsplit, hold⟩ := h.recent
  refine ⟨h.sorted, h.past, dropped ++ window.takeWhile (· ≤ now - span), ?_, ?_⟩
  · rw [hsplit, List.append_assoc, live, List.takeWhile_append_dropWhile]
  · intro t ht
    rcases List.mem_append.mp ht with hdropped | htaken
    · exact hold t hdropped
    · simpa using List.mem_takeWhile_imp htaken

theorem live_eq (h : Tracks span admitted window now) : live span now window = within span now admitted := by
  obtain ⟨dropped, hsplit, hold⟩ := h.recent
  have hsorted : window.Pairwise (· ≤ ·) := (List.pairwise_append.mp (hsplit ▸ h.sorted)).2.1
  rw [live_eq_within hsorted, hsplit, within_append, within_eq_nil hold, List.nil_append]

variable [IsOrderedAddMonoid τ]

theorem later {next : τ} (h : Tracks span admitted window now) (hle : now ≤ next) :
    Tracks span admitted window next := by
  obtain ⟨dropped, hsplit, hold⟩ := h.recent
  exact ⟨h.sorted, fun t ht => (h.past t ht).trans hle, dropped, hsplit,
    fun t ht => (hold t ht).trans (sub_le_sub_right hle span)⟩

/-- A time admitted while the window had room leaves every interval within the limit. -/
theorem sparse_push {limit : ℕ} (h : Tracks span admitted window now) (hsparse : Sparse limit span admitted)
    (hroom : (live span now window).length < limit) : Sparse limit span (admitted ++ [now]) := by
  intro start
  rw [List.filter_append, List.length_append]
  by_cases hin : start ≤ now ∧ now < start + span
  · -- Everything in an interval that reaches `now` is still in the window at `now`.
    have hsub : (admitted.filter fun t => start ≤ t ∧ t < start + span).length ≤ (within span now admitted).length := by
      rw [within]
      apply List.Sublist.length_le
      apply List.monotone_filter_right
      intro t ht
      simp only [decide_eq_true_eq] at ht ⊢
      exact (sub_lt_iff_lt_add.mpr hin.2).trans_le ht.1
    have hone : ([now].filter fun t => start ≤ t ∧ t < start + span).length = 1 := by simp [hin]
    rw [h.live_eq] at hroom
    omega
  · have hnone : ([now].filter fun t => start ≤ t ∧ t < start + span) = [] := by
      rw [List.filter_eq_nil_iff]
      intro t ht
      rw [List.mem_singleton.mp ht]
      simpa using hin
    rw [hnone]
    exact hsparse start

end Tracks

/-- Every key's window tracks the times admitted under that key, and these are sparse. -/
structure Kept {κ : Type*} (limit : ℕ) (span : τ) (admitted windows : κ → List τ) (now : τ) : Prop where
  tracks : ∀ k, Tracks span (admitted k) (windows k) now
  sparse : ∀ k, Sparse limit span (admitted k)

namespace Kept

variable {κ : Type*} {limit : ℕ} {span now : τ} {admitted windows : κ → List τ}

theorem start : Kept limit span (fun _ : κ => []) (fun _ => []) now :=
  ⟨fun _ => Tracks.nil, fun _ => Sparse.nil⟩

theorem later [IsOrderedAddMonoid τ] {next : τ} (h : Kept limit span admitted windows now) (hle : now ≤ next) :
    Kept limit span admitted windows next :=
  ⟨fun k => (h.tracks k).later hle, h.sparse⟩

variable [DecidableEq κ]

theorem trim (h : Kept limit span admitted windows now) (k : κ) :
    Kept limit span admitted (Function.update windows k (live span now (windows k))) now := by
  refine ⟨fun k' => ?_, h.sparse⟩
  by_cases hk : k' = k
  · subst hk
    rw [Function.update_self]
    exact (h.tracks k').trim
  · rw [Function.update_of_ne hk]
    exact h.tracks k'

theorem push [IsOrderedAddMonoid τ] (h : Kept limit span admitted windows now) (k : κ)
    (hroom : (live span now (windows k)).length < limit) :
    Kept limit span (Function.update admitted k (admitted k ++ [now]))
      (Function.update windows k (live span now (windows k) ++ [now])) now := by
  constructor
  · intro k'
    by_cases hk : k' = k
    · subst hk
      rw [Function.update_self, Function.update_self]
      exact (h.tracks k').trim.push
    · rw [Function.update_of_ne hk, Function.update_of_ne hk]
      exact h.tracks k'
  · intro k'
    by_cases hk : k' = k
    · subst hk
      rw [Function.update_self]
      exact (h.tracks k').sparse_push (h.sparse k') hroom
    · rw [Function.update_of_ne hk]
      exact h.sparse k'

end Kept

theorem live_live [IsOrderedAddMonoid τ] {span now later : τ} (h : now ≤ later) (window : List τ) :
    live span later (live span now window) = live span later window := by
  induction window with
  | nil => rfl
  | cons t rest ih =>
    by_cases hold : t ≤ now - span
    · have hlater : t ≤ later - span := hold.trans (sub_le_sub_right h span)
      rw [live, live, List.dropWhile_cons_of_pos (by simpa using hold), live,
        List.dropWhile_cons_of_pos (by simpa using hlater)]
      exact ih
    · have hself : live span now (t :: rest) = t :: rest := List.dropWhile_cons_of_neg (by simpa using hold)
      rw [hself]

end BotCord.Window
