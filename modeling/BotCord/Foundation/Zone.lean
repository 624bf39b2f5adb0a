import Mathlib.Algebra.Order.Group.Int
import Mathlib.Tactic.Basic

/-!
# Wall clocks

A time zone as its transitions. At each the wall clock is turned forward, so that some readings are skipped, or back, so that some come twice. `toUtc` takes a reading at its first occurrence, and a skipped one as the clock that was not turned would show it. Everything proved about a zone is proved of a list of transitions and the offset before it, by induction on the list.
-/

namespace BotCord

structure Transition where
  time : ℤ
  offset : ℤ

namespace Transition

/-- How far the clock is turned. -/
def shift (before after : ℤ) : ℤ := max before after - min before after

/-- The clock is turned by at most a day, and two transitions are as far apart as both turn it together. -/
def Spaced (day : ℤ) : ℤ → List Transition → Prop
  | _, [] => True
  | before, t :: rest =>
    shift before t.offset ≤ day ∧
      (∀ next ∈ rest.head?, shift before t.offset + shift t.offset next.offset ≤ next.time - t.time) ∧ Spaced day t.offset rest

instance decidableSpaced (day : ℤ) : ∀ before transitions, Decidable (Spaced day before transitions)
  | _, [] => isTrue trivial
  | _, t :: rest =>
    have := decidableSpaced day t.offset rest
    inferInstanceAs (Decidable (_ ∧ (∀ next ∈ rest.head?, _) ∧ _))

def offsetAt : ℤ → List Transition → ℤ → ℤ
  | before, [], _ => before
  | before, t :: rest, time => if time < t.time then before else offsetAt t.offset rest time

/-- The offset at the first occurrence of a reading, and of a skipped one that before the transition. -/
def offsetOf : ℤ → List Transition → ℤ → ℤ
  | before, [], _ => before
  | before, t :: rest, reading => if reading < t.time + max before t.offset then before else offsetOf t.offset rest reading

def toLocal (before : ℤ) (transitions : List Transition) (time : ℤ) : ℤ := time + offsetAt before transitions time

def toUtc (before : ℤ) (transitions : List Transition) (reading : ℤ) : ℤ := reading - offsetOf before transitions reading

variable {day before time first second reading : ℤ} {t next : Transition} {transitions rest : List Transition}

theorem toLocal_of_lt (h : time < t.time) : toLocal before (t :: rest) time = time + before := by
  rw [toLocal, offsetAt, if_pos h]

theorem toLocal_of_le (h : t.time ≤ time) : toLocal before (t :: rest) time = toLocal t.offset rest time := by
  rw [toLocal, offsetAt, if_neg (not_lt.mpr h), toLocal]

theorem toLocal_of_lt_head (h : ∀ next ∈ transitions.head?, time < next.time) :
    toLocal before transitions time = time + before := by
  cases transitions with
  | nil => rfl
  | cons next rest => exact toLocal_of_lt (h next rfl)

theorem toUtc_of_lt (h : reading < t.time + max before t.offset) : toUtc before (t :: rest) reading = reading - before := by
  rw [toUtc, offsetOf, if_pos h]

theorem toUtc_of_le (h : t.time + max before t.offset ≤ reading) :
    toUtc before (t :: rest) reading = toUtc t.offset rest reading := by
  rw [toUtc, offsetOf, if_neg (not_lt.mpr h), toUtc]

namespace Spaced

theorem time_le (h : Spaced day before (t :: rest)) (hnext : next ∈ rest.head?) : t.time ≤ next.time := by
  have hapart := h.2.1 next hnext
  simp only [shift] at hapart
  omega

/-- What a transition turns back or skips is over before the next one turns the clock. -/
theorem apart (h : Spaced day before (t :: rest)) (hnext : next ∈ rest.head?) :
    t.time + max before t.offset ≤ next.time + min t.offset next.offset := by
  have hapart := h.2.1 next hnext
  simp only [shift] at hapart
  omega

theorem le_toLocal (h : Spaced day before (t :: rest)) (htime : t.time ≤ time) :
    t.time + t.offset ≤ toLocal t.offset rest time := by
  induction rest generalizing before t with
  | nil =>
    rw [toLocal, offsetAt]
    omega
  | cons next rest ih =>
    have hapart := h.apart rfl
    by_cases hlt : time < next.time
    · rw [toLocal_of_lt hlt]
      omega
    · rw [toLocal_of_le (not_lt.mp hlt)]
      have hlater := ih h.2.2 (not_lt.mp hlt)
      omega

/-- What the clock shows after the next transition, it has not shown around this one. -/
theorem le_toLocal_of_next (h : Spaced day before (t :: rest)) (hnext : next ∈ rest.head?) (htime : next.time ≤ time) :
    t.time + max before t.offset ≤ toLocal t.offset rest time := by
  cases rest with
  | nil => cases hnext
  | cons next' rest =>
    cases hnext
    rw [toLocal_of_le htime]
    have hapart := h.apart rfl
    have hlater := h.2.2.le_toLocal htime
    omega

theorem lt_next (h : Spaced day before (t :: rest)) (hlow : toLocal t.offset rest time < t.time + max before t.offset) :
    ∀ next ∈ rest.head?, time < next.time := by
  intro next hnext
  by_contra hlate
  have hle := h.le_toLocal_of_next hnext (not_lt.mp hlate)
  omega

theorem toLocal_lt_add (hday : 0 < day) (h : Spaced day before transitions) (hle : first ≤ second) :
    toLocal before transitions first < toLocal before transitions second + day := by
  induction transitions generalizing before with
  | nil =>
    simp only [toLocal, offsetAt]
    omega
  | cons t rest ih =>
    by_cases hsecond : second < t.time
    · rw [toLocal_of_lt hsecond, toLocal_of_lt (by omega)]
      omega
    · rw [toLocal_of_le (not_lt.mp hsecond)]
      by_cases hfirst : first < t.time
      · rw [toLocal_of_lt hfirst]
        have hlow := h.le_toLocal (not_lt.mp hsecond)
        have hshift := h.1
        simp only [shift] at hshift
        omega
      · rw [toLocal_of_le (not_lt.mp hfirst)]
        exact ih h.2.2

theorem comes_again (h : Spaced day before transitions) (hle : first ≤ second)
    (hfirst : reading ≤ toLocal before transitions first) (hsecond : toLocal before transitions second < reading) :
    ∃ later, second < later ∧ toLocal before transitions later = reading := by
  induction transitions generalizing before with
  | nil =>
    simp only [toLocal, offsetAt] at hfirst hsecond
    omega
  | cons t rest ih =>
    by_cases hbefore : second < t.time
    · rw [toLocal_of_lt hbefore] at hsecond
      rw [toLocal_of_lt (by omega)] at hfirst
      omega
    · rw [toLocal_of_le (not_lt.mp hbefore)] at hsecond
      by_cases hturned : first < t.time
      · rw [toLocal_of_lt hturned] at hfirst
        have hlow : toLocal t.offset rest second < t.time + max before t.offset := by omega
        have hshown : toLocal t.offset rest second = second + t.offset := toLocal_of_lt_head (h.lt_next hlow)
        rw [hshown] at hsecond
        refine ⟨reading - t.offset, by omega, ?_⟩
        rw [toLocal_of_le (by omega), toLocal_of_lt_head fun next hnext => ?_]
        · omega
        · have hapart := h.apart hnext
          omega
      · rw [toLocal_of_le (not_lt.mp hturned)] at hfirst
        obtain ⟨later, hlater, hreading⟩ := ih h.2.2 hfirst hsecond
        exact ⟨later, hlater, (toLocal_of_le (by omega)).trans hreading⟩

theorem came_before (h : Spaced day before transitions) (hlt : first < second)
    (hle : toLocal before transitions second ≤ toLocal before transitions first) :
    ∃ earlier, earlier ≤ first ∧ toLocal before transitions earlier = toLocal before transitions second := by
  induction transitions generalizing before with
  | nil =>
    simp only [toLocal, offsetAt] at hle
    omega
  | cons t rest ih =>
    by_cases hbefore : second < t.time
    · rw [toLocal_of_lt hbefore, toLocal_of_lt (by omega)] at hle
      omega
    · rw [toLocal_of_le (not_lt.mp hbefore)] at hle ⊢
      by_cases hturned : first < t.time
      · rw [toLocal_of_lt hturned] at hle
        have hlow : toLocal t.offset rest second < t.time + max before t.offset := by omega
        have hshown : toLocal t.offset rest second = second + t.offset := toLocal_of_lt_head (h.lt_next hlow)
        rw [hshown] at hle ⊢
        refine ⟨second + t.offset - before, by omega, ?_⟩
        rw [toLocal_of_lt (by omega)]
        omega
      · rw [toLocal_of_le (not_lt.mp hturned)] at hle
        obtain ⟨earlier, hearlier, hreading⟩ := ih h.2.2 hle
        have hlow := h.le_toLocal (not_lt.mp hbefore)
        refine ⟨earlier, hearlier, ?_⟩
        by_cases hold : earlier < t.time
        · rw [toLocal_of_lt_head fun next hnext => ?_] at hreading
          · omega
          · exact hold.trans_le (h.time_le hnext)
        · rw [toLocal_of_le (not_lt.mp hold)]
          exact hreading

/-- The first time at which the clock shows at least the reading, which it shows then. -/
def Occurs (before : ℤ) (transitions : List Transition) (reading : ℤ) : Prop :=
  toLocal before transitions (toUtc before transitions reading) = reading ∧
    ∀ time, reading ≤ toLocal before transitions time → toUtc before transitions reading ≤ time

def TurnedOver (day before : ℤ) (transitions : List Transition) (reading : ℤ) : Prop :=
  ∃ turn, turn ≤ toUtc before transitions reading ∧ (∀ time < turn, toLocal before transitions time < reading) ∧
    (∀ time, turn ≤ time → reading < toLocal before transitions time) ∧
    ∀ time < toUtc before transitions reading, toLocal before transitions time < reading + day

theorem occurs_or_turnedOver (hday : 0 < day) (h : Spaced day before transitions) (reading : ℤ) :
    Occurs before transitions reading ∨ TurnedOver day before transitions reading := by
  induction transitions generalizing before with
  | nil =>
    refine .inl ⟨?_, fun time hle => ?_⟩
    · simp only [toLocal, toUtc, offsetAt, offsetOf]
      omega
    · simp only [toLocal, toUtc, offsetAt, offsetOf] at hle ⊢
      omega
  | cons t rest ih =>
    by_cases hearly : reading < t.time + max before t.offset
    · rw [Occurs, TurnedOver, toUtc_of_lt hearly]
      by_cases hshown : reading < t.time + before
      · refine .inl ⟨?_, fun time hle => ?_⟩
        · rw [toLocal_of_lt (by omega)]
          omega
        · by_cases hlt : time < t.time
          · rw [toLocal_of_lt hlt] at hle
            omega
          · omega
      · refine .inr ⟨t.time, by omega, fun time hlt => ?_, fun time hle => ?_, fun time hlt => ?_⟩
        · rw [toLocal_of_lt hlt]
          omega
        · rw [toLocal_of_le hle]
          have hlow := h.le_toLocal hle
          omega
        · by_cases hbefore : time < t.time
          · rw [toLocal_of_lt hbefore]
            omega
          · have hshift := h.1
            simp only [shift] at hshift
            rw [toLocal_of_le (not_lt.mp hbefore), toLocal_of_lt_head fun next hnext => ?_]
            · omega
            · have hapart := h.2.1 next hnext
              simp only [shift] at hapart
              omega
    · rw [Occurs, TurnedOver, toUtc_of_le (not_lt.mp hearly)]
      -- what the rest of the list says of a time before the transition is too low to matter
      have hbelow : ∀ time < t.time, toLocal before (t :: rest) time < reading ∧ toLocal t.offset rest time < reading := by
        intro time hlt
        rw [toLocal_of_lt hlt, toLocal_of_lt_head fun next hnext => hlt.trans_le (h.time_le hnext)]
        omega
      rcases ih h.2.2 with ⟨hshown, hfirst⟩ | ⟨turn, hturn, hless, hmore, hday'⟩
      · refine .inl ⟨?_, fun time hle => ?_⟩
        · rw [toLocal_of_le, hshown]
          by_contra hlt
          have hlow := (hbelow _ (not_le.mp hlt)).2
          omega
        · by_cases hlt : time < t.time
          · have hlow := (hbelow time hlt).1
            omega
          · exact hfirst time (toLocal_of_le (not_lt.mp hlt) ▸ hle)
      · have hlate : t.time ≤ turn := by
          by_contra hlt
          have hlow := (hbelow turn (not_le.mp hlt)).2
          have hhigh := hmore turn le_rfl
          omega
        refine .inr ⟨turn, hturn, fun time hlt => ?_, fun time hle => ?_, fun time hlt => ?_⟩
        · by_cases hbefore : time < t.time
          · exact (hbelow time hbefore).1
          · rw [toLocal_of_le (not_lt.mp hbefore)]
            exact hless time hlt
        · rw [toLocal_of_le (hlate.trans hle)]
          exact hmore time hle
        · by_cases hbefore : time < t.time
          · have hlow := (hbelow time hbefore).1
            omega
          · rw [toLocal_of_le (not_lt.mp hbefore)]
            exact hday' time hlt

end Spaced

end Transition

/-- A zone, for transitions by at most `day`. -/
structure Zone (day : ℤ) where
  offset : ℤ
  transitions : List Transition
  spaced : Transition.Spaced day offset transitions

namespace Zone

variable {day : ℤ} (z : Zone day) {first second : ℤ} {reading : ℤ}

def toLocal (time : ℤ) : ℤ := Transition.toLocal z.offset z.transitions time

def toUtc (reading : ℤ) : ℤ := Transition.toUtc z.offset z.transitions reading

def Skipped (reading : ℤ) : Prop := ∀ time, z.toLocal time ≠ reading

theorem toLocal_lt_add (hday : 0 < day) (hle : first ≤ second) : z.toLocal first < z.toLocal second + day :=
  z.spaced.toLocal_lt_add hday hle

theorem comes_again (hle : first ≤ second) (hfirst : reading ≤ z.toLocal first) (hsecond : z.toLocal second < reading) :
    ∃ later, second < later ∧ z.toLocal later = reading :=
  z.spaced.comes_again hle hfirst hsecond

theorem came_before (hlt : first < second) (hle : z.toLocal second ≤ z.toLocal first) :
    ∃ earlier, earlier ≤ first ∧ z.toLocal earlier = z.toLocal second :=
  z.spaced.came_before hlt hle

/-- A reading is shown, for the first time at its `toUtc`, or skipped, when the clock is turned not after its `toUtc`. -/
theorem shown_or_skipped (hday : 0 < day) (reading : ℤ) :
    (z.toLocal (z.toUtc reading) = reading ∧ ∀ time, reading ≤ z.toLocal time → z.toUtc reading ≤ time) ∨
      z.Skipped reading ∧ ∃ turn, turn ≤ z.toUtc reading ∧ (∀ time < turn, z.toLocal time < reading) ∧
        (∀ time, turn ≤ time → reading < z.toLocal time) ∧ ∀ time < z.toUtc reading, z.toLocal time < reading + day := by
  rcases z.spaced.occurs_or_turnedOver hday reading with hshown | ⟨turn, hturn, hless, hmore, hlow⟩
  · exact .inl hshown
  · refine .inr ⟨fun time hshown => ?_, turn, hturn, hless, hmore, hlow⟩
    rcases lt_or_ge time turn with hlt | hle
    · exact (hless time hlt).ne hshown
    · exact (hmore time hle).ne' hshown

end Zone

end BotCord
