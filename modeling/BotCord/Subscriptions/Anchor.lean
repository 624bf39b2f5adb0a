import BotCord.Subscriptions.Service

/-!
# Monthly periods one after another

Each period starts from the end of the one before it, so a day that one month cut short stays cut short in the months that follow. After any number of months the day is the first one clamped to every month on the way.
-/

namespace BotCord.Subscriptions

/-- A monthly period advanced that many times. -/
def advanceMonths (anchor : DateTime) : ℕ → Except Error DateTime
  | 0 => .ok anchor
  | n + 1 => advanceMonths anchor n >>= fun periodEnd => advancePeriod periodEnd .month

/-- The anchor's day clamped to each of the months after it, up to the last. -/
def clampedDay (anchor : DateTime) : ℕ → ℕ
  | 0 => anchor.day
  | n + 1 => min (clampedDay anchor n) (anchor.monthOf.shift (n + 1)).days

def shifted (anchor : DateTime) (n : ℕ) : DateTime := anchor.onDay (anchor.monthOf.shift n) (clampedDay anchor n)

/-- The anchor itself that many calendar months later, its day clamped to that month only. -/
def anchored (anchor : DateTime) (n : ℕ) : DateTime :=
  anchor.onDay (anchor.monthOf.shift n) (min anchor.day (anchor.monthOf.shift n).days)

variable {anchor : DateTime}

/-- The clamped day is the anchor's or the length of a month on the way, whichever is least. -/
theorem le_clampedDay_iff (day n : ℕ) :
    day ≤ clampedDay anchor n ↔ day ≤ anchor.day ∧ ∀ k, 1 ≤ k → k ≤ n → day ≤ (anchor.monthOf.shift k).days := by
  induction n with
  | zero =>
    rw [clampedDay]
    constructor
    · intro h
      exact ⟨h, fun k hfirst hlast => by omega⟩
    · exact And.left
  | succ n ih =>
    rw [clampedDay, le_min_iff, ih]
    constructor
    · intro ⟨⟨hday, hmonths⟩, hmonth⟩
      refine ⟨hday, fun k hfirst hlast => ?_⟩
      rcases Nat.le_succ_iff.mp hlast with hlast | rfl
      · exact hmonths k hfirst hlast
      · exact hmonth
    · intro ⟨hday, hmonths⟩
      exact ⟨⟨hday, fun k hfirst hlast => hmonths k hfirst (by omega)⟩, hmonths (n + 1) (by omega) le_rfl⟩

theorem shifted_zero (h : anchor.Valid) : shifted anchor 0 = anchor := by
  rw [shifted, Month.shift_zero h.firstMonth h.lastMonth]
  rfl

theorem advancePeriod_shifted (n : ℕ) :
    advancePeriod (shifted anchor n) .month =
      if (anchor.monthOf.shift (n + 1)).year ≤ maxYear then .ok (shifted anchor (n + 1))
      else .error .yearOutOfRange := by
  have hnext : shifted anchor (n + 1) =
      (shifted anchor n).onDay (anchor.monthOf.shift n).next
        (min (shifted anchor n).day (anchor.monthOf.shift n).next.days) := by
    rw [shifted, clampedDay, Month.shift_succ]
    rfl
  rw [hnext, Month.shift_succ]
  rfl

theorem advanceMonths_eq (h : anchor.Valid) (n : ℕ) :
    advanceMonths anchor n =
      if (anchor.monthOf.shift n).year ≤ maxYear then .ok (shifted anchor n) else .error .yearOutOfRange := by
  induction n with
  | zero =>
    have hyear : anchor.monthOf.year ≤ maxYear := h.year
    rw [advanceMonths, shifted_zero h, Month.shift_zero h.firstMonth h.lastMonth, if_pos hyear]
  | succ n ih =>
    have hmono := anchor.monthOf.year_shift_mono (Nat.le_succ n)
    rw [advanceMonths, ih]
    by_cases hyear : (anchor.monthOf.shift n).year ≤ maxYear
    · rw [if_pos hyear]
      exact advancePeriod_shifted n
    · rw [if_neg hyear, if_neg fun hnext => hyear (hmono.trans hnext)]
      rfl

/-- What is left is the anchor's own day, clamped to the last month, if no month on the way is shorter than that. -/
theorem shifted_eq_anchored_iff (h : anchor.Valid) (n : ℕ) :
    shifted anchor n = anchored anchor n ↔
      ∀ k, 1 ≤ k → k ≤ n → min anchor.day (anchor.monthOf.shift n).days ≤ (anchor.monthOf.shift k).days := by
  have hle : clampedDay anchor n ≤ min anchor.day (anchor.monthOf.shift n).days := by
    obtain ⟨hday, hmonths⟩ := (le_clampedDay_iff (clampedDay anchor n) n).mp le_rfl
    refine le_min hday ?_
    cases n with
    | zero =>
      rw [Month.shift_zero h.firstMonth h.lastMonth]
      exact hday.trans h.lastDay
    | succ n => exact hmonths (n + 1) (by omega) le_rfl
  have hday : shifted anchor n = anchored anchor n ↔
      min anchor.day (anchor.monthOf.shift n).days ≤ clampedDay anchor n := by
    rw [shifted, anchored]
    constructor
    · intro heq
      exact (congrArg DateTime.day heq).ge
    · intro hge
      rw [le_antisymm hle hge]
  rw [hday, le_clampedDay_iff]
  exact and_iff_right (min_le_left _ _)

/-- A monthly period advanced any number of times keeps the time of day and ends that many months later on the anchor's day clamped to each month on the way, and fails past the last year. It is the anchor's day clamped to the last month alone exactly when no month on the way is shorter than that. -/
theorem advanceMonths_clamped (h : anchor.Valid) (n : ℕ) :
    (advanceMonths anchor n =
      if (anchor.monthOf.shift n).year ≤ maxYear then .ok (anchor.onDay (anchor.monthOf.shift n) (clampedDay anchor n))
      else .error .yearOutOfRange) ∧
    ((anchor.monthOf.shift n).year ≤ maxYear →
      (advanceMonths anchor n = .ok (anchored anchor n) ↔
        ∀ k, 1 ≤ k → k ≤ n → min anchor.day (anchor.monthOf.shift n).days ≤ (anchor.monthOf.shift k).days)) := by
  refine ⟨advanceMonths_eq h n, fun hyear => ?_⟩
  rw [advanceMonths_eq h, if_pos hyear, Except.ok.injEq]
  exact shifted_eq_anchored_iff h n

/-- The last day of January. -/
def endOfJanuary : DateTime := { year := 2026, month := 1, day := 31, hour := 9 }

theorem endOfJanuary_valid : endOfJanuary.Valid :=
  { firstMonth := by decide, lastMonth := by decide, firstDay := by decide, lastDay := by decide, year := by decide }

/-- Two months after the end of January. -/
theorem advanceMonths_clamped_march :
    endOfJanuary.Valid ∧
      (advanceMonths endOfJanuary 2 =
        if (endOfJanuary.monthOf.shift 2).year ≤ maxYear then
          .ok (endOfJanuary.onDay (endOfJanuary.monthOf.shift 2) (clampedDay endOfJanuary 2))
        else .error .yearOutOfRange) ∧
      ((endOfJanuary.monthOf.shift 2).year ≤ maxYear →
        (advanceMonths endOfJanuary 2 = .ok (anchored endOfJanuary 2) ↔ ∀ k, 1 ≤ k → k ≤ 2 →
          min endOfJanuary.day (endOfJanuary.monthOf.shift 2).days ≤ (endOfJanuary.monthOf.shift k).days)) :=
  ⟨endOfJanuary_valid, advanceMonths_clamped endOfJanuary_valid 2⟩

/-- February cuts the day to the 28th, and March starts from there. -/
theorem march_after_february :
    advanceMonths endOfJanuary 2 = .ok { year := 2026, month := 3, day := 28, hour := 9 } ∧
      anchored endOfJanuary 2 = { year := 2026, month := 3, day := 31, hour := 9 } := by
  constructor <;> rfl

end BotCord.Subscriptions
