import Mathlib.Algebra.Order.Group.Int
import Mathlib.Data.Int.ModEq
import Mathlib.Data.List.FinRange

/-!
# Schedules and their next firing

The validated `schedule_json` of `hub/services/agent_schedules.py` and `compute_next_fire_at`. Times are microseconds: of UTC, or of a wall clock for local ones. What the time zone database says is an argument; a wall clock time is taken at its first occurrence, as the code builds its candidates.
-/

namespace BotCord.Schedules

abbrev Time := ℤ

structure HttpError where
  status : ℕ
  detail : String
deriving DecidableEq

/-- One zone: the wall clock at a time, and the time of a wall clock reading. -/
structure ZoneInfo where
  toLocal : Time → ℤ
  toUtc : ℤ → Time

abbrev Zones := String → Option ZoneInfo

def minEveryMs : ℕ := 5 * 60 * 1000
def maxEveryMs : ℕ := 30 * 24 * 60 * 60 * 1000

/-- An interval that `validate_schedule_json` lets pass. -/
abbrev EveryMs := { ms : ℕ // minEveryMs ≤ ms ∧ ms ≤ maxEveryMs }

/-- Weekdays as they are stored: at least one, sorted, none twice. Monday is 0. -/
abbrev Weekdays := { days : List (Fin 7) // days ≠ [] ∧ days.Pairwise (· < ·) }

inductive Schedule
  | every (everyMs : EveryMs)
  | daily (hour : Fin 24) (minute : Fin 60) (timezone : String)
  | weekly (hour : Fin 24) (minute : Fin 60) (timezone : String) (weekdays : Weekdays)
deriving DecidableEq

def minuteLength : ℤ := 60 * 1000000
def dayLength : ℤ := 24 * 60 * minuteLength

/-- The weekday of a day, counted from the first of January 1970, which was a Thursday. -/
def weekday (day : ℤ) : Fin 7 := ⟨((day + 3) % 7).toNat, by omega⟩

def candidate (hour : Fin 24) (minute : Fin 60) (day : ℤ) : ℤ := day * dayLength + (hour * 60 + minute : ℕ) * minuteLength

/-- The first of the next eight days that is allowed and whose reading is still to come. -/
def nextCandidate (hour : Fin 24) (minute : Fin 60) (allowed : List (Fin 7)) (localBase : ℤ) : Option ℤ :=
  ((List.range 8).map fun offset => localBase / dayLength + (offset : ℕ)).findSome? fun day =>
    if weekday day ∈ allowed ∧ localBase < candidate hour minute day then some (candidate hour minute day) else none

def nextOnCalendar (zones : Zones) (hour : Fin 24) (minute : Fin 60) (timezone : String) (allowed : List (Fin 7))
    (base : Time) : Except HttpError Time :=
  match zones timezone with
  | none => .error ⟨400, "calendar_timezone_invalid"⟩
  | some tz =>
    match nextCandidate hour minute allowed (tz.toLocal base) with
    | some reading => .ok (tz.toUtc reading)
    | none => .error ⟨400, "calendar_next_fire_unavailable"⟩

def computeNextFireAt (zones : Zones) (schedule : Schedule) (base : Time) : Except HttpError Time :=
  match schedule with
  | .every everyMs => .ok (base + 1000 * (everyMs.val : ℕ))
  | .daily hour minute timezone => nextOnCalendar zones hour minute timezone (List.finRange 7) base
  | .weekly hour minute timezone weekdays => nextOnCalendar zones hour minute timezone weekdays.val base

theorem weekday_add_seven (day : ℤ) : weekday (day + 7) = weekday day := by
  apply Fin.ext
  simp only [weekday]
  omega

theorem exists_weekday (start : ℤ) (target : Fin 7) : ∃ offset : ℕ, offset < 7 ∧ weekday (start + offset) = target := by
  refine ⟨((target.val + 7 - ((start + 3) % 7).toNat) % 7), Nat.mod_lt _ (by omega), ?_⟩
  apply Fin.ext
  have htarget := target.isLt
  simp only [weekday]
  omega

theorem lt_candidate (hour : Fin 24) (minute : Fin 60) {localBase day : ℤ} (h : localBase / dayLength < day) :
    localBase < candidate hour minute day := by
  have hday : localBase < day * dayLength := (Int.ediv_lt_iff_lt_mul (by decide)).mp h
  have hclock : 0 ≤ (hour * 60 + minute : ℕ) * minuteLength := by
    rw [minuteLength]
    omega
  rw [candidate]
  omega

theorem exists_nextCandidate (hour : Fin 24) (minute : Fin 60) {allowed : List (Fin 7)} (hallowed : allowed ≠ [])
    (localBase : ℤ) : ∃ reading, nextCandidate hour minute allowed localBase = some reading := by
  obtain ⟨target, htarget⟩ := List.exists_mem_of_ne_nil allowed hallowed
  obtain ⟨offset, hoffset, hday⟩ := exists_weekday (localBase / dayLength) target
  rw [← Option.isSome_iff_exists, nextCandidate, List.findSome?_isSome_iff]
  -- today's reading may be over, and then the one a week from now is to come
  by_cases hfirst : offset = 0
  · refine ⟨localBase / dayLength + (7 : ℕ), List.mem_map.mpr ⟨7, by simp, rfl⟩, ?_⟩
    rw [if_pos]
    · rfl
    · refine ⟨?_, lt_candidate hour minute (by omega)⟩
      have htoday : weekday (localBase / dayLength) = target := by simpa [hfirst] using hday
      rw [Nat.cast_ofNat, weekday_add_seven, htoday]
      exact htarget
  · refine ⟨localBase / dayLength + offset, List.mem_map.mpr ⟨offset, by simp; omega, rfl⟩, ?_⟩
    rw [if_pos ⟨hday ▸ htarget, lt_candidate hour minute (by omega)⟩]
    rfl

def Schedule.timezone : Schedule → Option String
  | .every _ => none
  | .daily _ _ timezone | .weekly _ _ timezone _ => some timezone

theorem exists_computeNextFireAt {zones : Zones} {schedule : Schedule} (base : Time)
    (hzone : ∀ timezone ∈ schedule.timezone, (zones timezone).isSome) :
    ∃ time, computeNextFireAt zones schedule base = .ok time := by
  have hcalendar : ∀ (hour : Fin 24) (minute : Fin 60) (timezone : String) (allowed : List (Fin 7)), allowed ≠ [] →
      (zones timezone).isSome → ∃ time, nextOnCalendar zones hour minute timezone allowed base = .ok time := by
    intro hour minute timezone allowed hallowed hknown
    obtain ⟨tz, htz⟩ := Option.isSome_iff_exists.mp hknown
    obtain ⟨reading, hreading⟩ := exists_nextCandidate hour minute hallowed (tz.toLocal base)
    exact ⟨tz.toUtc reading, by simp only [nextOnCalendar, htz, hreading]⟩
  cases schedule with
  | every everyMs => exact ⟨_, rfl⟩
  | daily hour minute timezone => exact hcalendar hour minute timezone _ (by decide) (hzone timezone rfl)
  | weekly hour minute timezone weekdays =>
    exact hcalendar hour minute timezone _ weekdays.property.1 (hzone timezone rfl)

theorem exists_computeNextFireAt_utc : ∃ time, computeNextFireAt (fun _ => some ⟨id, id⟩) (.daily 9 30 "UTC") 0 = .ok time :=
  exists_computeNextFireAt 0 fun _ _ => rfl

end BotCord.Schedules
