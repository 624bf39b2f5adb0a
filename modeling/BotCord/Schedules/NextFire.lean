import BotCord.Foundation.Zone
import BotCord.Schedules.Schedule

/-!
# The next occurrence of a schedule

`compute_next_fire_at` over zones whose clocks are turned. Two aware times of one zone are compared by their wall clocks, and a candidate is a reading at its first occurrence.
-/

namespace BotCord.Schedules

abbrev ClockZone := Zone dayLength

/-- The database of zones. -/
def zoneInfos (zones : String → Option ClockZone) : Zones := fun timezone =>
  (zones timezone).map fun z => ⟨z.toLocal, z.toUtc⟩

structure Calendar where
  hour : Fin 24
  minute : Fin 60
  timezone : String
  weekdays : List (Fin 7)

def Schedule.calendar : Schedule → Option Calendar
  | .every _ => none
  | .daily hour minute timezone => some ⟨hour, minute, timezone, List.finRange 7⟩
  | .weekly hour minute timezone weekdays => some ⟨hour, minute, timezone, weekdays.val⟩

namespace Calendar

variable (c : Calendar)

/-- The reading is the time of day on a day with one of the weekdays. -/
def Matches (reading : ℤ) : Prop :=
  weekday (reading / dayLength) ∈ c.weekdays ∧ reading = candidate c.hour c.minute (reading / dayLength)
deriving Decidable

/-- The time lies between two occurrences of a scheduled reading. -/
def BetweenOccurrences (z : ClockZone) (base : Time) : Prop :=
  ∃ first second : ℤ, first ≤ base ∧ base < second ∧ z.toLocal first = z.toLocal second ∧ c.Matches (z.toLocal first)

/-- The time is after the base, shows a scheduled reading unless that is skipped, and no time between shows one. -/
structure NextOccurrence (z : ClockZone) (base time : Time) : Prop where
  later : base < time
  matching : ∃ reading, c.Matches reading ∧ time = z.toUtc reading ∧ (z.toLocal time = reading ∨ z.Skipped reading)
  none_between : ∀ other, base < other → other < time → ¬ c.Matches (z.toLocal other)

end Calendar

/-- The schedule is one in a zone of the database. -/
def Schedule.Valid (zones : String → Option ClockZone) (schedule : Schedule) : Prop :=
  ∀ timezone ∈ schedule.timezone, (zones timezone).isSome
deriving Decidable

/-- `compute_next_fire_at` returns the next occurrence. -/
def FiresNext (zones : String → Option ClockZone) (schedule : Schedule) (base : Time) : Prop :=
  ∃ time, computeNextFireAt (zoneInfos zones) schedule base = .ok time ∧ base < time ∧
    ∀ c ∈ schedule.calendar, ∃ z ∈ zones c.timezone, c.NextOccurrence z base time

theorem ediv_candidate (hour : Fin 24) (minute : Fin 60) (day : ℤ) : candidate hour minute day / dayLength = day := by
  have hhour := hour.isLt
  have hminute := minute.isLt
  simp only [candidate, dayLength, minuteLength]
  omega

theorem Calendar.Matches.add_le {c : Calendar} {reading other : ℤ} (h : c.Matches reading) (hother : c.Matches other)
    (hlt : reading < other) : reading + dayLength ≤ other := by
  have hfirst := h.2
  have hsecond := hother.2
  simp only [candidate, dayLength, minuteLength] at *
  omega

theorem nextCandidate_spec {c : Calendar} {localBase reading : ℤ}
    (h : nextCandidate c.hour c.minute c.weekdays localBase = some reading) :
    c.Matches reading ∧ localBase < reading ∧ ∀ other, c.Matches other → localBase < other → reading ≤ other := by
  obtain ⟨front, day, back, hdays, hday, hfront⟩ := List.findSome?_eq_some_iff.mp h
  obtain ⟨⟨hweekday, hlater⟩, hreading⟩ := Option.ite_none_right_eq_some.mp hday
  obtain rfl := Option.some.inj hreading
  refine ⟨⟨by rwa [ediv_candidate], by rw [ediv_candidate]⟩, hlater, fun other hother hlt => ?_⟩
  by_contra hsooner
  have hclock := hother.2
  set sooner := other / dayLength with hdef
  have hlt_day : sooner < day := by
    rw [hclock] at hsooner
    simp only [candidate, dayLength, minuteLength] at hsooner
    omega
  have hbase : localBase / dayLength ≤ sooner := Int.ediv_le_ediv (by decide) hlt.le
  have hmem : sooner ∈ front ++ day :: back := by
    rw [← hdays, List.mem_map]
    have hday_mem : day ∈ front ++ day :: back := List.mem_append_right _ List.mem_cons_self
    rw [← hdays, List.mem_map] at hday_mem
    obtain ⟨offset, hoffset, hsum⟩ := hday_mem
    have hrange := List.mem_range.mp hoffset
    refine ⟨(sooner - localBase / dayLength).toNat, List.mem_range.mpr (by omega), by omega⟩
  have hsorted : (front ++ day :: back).Pairwise (· < ·) := by
    rw [← hdays, List.pairwise_map]
    exact List.pairwise_lt_range.imp fun hlt => by omega
  have hmem_front : sooner ∈ front := by
    rcases List.mem_append.mp hmem with hmem | hmem
    · exact hmem
    · rcases List.mem_cons.mp hmem with heq | hmem
      · omega
      · have hle := (List.pairwise_cons.mp (List.pairwise_append.mp hsorted).2.1).1 sooner hmem
        omega
  have hnone := hfront sooner hmem_front
  rw [if_pos ⟨hother.1, by rwa [← hclock]⟩] at hnone
  cases hnone

section Occurrence

variable {c : Calendar} {z : ClockZone} {base : Time} {reading : ℤ}

/-- Outside of two occurrences of a reading, what is scheduled later is ahead of the clock. -/
theorem ahead_of_not_between (h : ¬ c.BetweenOccurrences z base) {time : Time} (hlater : base < time)
    (hmatches : c.Matches (z.toLocal time)) : z.toLocal base < z.toLocal time := by
  by_contra hle
  obtain ⟨earlier, hearlier, hsame⟩ := z.came_before hlater (not_lt.mp hle)
  exact h ⟨earlier, time, hearlier, hlater, hsame, hsame ▸ hmatches⟩

theorem nextOccurrence_of_not_between (h : ¬ c.BetweenOccurrences z base)
    (hnext : nextCandidate c.hour c.minute c.weekdays (z.toLocal base) = some reading) :
    c.NextOccurrence z base (z.toUtc reading) := by
  obtain ⟨hmatches, hahead, hfirst⟩ := nextCandidate_spec hnext
  rcases z.shown_or_skipped (by decide) reading with ⟨hshown, hleast⟩ | ⟨hskipped, turn, hturn, hless, hmore, hlow⟩
  · refine ⟨?_, ⟨reading, hmatches, rfl, .inl hshown⟩, fun other hlater hbefore hother => ?_⟩
    · by_contra hle
      obtain ⟨again, hagain, hsame⟩ := z.comes_again (not_lt.mp hle) hshown.ge hahead
      exact h ⟨_, again, not_lt.mp hle, hagain, hshown.trans hsame.symm, hshown.symm ▸ hmatches⟩
    · have hle := hleast other (hfirst _ hother (ahead_of_not_between h hlater hother))
      exact absurd hbefore (not_lt.mpr hle)
  · refine ⟨?_, ⟨reading, hmatches, rfl, .inr hskipped⟩, fun other hlater hbefore hother => ?_⟩
    · by_contra hle
      have hover := hmore base (hturn.trans (not_lt.mp hle))
      omega
    · have hle := hfirst _ hother (ahead_of_not_between h hlater hother)
      have hday := hmatches.add_le hother (lt_of_le_of_ne hle (hskipped other).symm)
      have hlow' := hlow other hbefore
      omega

theorem not_between_of_nextOccurrence
    (hnext : nextCandidate c.hour c.minute c.weekdays (z.toLocal base) = some reading)
    (h : c.NextOccurrence z base (z.toUtc reading)) : ¬ c.BetweenOccurrences z base := by
  rintro ⟨first, second, hfirst, hsecond, hsame, hscheduled⟩
  obtain ⟨hmatches, hahead, hleast⟩ := nextCandidate_spec hnext
  have hlater := h.later
  rcases z.shown_or_skipped (by decide) reading with ⟨hshown, hearliest⟩ | ⟨hskipped, turn, hturn, hless, hmore, -⟩
  all_goals rcases lt_or_ge (z.toLocal base) (z.toLocal first) with hlt | hge
  · -- the reading found has been shown before the base
    have hle := hearliest first (hleast _ hscheduled hlt)
    exact absurd hlater (not_lt.mpr (hle.trans hfirst))
  · -- the clock does not go back a day
    have hday := hscheduled.add_le hmatches (hge.trans_lt hahead)
    have hlate : z.toUtc reading ≤ second := by
      by_contra hearly
      exact h.none_between second hsecond (not_le.mp hearly) (hsame ▸ hscheduled)
    have hback := z.toLocal_lt_add (by decide) hlate
    omega
  · have hle := hleast _ hscheduled hlt
    have hover : turn ≤ first := by
      by_contra hearly
      have hlow := hless first (not_le.mp hearly)
      omega
    have hbase := hmore base (hover.trans hfirst)
    omega
  · have hlate : z.toUtc reading ≤ second := by
      by_contra hearly
      exact h.none_between second hsecond (not_le.mp hearly) (hsame ▸ hscheduled)
    have hover := hmore second (hturn.trans hlate)
    omega

end Occurrence

theorem computeNextFireAt_calendar {zones : Zones} {schedule : Schedule} {c : Calendar} (h : schedule.calendar = some c)
    (base : Time) : computeNextFireAt zones schedule base = nextOnCalendar zones c.hour c.minute c.timezone c.weekdays base := by
  cases schedule with
  | every => cases h
  | daily | weekly =>
    cases h
    rfl

theorem weekdays_ne_nil {schedule : Schedule} {c : Calendar} (h : schedule.calendar = some c) : c.weekdays ≠ [] := by
  cases schedule with
  | every => cases h
  | daily =>
    cases h
    exact List.cons_ne_nil _ _
  | weekly _ _ _ weekdays =>
    cases h
    exact weekdays.property.1

theorem timezone_calendar {schedule : Schedule} {c : Calendar} (h : schedule.calendar = some c) :
    schedule.timezone = some c.timezone := by
  cases schedule with
  | every => cases h
  | daily | weekly =>
    cases h
    rfl

/-- The base of a valid schedule gives the next occurrence exactly if it is not between two occurrences of a scheduled reading. -/
theorem firesNext_iff {zones : String → Option ClockZone} {schedule : Schedule} (base : Time) (hvalid : schedule.Valid zones) :
    FiresNext zones schedule base ↔
      ∀ c ∈ schedule.calendar, ∀ z ∈ zones c.timezone, ¬ c.BetweenOccurrences z base := by
  cases hcalendar : schedule.calendar with
  | none =>
    cases schedule with
    | every everyMs =>
      have hpositive : 0 < (everyMs.val : ℤ) := by
        have hmin : 5 * 60 * 1000 ≤ everyMs.val := everyMs.property.1
        omega
      have hlater : base < base + 1000 * (everyMs.val : ℕ) := by
        apply Int.lt_add_of_pos_right
        omega
      refine iff_of_true ⟨_, rfl, hlater, fun c hc => ?_⟩ fun c hc => ?_ <;> cases hc
    | daily | weekly => cases hcalendar
  | some c =>
    obtain ⟨z, hz⟩ := Option.isSome_iff_exists.mp (hvalid _ (timezone_calendar hcalendar))
    obtain ⟨reading, hreading⟩ :=
      exists_nextCandidate c.hour c.minute (weekdays_ne_nil hcalendar) (z.toLocal base)
    have hcomputed : computeNextFireAt (zoneInfos zones) schedule base = .ok (z.toUtc reading) := by
      rw [computeNextFireAt_calendar hcalendar]
      simp only [nextOnCalendar, zoneInfos, hz, Option.map_some, hreading]
    have hbetween : (∀ c' ∈ some c, ∀ z' ∈ zones c'.timezone, ¬ c'.BetweenOccurrences z' base) ↔
        ¬ c.BetweenOccurrences z base := by
      simp [hz]
    rw [hbetween]
    constructor
    · rintro ⟨time, htime, -, hnext⟩
      obtain rfl := Except.ok.inj (hcomputed.symm.trans htime)
      obtain ⟨z', hz', hnext⟩ := hnext c hcalendar
      obtain rfl := Option.some.inj (hz.symm.trans hz')
      exact not_between_of_nextOccurrence hreading hnext
    · intro hnot
      have hnext := nextOccurrence_of_not_between hnot hreading
      refine ⟨_, hcomputed, hnext.later, fun c' hc' => ?_⟩
      obtain rfl := Option.some.inj (hcalendar.symm.trans hc')
      exact ⟨z, hz, hnext⟩

def seconds (n : ℤ) : Time := n * 1000000

/-- The clock is turned forward on the eighth of March at 7:00 UTC, and back on the first of November at 6:00 UTC. -/
def newYork : ClockZone where
  offset := seconds (-5 * 3600)
  transitions := [⟨seconds 1772953200, seconds (-4 * 3600)⟩, ⟨seconds 1793512800, seconds (-5 * 3600)⟩]
  spaced := by decide

def oneZone (timezone : String) : Option ClockZone := if timezone = "America/New_York" then some newYork else none

/-- At 1:50 of the day on which 2:30 is skipped, the next occurrence is an hour after 1:30. -/
theorem firesNext_iff_skipped : computeNextFireAt (zoneInfos oneZone) (.daily 2 30 "America/New_York") (seconds 1772952600) =
    .ok (seconds 1772955000) ∧ FiresNext oneZone (.daily 2 30 "America/New_York") (seconds 1772952600) := by
  refine ⟨by decide +kernel, (firesNext_iff _ (by decide)).mpr fun c _ z hz => ?_⟩
  obtain ⟨-, hzone⟩ := Option.ite_none_right_eq_some.mp hz
  obtain rfl := Option.some.inj hzone
  rintro ⟨first, second, hfirst, hsecond, hsame, -⟩
  have hbefore : first ≤ (1772952600000000 : ℤ) := hfirst
  have hafter : (1772952600000000 : ℤ) < second := hsecond
  simp only [Zone.toLocal, Transition.toLocal, Transition.offsetAt, newYork, seconds] at hsame
  split_ifs at hsame <;> omega

/-- At 1:10 after the clock was turned back, a schedule for 1:30 is said to fire next at 1:30 of before, 40 minutes ago. -/
theorem fires_in_the_past : ¬ ∀ (zones : String → Option ClockZone) (schedule : Schedule) (base : Time), schedule.Valid zones →
    FiresNext zones schedule base := by
  intro hclaim
  obtain ⟨time, htime, hlater, -⟩ :=
    hclaim oneZone (.daily 1 30 "America/New_York") (seconds 1793513400) (by decide)
  have hcomputed : computeNextFireAt (zoneInfos oneZone) (.daily 1 30 "America/New_York") (seconds 1793513400) =
      .ok (seconds 1793511000) := by
    decide +kernel
  obtain rfl := Except.ok.inj (hcomputed.symm.trans htime)
  exact absurd hlater (by decide)

end BotCord.Schedules
