import Mathlib.Algebra.Order.Group.Nat

/-!
# UTC dates and times

An aware UTC `datetime` field by field: its order, the calendar arithmetic done on it, and its ISO text.
-/

namespace BotCord

structure DateTime where
  year : ℕ
  month : ℕ
  day : ℕ
  hour : ℕ := 0
  minute : ℕ := 0
  second : ℕ := 0
  microsecond : ℕ := 0
deriving DecidableEq

structure Month where
  year : ℕ
  month : ℕ
deriving DecidableEq

def maxYear : ℕ := 9999

def DateTime.monthOf (t : DateTime) : Month := ⟨t.year, t.month⟩

def Month.next (m : Month) : Month := if m.month = 12 then ⟨m.year + 1, 1⟩ else ⟨m.year, m.month + 1⟩

def Month.LeapYear (m : Month) : Prop := 4 ∣ m.year ∧ (¬ 100 ∣ m.year ∨ 400 ∣ m.year)
deriving Decidable

def Month.days (m : Month) : ℕ :=
  match m.month with
  | 2 => if m.LeapYear then 29 else 28
  | 4 | 6 | 9 | 11 => 30
  | _ => 31

/-- The month that many months later. -/
def Month.shift (m : Month) (n : ℕ) : Month := ⟨m.year + (m.month - 1 + n) / 12, (m.month - 1 + n) % 12 + 1⟩

theorem Month.shift_zero {m : Month} (hfirst : 1 ≤ m.month) (hlast : m.month ≤ 12) : m.shift 0 = m := by
  cases m with
  | mk year month =>
    rw [shift]
    congr 1 <;> dsimp only at * <;> omega

theorem Month.shift_succ (m : Month) (n : ℕ) : m.shift (n + 1) = (m.shift n).next := by
  rw [next, shift, shift]
  split
  all_goals
    congr 1 <;> dsimp only at * <;> omega

theorem Month.year_shift_mono (m : Month) {k n : ℕ} (h : k ≤ n) : (m.shift k).year ≤ (m.shift n).year := by
  rw [shift, shift]
  dsimp only
  omega

namespace DateTime

/-- What `datetime` takes: a month of the year, a day of the month, and no year after the last. -/
structure Valid (t : DateTime) : Prop where
  firstMonth : 1 ≤ t.month
  lastMonth : t.month ≤ 12
  firstDay : 1 ≤ t.day
  lastDay : t.day ≤ t.monthOf.days
  year : t.year ≤ maxYear

/-- The fields in one number, in the order in which two times are compared. -/
def stamp (t : DateTime) : ℕ :=
  (((((t.year * 13 + t.month) * 32 + t.day) * 24 + t.hour) * 60 + t.minute) * 60 + t.second) * 1000000 + t.microsecond

instance : LE DateTime := ⟨fun a b => a.stamp ≤ b.stamp⟩

instance : DecidableLE DateTime := fun a b => inferInstanceAs (Decidable (a.stamp ≤ b.stamp))

/-- The same time on another day. -/
def onDay (t : DateTime) (m : Month) (day : ℕ) : DateTime := { t with year := m.year, month := m.month, day }

def nextDay (t : DateTime) : Option DateTime :=
  if t.day < t.monthOf.days then some (t.onDay t.monthOf (t.day + 1))
  else if t.monthOf.next.year ≤ maxYear then some (t.onDay t.monthOf.next 1)
  else none

/-- Adding a `timedelta` of days. -/
def addDays (t : DateTime) : ℕ → Option DateTime
  | 0 => some t
  | n + 1 => (t.addDays n).bind nextDay

def digit (n : ℕ) : Char := Nat.digitChar (n % 10)

def twoDigits (n : ℕ) : List Char := [digit (n / 10), digit n]

/-- The text of `isoformat`: microseconds are left out when they are zero. -/
def isoformat (t : DateTime) : String :=
  String.ofList (twoDigits (t.year / 100) ++ twoDigits t.year ++ '-' :: twoDigits t.month ++ '-' :: twoDigits t.day ++
    'T' :: twoDigits t.hour ++ ':' :: twoDigits t.minute ++ ':' :: twoDigits t.second ++
    (if t.microsecond = 0 then []
      else '.' :: twoDigits (t.microsecond / 10000) ++ twoDigits (t.microsecond / 100) ++ twoDigits t.microsecond) ++
    "+00:00".toList)

example : ({ year := 2026, month := 1, day := 31, hour := 9, microsecond := 50 } : DateTime).isoformat =
    "2026-01-31T09:00:00.000050+00:00" := by decide +kernel

theorem digit_ne_colon (n : ℕ) : digit n ≠ ':' := by
  have hdigits : ∀ k < 10, Nat.digitChar k ≠ ':' := by decide
  exact hdigits _ (Nat.mod_lt _ (by omega))

theorem count_colon_twoDigits (n : ℕ) : (twoDigits n).count ':' = 0 := by
  simp [twoDigits, digit_ne_colon]

theorem count_colon_isoformat (t : DateTime) : t.isoformat.toList.count ':' = 3 := by
  rw [isoformat, String.toList_ofList]
  split <;> simp [count_colon_twoDigits]

end DateTime

end BotCord
