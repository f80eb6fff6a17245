import Mathlib.Tactic.IntervalCases

/-!
# Minutes of the proleptic Gregorian calendar

The part of `datetime` a schedule reads: a minute of a valid date, and its day of the week, which
comes from the ordinal number of the date.

A schedule that fixes a day of the month meets every day of the week: `exists_minute_on` finds, for
each month and weekday, a year in which the month begins on that weekday.
-/

namespace Calendar

def isLeap (year : Nat) : Bool := year % 4 == 0 && (year % 100 != 0 || year % 400 == 0)

def daysInMonth (year month : Nat) : Nat :=
  if month = 2 then (if isLeap year then 29 else 28)
  else if month = 4 ∨ month = 6 ∨ month = 9 ∨ month = 11 then 30
  else 31

/-- The most days the month has in any year. -/
def longestMonth (month : Nat) : Nat := daysInMonth 2000 month

def daysBeforeYear (year : Nat) : Nat :=
  let y := year - 1
  y * 365 + y / 4 - y / 100 + y / 400

def daysBeforeMonth (year month : Nat) : Nat :=
  ((List.range (month - 1)).map fun m => daysInMonth year (m + 1)).sum

/-- A minute of a valid date. -/
structure Minute where
  year : Nat
  month : Nat
  day : Nat
  hour : Nat
  minute : Nat
  year_bounds : 1 ≤ year ∧ year ≤ 9999
  month_bounds : 1 ≤ month ∧ month ≤ 12
  day_bounds : 1 ≤ day ∧ day ≤ daysInMonth year month
  hour_lt : hour < 24
  minute_lt : minute < 60

namespace Minute

/-! Bounds of the first moments of a year, for the moments of examples. -/

theorem january : 1 ≤ 1 ∧ 1 ≤ 12 := by decide

theorem firstDay : 1 ≤ 1 ∧ 1 ≤ daysInMonth 1 1 := by decide

theorem firstYear : 1 ≤ 1 ∧ 1 ≤ 9999 := by decide

theorem year2026 : 1 ≤ 2026 ∧ 2026 ≤ 9999 := by decide

theorem day2026 : 1 ≤ 1 ∧ 1 ≤ daysInMonth 2026 1 := by decide

theorem hour0 : 0 < 24 := by decide

theorem minute0 : 0 < 60 := by decide

/-- `toordinal`: the first of January of the year 1 is day 1. -/
def toordinal (t : Minute) : Nat := daysBeforeYear t.year + daysBeforeMonth t.year t.month + t.day

/-- `weekday`: Monday is 0. -/
def weekday (t : Minute) : Nat := (t.toordinal + 6) % 7

end Minute

theorem daysInMonth_pos (year month : Nat) : 1 ≤ daysInMonth year month := by
  unfold daysInMonth
  split_ifs <;> norm_num

/-- No month is longer than in a leap year. -/
theorem daysInMonth_le_longestMonth (year month : Nat) :
    daysInMonth year month ≤ longestMonth month := by
  unfold longestMonth daysInMonth
  split_ifs <;> simp_all [isLeap]

/-- Some year of the first twelve of this century begins the month on the weekday. -/
theorem exists_year_first_on : ∀ month < 13, 1 ≤ month → ∀ weekday < 7, ∃ n < 12,
    (daysBeforeYear (2000 + n) + daysBeforeMonth (2000 + n) month + 1 + 6) % 7 = weekday := by
  decide +kernel

/-- **Every month begins on every weekday in some year**, at any hour and minute. -/
theorem exists_minute_on {month hour minute weekday : Nat} (hmonth : 1 ≤ month ∧ month ≤ 12)
    (hhour : hour < 24) (hminute : minute < 60) (hweekday : weekday < 7) :
    ∃ t : Minute, t.month = month ∧ t.day = 1 ∧ t.hour = hour ∧ t.minute = minute ∧
      t.weekday = weekday := by
  obtain ⟨n, hlt, hday⟩ := exists_year_first_on month (by omega) hmonth.1 weekday hweekday
  exact ⟨⟨2000 + n, month, 1, hour, minute, by omega, hmonth, ⟨le_rfl, daysInMonth_pos _ month⟩,
    hhour, hminute⟩, rfl, rfl, rfl, rfl, hday⟩

/-- Every day a month has in some year is a day of that month in a leap year. -/
theorem exists_minute_of_day {month day hour minute : Nat} (hmonth : 1 ≤ month ∧ month ≤ 12)
    (hday : 1 ≤ day ∧ day ≤ longestMonth month) (hhour : hour < 24) (hminute : minute < 60) :
    ∃ t : Minute, t.month = month ∧ t.day = day ∧ t.hour = hour ∧ t.minute = minute :=
  ⟨⟨2000, month, day, hour, minute, by omega, hmonth, hday, hhour, hminute⟩, rfl, rfl, rfl, rfl⟩

end Calendar
