/-
  Workshop/Calendar/BusinessDay.lean
  ==================================
  **Working days.**  The workshop works from Monday to Friday.  `Date.nthBusinessDay`
  moves forward by working days and `Date.businessDaysBetween` counts them; both
  reckon in whole weeks, so neither walks the calendar.

  `Date.firstBusinessDay_isBusinessDay` says that the first working day is one.
-/
import Workshop.Calendar.Date

namespace Workshop.Date

/-- Monday to Friday are working days. -/
def isBusinessDay (d : Date) : Bool := d.weekday < 5

/-- The first working day on or after a date, unless the calendar ends before it. -/
def firstBusinessDay (d : Date) : Option Date :=
  if d.isBusinessDay then some d else d.addDays? (7 - d.weekday)

/-- The calendar days from a working day to the `k`-th working day after it: five
    working days make a week. -/
def daysToLaterBusinessDay (d : Date) (k : Nat) : Nat :=
  let n := d.weekday + k
  n / 5 * 7 + n % 5 - d.weekday

/-- The `n`-th working day from a date on, the first working day on or after it being
    number one.  Number zero is read as number one. -/
def nthBusinessDay (start : Date) (n : Nat) : Option Date :=
  start.firstBusinessDay.bind fun d => d.addDays? (d.daysToLaterBusinessDay (max n 1 - 1))

/-- The working days with a day number below `n`, reckoned from a Monday: the
    difference of two such counts is the count between. -/
def businessDaysBefore (n : Int) : Int := (n + 2) / 7 * 5 + min ((n + 2) % 7) 5

/-- The working days from `start` to `stop`, both included.  The last date of the
    calendar is never counted: a day is counted on stepping past it. -/
def businessDaysBetween (start stop : Date) : Nat :=
  (businessDaysBefore (min (stop.day + 1) lastDay) - businessDaysBefore start.day).toNat

theorem weekday_addDays {d e : Date} {n : Nat} (h : d.addDays? n = some e) :
    e.weekday = (d.weekday + n) % 7 := by
  have := addDays?_eq_some_iff.mp h
  unfold weekday
  omega

theorem firstBusinessDay_isBusinessDay {d e : Date} (h : d.firstBusinessDay = some e) :
    e.isBusinessDay = true := by
  unfold firstBusinessDay at h
  split at h
  · cases h; assumption
  · have hw := weekday_addDays h
    have := d.weekday_lt
    have hd : d.weekday + (7 - d.weekday) = 7 := by omega
    simp [isBusinessDay, hw, hd]

end Workshop.Date
