/-
  Workshop/Calendar/Date.lean
  ===========================
  **Calendar dates.**  A date is the number of days since 1 March of year 0 in the
  proleptic Gregorian calendar, so a leap day is the last day of its year of
  counting.  The calendar is finite: it runs from 1 January of year -262143 to
  31 December of year 262142, and the bounds are part of the type.

  Dates are compared by their day number (`Date.lt_iff`, `Date.le_iff`); the day
  after a date is one more (`Date.next?_eq_some_iff`) and exists for every date but
  the last (`Date.next?_eq_none_iff`).
-/

namespace Workshop

/-- A date, as days since 1 March of year 0. -/
structure Date where
  day : Int
  first_le : -95745824 ≤ day
  le_last : day ≤ 95745704
deriving DecidableEq, Repr

namespace Date

/-- The day number of the first date. -/
def firstDay : Int := -95745824

/-- The day number of the last date. -/
def lastDay : Int := 95745704

/-- 1 January of year -262143. -/
def first : Date := ⟨firstDay, by decide, by decide⟩

/-- 31 December of year 262142. -/
def last : Date := ⟨lastDay, by decide, by decide⟩

/-- The date with a given day number, when the calendar has one. -/
def ofDay? (n : Int) : Option Date :=
  if h : -95745824 ≤ n ∧ n ≤ 95745704 then some ⟨n, h.1, h.2⟩ else none

instance : Inhabited Date := ⟨⟨0, by decide, by decide⟩⟩

instance : LE Date := ⟨fun a b => a.day ≤ b.day⟩

instance : LT Date := ⟨fun a b => a.day < b.day⟩

theorem le_iff {a b : Date} : a ≤ b ↔ a.day ≤ b.day := Iff.rfl

theorem lt_iff {a b : Date} : a < b ↔ a.day < b.day := Iff.rfl

instance (a b : Date) : Decidable (a ≤ b) := inferInstanceAs (Decidable (a.day ≤ b.day))

instance (a b : Date) : Decidable (a < b) := inferInstanceAs (Decidable (a.day < b.day))

/-- The later of two dates. -/
def later (a b : Date) : Date := if a ≤ b then b else a

theorem ext_day {a b : Date} (h : a.day = b.day) : a = b := by
  cases a; cases b; cases h; rfl

/-! ### Moving forward -/

/-- The date `n` days later, when the calendar reaches that far. -/
def addDays? (d : Date) (n : Nat) : Option Date :=
  if h : d.day + n ≤ 95745704 then
    some ⟨d.day + n, by have := d.first_le; omega, h⟩
  else none

/-- The date `n` days later, or the last date of the calendar if that comes first. -/
def addDaysClamped (d : Date) (n : Nat) : Date := (d.addDays? n).getD last

/-- The next calendar day; the last date has none. -/
def next? (d : Date) : Option Date := d.addDays? 1

theorem addDays?_eq_some_iff {d e : Date} {n : Nat} :
    d.addDays? n = some e ↔ e.day = d.day + n := by
  unfold addDays?
  constructor
  · intro h
    split at h
    · cases h; rfl
    · cases h
  · intro h
    have hl := e.le_last
    rw [dif_pos (by omega)]
    exact congrArg some (ext_day h.symm)

theorem next?_eq_some_iff {d e : Date} : d.next? = some e ↔ e.day = d.day + 1 :=
  addDays?_eq_some_iff

theorem next?_eq_none_iff {d : Date} : d.next? = none ↔ d = last := by
  unfold next? addDays?
  constructor
  · intro h
    split at h
    · cases h
    · have := d.le_last
      exact ext_day (show d.day = 95745704 by omega)
  · rintro rfl
    decide

/-- The days left in the calendar after a date: the measure of every day-by-day search. -/
def daysLeft (d : Date) : Nat := (lastDay - d.day).toNat

theorem daysLeft_next {d e : Date} (h : d.next? = some e) : e.daysLeft < d.daysLeft := by
  have h1 := next?_eq_some_iff.mp h
  have h2 := e.le_last
  unfold daysLeft lastDay
  omega

/-! ### Days of the week -/

/-- The day of the week, from 0 for Monday to 6 for Sunday. -/
def weekday (d : Date) : Nat := ((d.day + 2) % 7).toNat

theorem weekday_lt (d : Date) : d.weekday < 7 := by
  unfold weekday
  omega

end Date

end Workshop
