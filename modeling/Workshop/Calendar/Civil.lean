/-
  Workshop/Calendar/Civil.lean
  ============================
  **Year, month and day.**  The calendar repeats every 146097 days, which are 400
  years counted from 1 March.  Within such an era a century is 36524 days, a group of
  four years 1461 and a year 365; the last of each kind takes the leap day that the
  others lack.  `Civil.dayNumber` composes the day number of `Date` and `Civil.ofDay`
  takes it apart; the second undoes the first (`Civil.dayNumber_ofDay`).
-/
import Workshop.Calendar.Date

namespace Workshop

/-- A year, a month (1 to 12) and a day of the month (from 1). -/
structure Civil where
  year : Int
  month : Nat
  day : Nat
deriving DecidableEq, Repr

namespace Civil

/-- A leap year is a multiple of 4, but of 100 only when also of 400. -/
def isLeapYear (year : Int) : Bool :=
  year % 4 == 0 && (year % 100 != 0 || year % 400 == 0)

/-- The days of a month. -/
def daysInMonth (year : Int) (month : Nat) : Nat :=
  if month = 2 then (if isLeapYear year then 29 else 28)
  else if month = 4 ∨ month = 6 ∨ month = 9 ∨ month = 11 then 30 else 31

/-- The month exists in every year and the day in that month. -/
def Valid (c : Civil) : Prop :=
  1 ≤ c.month ∧ c.month ≤ 12 ∧ 1 ≤ c.day ∧ c.day ≤ daysInMonth c.year c.month

instance (c : Civil) : Decidable c.Valid := inferInstanceAs (Decidable (_ ∧ _ ∧ _ ∧ _))

/-! ### Years that begin on 1 March -/

/-- Months counted from March: March is 0 and February 11. -/
def marchMonth (month : Nat) : Nat := (month + 9) % 12

/-- The calendar month of a month counted from March. -/
def calendarMonth (m : Nat) : Nat := if m < 10 then m + 3 else m - 9

/-- The year that begins on 1 March and holds the date. -/
def marchYear (c : Civil) : Int := if c.month ≤ 2 then c.year - 1 else c.year

/-- The days of a year before a month, both counted from March. -/
def daysBeforeMonth (m : Nat) : Nat := (153 * m + 2) / 5

/-- The month, counted from March, that holds a day of the year. -/
def monthOfYearDay (day : Nat) : Nat := (5 * day + 2) / 153

/-- The days before a year of an era. -/
def daysBeforeYear (y : Nat) : Nat := 365 * y + y / 4 - y / 100

/-- The year of an era that holds a day of the era. -/
def yearOfEraDay (day : Nat) : Nat :=
  let century := min (day / 36524) 3
  let inCentury := day - century * 36524
  let four := inCentury / 1461
  let inFour := inCentury - four * 1461
  century * 100 + four * 4 + min (inFour / 365) 3

/-- The day number of a civil date. -/
def dayNumber (c : Civil) : Int :=
  let y := c.marchYear
  y / 400 * 146097 + daysBeforeYear (y % 400).toNat + daysBeforeMonth (marchMonth c.month)
    + c.day - 1

/-- The civil date of a day number. -/
def ofDay (n : Int) : Civil :=
  let inEra := (n % 146097).toNat
  let y := yearOfEraDay inEra
  let inYear := inEra - daysBeforeYear y
  let m := monthOfYearDay inYear
  let year : Int := n / 146097 * 400 + y
  { year := if calendarMonth m ≤ 2 then year + 1 else year
    month := calendarMonth m
    day := inYear - daysBeforeMonth m + 1 }

/-- The date of a year, month and day, when it exists and lies in the calendar. -/
def toDate? (c : Civil) : Option Date :=
  if c.Valid then Date.ofDay? c.dayNumber else none

/-! ### Taking a day number apart loses nothing -/

theorem yearOfEraDay_parts {k : Nat} (h : k < 146097) :
    ∃ c f s r : Nat, yearOfEraDay k = c * 100 + f * 4 + s ∧
      daysBeforeYear (yearOfEraDay k) = c * 36524 + f * 1461 + s * 365 ∧
      k = c * 36524 + f * 1461 + s * 365 + r ∧ c ≤ 3 ∧ f ≤ 24 ∧ s ≤ 3 ∧ r ≤ 365 ∧
      (r = 365 → s = 3 ∧ (f < 24 ∨ c = 3)) := by
  obtain ⟨c, hc⟩ : ∃ c, c = min (k / 36524) 3 := ⟨_, rfl⟩
  obtain ⟨i, hi⟩ : ∃ i, i = k - c * 36524 := ⟨_, rfl⟩
  obtain ⟨f, hf⟩ : ∃ f, f = i / 1461 := ⟨_, rfl⟩
  obtain ⟨j, hj⟩ : ∃ j, j = i - f * 1461 := ⟨_, rfl⟩
  obtain ⟨s, hs⟩ : ∃ s, s = min (j / 365) 3 := ⟨_, rfl⟩
  have hy : yearOfEraDay k = c * 100 + f * 4 + s := by
    subst hs hj hf hi hc; rfl
  have h1 : c ≤ 3 ∧ k = c * 36524 + i ∧ (i ≤ 36523 ∨ i = 36524 ∧ c = 3) := by omega
  have h2 : f ≤ 24 ∧ i = f * 1461 + j ∧ j ≤ 1460 := by omega
  have h3 : s ≤ 3 ∧ j = s * 365 + (j - s * 365) ∧ j - s * 365 ≤ 365 := by omega
  have hd : daysBeforeYear (yearOfEraDay k) = c * 36524 + f * 1461 + s * 365 := by
    have h4 : (c * 100 + f * 4 + s) / 4 = c * 25 + f := by omega
    have h5 : (c * 100 + f * 4 + s) / 100 = c := by omega
    rw [hy, daysBeforeYear, h4, h5]
    omega
  exact ⟨c, f, s, j - s * 365, hy, hd, by omega, h1.1, h2.1, h3.1, h3.2.2, by omega⟩

theorem yearOfEraDay_spec {k : Nat} (h : k < 146097) :
    yearOfEraDay k < 400 ∧ daysBeforeYear (yearOfEraDay k) ≤ k ∧
      k - daysBeforeYear (yearOfEraDay k) ≤ 365 := by
  obtain ⟨c, f, s, r, hy, hd, hk, hparts⟩ := yearOfEraDay_parts h
  rw [hd, hy]
  omega

theorem monthOfYearDay_spec {k : Nat} (h : k ≤ 365) :
    monthOfYearDay k ≤ 11 ∧ daysBeforeMonth (monthOfYearDay k) ≤ k := by
  unfold monthOfYearDay daysBeforeMonth
  omega

theorem marchMonth_calendarMonth {m : Nat} (h : m ≤ 11) : marchMonth (calendarMonth m) = m := by
  unfold marchMonth calendarMonth
  split <;> omega

/-- A day number is found again from its civil date. -/
theorem dayNumber_ofDay (n : Int) : (ofDay n).dayNumber = n := by
  obtain ⟨k, hk⟩ : ∃ k : Nat, k = (n % 146097).toNat := ⟨_, rfl⟩
  have hlt : k < 146097 := by omega
  have hy := yearOfEraDay_spec hlt
  have hm := monthOfYearDay_spec hy.2.2
  have hmm := marchMonth_calendarMonth hm.1
  unfold ofDay dayNumber marchYear
  simp only [← hk, hmm]
  generalize yearOfEraDay k = y at *
  generalize hc : calendarMonth _ = c
  have hyear : (if c ≤ 2 then (if c ≤ 2 then n / 146097 * 400 + (y : Int) + 1
      else n / 146097 * 400 + (y : Int)) - 1 else (if c ≤ 2 then n / 146097 * 400 + (y : Int) + 1
      else n / 146097 * 400 + (y : Int))) = n / 146097 * 400 + (y : Int) := by
    split <;> omega
  rw [hyear]
  have he : (n / 146097 * 400 + (y : Int)) / 400 = n / 146097 := by omega
  have hr : ((n / 146097 * 400 + (y : Int)) % 400).toNat = y := by omega
  rw [he, hr]
  omega

end Civil

namespace Date

/-- The year, month and day of a date. -/
def civil (d : Date) : Civil := Civil.ofDay d.day

end Date

end Workshop
