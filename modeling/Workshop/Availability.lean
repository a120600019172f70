/-
  Workshop/Availability.lean
  ==========================
  **Availability of work centers.**  The availability of a work center is the share of
  its hours in a window that no booking has taken, in percent with one decimal place.
  A work center without hours has none available.

  `daysNeeded` is the companion rule for one operation: the working days it takes at a
  given capacity.
-/
import Workshop.Ledger
import Workshop.MasterData

namespace Workshop

variable {Q : Type} [Quantity Q]

/-- The largest number of days that is told apart. -/
def dayLimit : Nat := 4294967295

/-- The days that hours take at so many hours a day: at least one. -/
def daysNeeded (hours hoursPerDay : Q) : Nat :=
  if hoursPerDay ≤ Quantity.zero ∨ Quantity.isFinite hours = false ∨ hours ≤ Quantity.zero then 1
  else
    let days := hours / hoursPerDay
    if Quantity.isNaN days then 0 else max 1 (Quantity.ceilCount dayLimit days)

/-- The hours of a work center in a window, those used, and the rate. -/
structure Availability (Q : Type) where
  workCenterId : String
  availableHours : Q
  usedHours : Q
  rate : Q

/-- The share of the available hours that is not used: between 0 and 100 percent, to
    one place, a half going up. -/
def Availability.rateOf (available used : Q) : Q :=
  if Quantity.isFinite available = false ∨ available ≤ Quantity.zero then Quantity.zero
  else
    let hundred : Q := Quantity.ofInt 100
    let ten : Q := Quantity.ofInt 10
    let rate := (Quantity.ofInt 1 - used / available) * hundred
    let rate := if rate < Quantity.zero then Quantity.zero else rate
    let rate := if hundred < rate then hundred else rate
    Quantity.roundHalfAway (rate * ten) / ten

/-- The availability of a work center over the window of a ledger. -/
def WorkCenter.availability (wc : WorkCenter Q) (l : Ledger Q) : Availability Q :=
  let days := l.windowStart.businessDaysBetween l.windowEnd
  let available := Quantity.ofInt days * Quantity.larger wc.capacityHoursPerDay Quantity.zero
  let used := l.total wc.workCenterId
  ⟨wc.workCenterId, available, used, Availability.rateOf available used⟩

end Workshop
