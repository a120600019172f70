/-
  Workshop/Ledger.lean
  ====================
  **The capacity ledger.**  A ledger covers a window of dates and records, for each
  work center and start date, the hours already committed.  All hours of an operation
  are booked on its start date.  Bookings outside the window and hours that are no
  finite number are not entered.

  The view of a ledger is `Ledger.committed`; `Ledger.committed_book` says what a
  booking does to it.
-/
import Workshop.Calendar.BusinessDay
import Workshop.Quantity.Basic

namespace Workshop

/-- Hours booked for a work center on a date. -/
structure LedgerEntry (Q : Type) where
  workCenterId : String
  date : Date
  hours : Q

/-- A window of dates with one entry for every work center and date booked in it, in
    the order of the first bookings. -/
structure Ledger (Q : Type) where
  windowStart : Date
  windowEnd : Date
  entries : List (LedgerEntry Q)

variable {Q : Type} [Quantity Q]

/-- The entry is the one of this work center and date. -/
def LedgerEntry.isAt (workCenterId : String) (date : Date) (e : LedgerEntry Q) : Bool :=
  e.workCenterId == workCenterId && e.date == date

namespace Ledger

/-- A ledger without bookings. -/
def empty (windowStart windowEnd : Date) : Ledger Q := ⟨windowStart, windowEnd, []⟩

/-- The window holds the date. -/
def contains (l : Ledger Q) (date : Date) : Bool :=
  decide (l.windowStart ≤ date) && decide (date ≤ l.windowEnd)

/-- The hours committed at a work center on a date. -/
def committed (l : Ledger Q) (workCenterId : String) (date : Date) : Q :=
  match l.entries.find? (LedgerEntry.isAt workCenterId date) with
  | some e => e.hours
  | none => Quantity.zero

/-- A booking is entered when its date lies in the window and its hours are finite. -/
def accepts (l : Ledger Q) (date : Date) (hours : Q) : Bool :=
  l.contains date && Quantity.isFinite hours

/-- Adds hours to the entry of a work center and date. -/
def addTo (workCenterId : String) (date : Date) (hours : Q) :
    List (LedgerEntry Q) → List (LedgerEntry Q)
  | [] => [⟨workCenterId, date, Quantity.zero + hours⟩]
  | e :: es =>
    if e.isAt workCenterId date then { e with hours := e.hours + hours } :: es
    else e :: addTo workCenterId date hours es

/-- Books hours, if the ledger accepts them. -/
def book (l : Ledger Q) (workCenterId : String) (date : Date) (hours : Q) : Ledger Q :=
  if l.accepts date hours then { l with entries := addTo workCenterId date hours l.entries }
  else l

/-- A ledger over a window with all the entries that it accepts. -/
def ofEntries (windowStart windowEnd : Date) (entries : List (LedgerEntry Q)) : Ledger Q :=
  entries.foldl (fun l e => l.book e.workCenterId e.date e.hours) (empty windowStart windowEnd)

/-- All hours committed at a work center, added in the order of their dates. -/
def total (l : Ledger Q) (workCenterId : String) : Q :=
  let mine := l.entries.filter (·.workCenterId == workCenterId)
  let sorted := mine.mergeSort fun a b => decide (a.date ≤ b.date)
  sorted.foldl (fun sum e => sum + e.hours) Quantity.zero

/-- The work centers with bookings, each once. -/
def workCenterIds (l : Ledger Q) : List String := (l.entries.map (·.workCenterId)).eraseDups

/-! ### One day -/

/-- The capacity of a work center on a day and the hours committed there. -/
structure Day (Q : Type) where
  capacity : Q
  committed : Q

/-- The view of one day at a work center of a given capacity. -/
def day (l : Ledger Q) (workCenterId : String) (date : Date) (capacity : Q) : Day Q :=
  ⟨capacity, l.committed workCenterId date⟩

namespace Day

/-- So many hours are still free. -/
def canBook (d : Day Q) (hours : Q) : Bool := decide (hours ≤ d.capacity - d.committed)

/-- More is committed than the day has. -/
def isOverbooked (d : Day Q) : Bool := decide (d.capacity < d.committed)

/-- The hours still free, never below zero. -/
def remaining (d : Day Q) : Q := Quantity.larger (d.capacity - d.committed) Quantity.zero

/-- The share of the capacity that is committed; a day without capacity has none. -/
def utilization (d : Day Q) : Q :=
  if d.capacity ≤ Quantity.zero then Quantity.zero else d.committed / d.capacity

end Day

/-! ### What a booking does -/

theorem find_addTo (wc wc' : String) (d d' : Date) (h : Q) (es : List (LedgerEntry Q)) :
    (addTo wc d h es).find? (LedgerEntry.isAt wc' d') =
      if wc = wc' ∧ d = d' then
        match es.find? (LedgerEntry.isAt wc d) with
        | some e => some { e with hours := e.hours + h }
        | none => some ⟨wc, d, Quantity.zero + h⟩
      else es.find? (LedgerEntry.isAt wc' d') := by
  induction es with
  | nil =>
    by_cases hk : wc = wc' ∧ d = d'
    · simp [addTo, LedgerEntry.isAt, hk]
    · simp only [addTo, List.find?_cons, List.find?_nil, if_neg hk]
      have : LedgerEntry.isAt wc' d' (⟨wc, d, Quantity.zero + h⟩ : LedgerEntry Q) = false := by
        simpa [LedgerEntry.isAt] using hk
      rw [this]
  | cons e es ih =>
    unfold addTo
    by_cases he : e.isAt wc d = true
    · have hek : e.workCenterId = wc ∧ e.date = d := by simpa [LedgerEntry.isAt] using he
      rw [if_pos he, List.find?_cons_of_pos he]
      by_cases hk : wc = wc' ∧ d = d'
      · obtain ⟨rfl, rfl⟩ := hk
        rw [List.find?_cons_of_pos (by simpa [LedgerEntry.isAt] using hek)]
        simp
      · have h1 : LedgerEntry.isAt wc' d' { e with hours := e.hours + h } = false := by
          obtain ⟨rfl, rfl⟩ := hek
          simpa [LedgerEntry.isAt] using hk
        have h2 : LedgerEntry.isAt wc' d' e = false := by
          obtain ⟨rfl, rfl⟩ := hek
          simpa [LedgerEntry.isAt] using hk
        rw [List.find?_cons_of_neg (by simp [h1]), List.find?_cons_of_neg (by simp [h2]),
          if_neg hk]
    · rw [if_neg he]
      have he' : e.isAt wc d = false := by simpa using he
      by_cases h1 : e.isAt wc' d' = true
      · have hk : ¬(wc = wc' ∧ d = d') := by
          rintro ⟨rfl, rfl⟩
          exact he h1
        rw [List.find?_cons_of_pos h1, List.find?_cons_of_pos h1, if_neg hk]
      · rw [List.find?_cons_of_neg h1, List.find?_cons_of_neg h1,
          List.find?_cons_of_neg (by simp [he']), ih]

/-- A booking adds its hours where it is made and leaves everything else alone. -/
theorem committed_book (l : Ledger Q) (wc wc' : String) (d d' : Date) (h : Q) :
    (l.book wc d h).committed wc' d' =
      if l.accepts d h = true ∧ wc = wc' ∧ d = d' then l.committed wc d + h
      else l.committed wc' d' := by
  unfold book
  by_cases ha : l.accepts d h = true
  · rw [if_pos ha]
    unfold committed
    simp only [find_addTo, ha, true_and]
    by_cases hk : wc = wc' ∧ d = d'
    · rw [if_pos hk, if_pos hk]
      cases l.entries.find? (LedgerEntry.isAt wc d) <;> rfl
    · rw [if_neg hk, if_neg hk]
  · rw [if_neg ha, if_neg (fun h => ha h.1)]

end Ledger

end Workshop
