/-
  Workshop/Maintenance.lean
  =========================
  **Maintenance of the plan.**  Maintenance schedules everything that is open and then
  recalculates the availability of all active work centers.  Its store is given row by
  row as lines of text, and what it has found is a list of lines.
-/
import Workshop.Execution.Scheduling
import Workshop.Store.Import

namespace Workshop.Maintenance

variable {Q : Type} [Quantity Q]

/-! ### Rows as lines -/

/-- A column with its value, parted by the first equals sign. -/
def readField? (field : String) : Option (String × Cell Q) :=
  match field.splitOn "=" with
  | column :: value :: more => some (column, .text (String.intercalate "=" (value :: more)))
  | _ => none

/-- A row: the name of its table, and its fields, parted by tabs.  All values are given
    as texts; the columns bring them to their kinds. -/
def readRow? (line : String) : Option (TableName × List (String × Cell Q)) :=
  match line.splitOn "\t" with
  | table :: fields => do
    let name ← TableName.ofWord? table
    let cells ← fields.mapM readField?
    some (name, cells)
  | [] => none

/-! ### The run -/

/-- What maintenance has found. -/
structure Summary (Q : Type) where
  schedule : ScheduleResult Q
  availability : List (String × Q)

/-- Schedules everything, then recalculates all availability. -/
def run (today : Date) (horizonDays : Option Nat) : Transaction Q (Summary Q) := do
  let schedule ← Transaction.scheduleRun today ⟨none, none⟩ horizonDays none
  let availability ← Transaction.write fun s => s.recalculate today none horizonDays
  pure ⟨schedule, availability⟩

/-- The lines of a summary: counts, placements, conflicts and availability. -/
def Summary.lines (m : Summary Q) : List String :=
  let count (word : String) (n : Nat) : String := word ++ "\t" ++ toString n
  [count "scheduled" m.schedule.scheduled.length, count "conflicts" m.schedule.conflicts.length] ++
  m.schedule.scheduled.map (fun p => String.intercalate "\t"
    ["placement", p.operationId, p.workCenterId, toString p.start, toString p.stop,
      Quantity.text p.hours]) ++
  m.schedule.conflicts.map (fun c => String.intercalate "\t"
    ["conflict", c.operationId, c.workCenterId, c.reason.phrase, c.detail]) ++
  m.availability.map fun p => String.intercalate "\t" ["availability", p.1, Quantity.text p.2]

end Workshop.Maintenance
