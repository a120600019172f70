/-
  Workshop/Schedule/Request.lean
  ==============================
  **What a scheduling run is asked and what it answers.**  A run places operations
  on the calendar of their work centers, within a window of dates that begins today.
  Operations that find no place are reported as conflicts; a conflict is an answer and
  no error.
-/
import Workshop.Order
import Workshop.Text.Ascending

namespace Workshop

/-- The terms of a scheduling run. -/
structure ScheduleRequest (Q : Type) where
  today : Date
  horizonDays : Nat
  /-- Operations on the same part follow one another, to save setups. -/
  optimizeSetup : Bool
  minOperationHours : Q
  workCenterFilter : Option (List String)
  orderFilter : Option String

namespace ScheduleRequest

variable {Q : Type}

/-- The last date of the window. -/
def windowEnd (r : ScheduleRequest Q) : Date := r.today.addDaysClamped r.horizonDays

/-- The run is about this work center. -/
def includesWorkCenter (r : ScheduleRequest Q) (workCenterId : String) : Bool :=
  match r.workCenterFilter with
  | some ids => ids.contains workCenterId
  | none => true

/-- The run is about this order. -/
def includesOrder (r : ScheduleRequest Q) (orderId : String) : Bool :=
  match r.orderFilter with
  | some id => id == orderId
  | none => true

end ScheduleRequest

/-- An operation placed on the calendar; its hours are booked on the start date. -/
structure Placement (Q : Type) where
  operationId : String
  orderId : String
  sequence : Int
  workCenterId : String
  start : Date
  stop : Date
  hours : Q
  weekendDaysSkipped : Nat

/-- Why an operation has no place. -/
inductive ConflictReason where
  | predecessorUnscheduled
  | noCapacityInHorizon
  | unknownWorkCenter
  | concurrentlyScheduled
deriving DecidableEq, Repr

namespace ConflictReason

/-- The code word of a reason. -/
def word : ConflictReason → String
  | predecessorUnscheduled => "PREDECESSOR_UNSCHEDULED"
  | noCapacityInHorizon => "NO_CAPACITY_IN_HORIZON"
  | unknownWorkCenter => "UNKNOWN_WORK_CENTER"
  | concurrentlyScheduled => "CONCURRENTLY_SCHEDULED"

/-- The phrase for a reason. -/
def phrase : ConflictReason → String
  | predecessorUnscheduled => "predecessor unscheduled"
  | noCapacityInHorizon => "no available capacity in horizon"
  | unknownWorkCenter => "unknown work center"
  | concurrentlyScheduled => "concurrently scheduled"

/-- All reasons. -/
def all : List ConflictReason :=
  [predecessorUnscheduled, noCapacityInHorizon, unknownWorkCenter, concurrentlyScheduled]

/-- The reason with exactly this code word. -/
def ofWord? (s : String) : Option ConflictReason := all.find? (·.word == s)

theorem ofWord?_word (r : ConflictReason) : ofWord? r.word = some r := by
  cases r <;> decide

end ConflictReason

/-- An operation without a place, and why. -/
structure Conflict where
  operationId : String
  orderId : String
  sequence : Int
  workCenterId : String
  reason : ConflictReason
  detail : String
deriving DecidableEq, Repr

variable {Q : Type}

/-- A conflict about an operation. -/
def Conflict.about (op : Operation Q) (reason : ConflictReason) (detail : String) : Conflict :=
  ⟨op.operationId, op.orderId, op.sequence, op.workCenterId, reason, detail⟩

/-- A placement that came too late: another run had written dates for the operation. -/
def Placement.lost (p : Placement Q) : Conflict :=
  ⟨p.operationId, p.orderId, p.sequence, p.workCenterId, .concurrentlyScheduled,
    "工序已被其他排程写入"⟩

/-- Writes the dates of a placement into the operation that it is about. -/
def Placement.place (p : Placement Q) (op : Operation Q) : Operation Q :=
  if op.operationId == p.operationId then
    { op with scheduledStart := some p.start, scheduledEnd := some p.stop }
  else op

/-- The answer of a scheduling run. -/
structure ScheduleResult (Q : Type) where
  scheduled : List (Placement Q)
  conflicts : List Conflict
  affectedWorkCenters : List String

/-- The work centers of placements, ascending. -/
def Placement.workCenters (ps : List (Placement Q)) : List String :=
  Text.ascending (ps.map (·.workCenterId))

/-- The answer after the placements of some operations turned out to be too late: they
    become conflicts behind the others. -/
def ScheduleResult.withLost (r : ScheduleResult Q) (rejected : List String) : ScheduleResult Q :=
  if rejected = [] then r
  else
    let kept := r.scheduled.filter fun p => !rejected.contains p.operationId
    let lost := r.scheduled.filter fun p => rejected.contains p.operationId
    { scheduled := kept
      conflicts := r.conflicts ++ lost.map Placement.lost
      affectedWorkCenters := Placement.workCenters kept }

end Workshop
