/-
  Workshop/Schedule/FirstFit.lean
  ===============================
  **First-fit scheduling with finite capacity.**  Candidates are taken in turn, each
  once and for good.  An operation may start on the day after the operation before it
  in its order ends, and goes to the first working day on which its work center has
  its hours free.  An operation longer than a day needs a whole day free for its start;
  all its hours are booked there.
-/
import Workshop.Availability
import Workshop.Schedule.Candidate

namespace Workshop

variable {Q : Type} [Quantity Q]

/-- The first working day from a date on that passes a test, not after `stop`, with
    the number of weekend days passed over on the way. -/
def Date.searchFrom (passes : Date → Bool) (stop d : Date) (skipped : Nat) : Option (Date × Nat) :=
  if d ≤ stop then
    if d.isBusinessDay && passes d then some (d, skipped)
    else
      let skipped := if d.isBusinessDay then skipped else skipped + 1
      match _h : d.next? with
      | some e => Date.searchFrom passes stop e skipped
      | none => none
  else none
termination_by d.daysLeft
decreasing_by exact Date.daysLeft_next _h

/-- The work centers that a run may use, by their identifiers. -/
abbrev WorkCenters (Q : Type) := String → Option (WorkCenter Q)

/-- The work centers of a list; of two with the same identifier the later counts. -/
def WorkCenters.ofList (centers : List (WorkCenter Q)) : WorkCenters Q :=
  fun id => centers.reverse.find? (·.workCenterId == id)

namespace FirstFit

/-- How far a run has come: the ledger, the ends of the operations placed so far, and
    the answer so far. -/
structure State (Q : Type) where
  ledger : Ledger Q
  ends : List (String × Date)
  scheduled : List (Placement Q)
  conflicts : List Conflict

/-- The free hours that a start day must have: those of the operation, but not more
    than the whole day, less the tolerance. -/
def requiredHours (capacity hours : Q) : Q := Quantity.smaller hours capacity - Quantity.tolerance

/-- A work center takes operations only when its capacity is finite and positive. -/
def hasCapacity (wc : WorkCenter Q) : Bool :=
  Quantity.isFinite wc.capacityHoursPerDay && !decide (wc.capacityHoursPerDay ≤ Quantity.zero)

/-- The start date of an operation, with the weekend days passed over. -/
def startDate? (l : Ledger Q) (wc : WorkCenter Q) (hours : Q) (startFrom stop : Date) :
    Option (Date × Nat) :=
  if hasCapacity wc then
    let capacity := wc.capacityHoursPerDay
    let required := requiredHours capacity hours
    Date.searchFrom (fun d => (l.day wc.workCenterId d capacity).canBook required)
      stop startFrom 0
  else none

/-- The end date of an operation: the start day and as many more as its hours take. -/
def endDate (start : Date) (hours capacity : Q) : Date :=
  (start.nthBusinessDay (daysNeeded hours capacity)).getD start

/-- The end of the operation before, if it has one: placed in this run, or stored. -/
def predecessorEnd (s : State Q) (before : Operation Q) : Option Date :=
  match s.ends.lookup before.operationId with
  | some d => some d
  | none => before.scheduledEnd

/-- The earliest start that the operation before allows: today when there is none or it
    is complete, otherwise the day after its end, if it has one. -/
def earliest? (r : ScheduleRequest Q) (s : State Q) (c : Candidate Q) : Option Date :=
  match c.predecessor with
  | none => some r.today
  | some before =>
    if before.isComplete then some r.today
    else (predecessorEnd s before).bind Date.next?

/-- The state after a conflict. -/
def State.report (s : State Q) (c : Conflict) : State Q :=
  { s with conflicts := s.conflicts ++ [c] }

/-- The state after a placement. -/
def State.place (s : State Q) (p : Placement Q) : State Q where
  ledger := s.ledger.book p.workCenterId p.start p.hours
  ends := (p.operationId, p.stop) :: s.ends
  scheduled := s.scheduled ++ [p]
  conflicts := s.conflicts

/-- Takes one candidate: it is placed, or reported as a conflict. -/
def take (r : ScheduleRequest Q) (centers : WorkCenters Q) (s : State Q) (c : Candidate Q) :
    State Q :=
  let op := c.operation
  match earliest? r s c with
  | none =>
    let before := (c.predecessor.map (·.sequence)).getD 0
    s.report (.about op .predecessorUnscheduled ("前序工序 " ++ toString before ++ " 尚未排程"))
  | some earliest =>
    match centers op.workCenterId with
    | none =>
      s.report (.about op .unknownWorkCenter ("工作中心 " ++ op.workCenterId ++ " 不在产能模型中"))
    | some wc =>
      let hours := op.hoursNeeded r.minOperationHours
      let startFrom := earliest.later r.today
      match startDate? s.ledger wc hours startFrom r.windowEnd with
      | some (start, skipped) =>
        s.place
          { operationId := op.operationId
            orderId := op.orderId
            sequence := op.sequence
            workCenterId := wc.workCenterId
            start := start
            stop := endDate start hours wc.capacityHoursPerDay
            hours := hours
            weekendDaysSkipped := skipped }
      | none =>
        s.report (.about op .noCapacityInHorizon
          (toString startFrom ++ " 至 " ++ toString r.windowEnd ++ " 内无 " ++
            Quantity.fixed 2 hours ++ " 小时可用产能"))

/-- A whole run over the candidates of the worksets. -/
def run (r : ScheduleRequest Q) (worksets : List (Workset Q)) (centers : WorkCenters Q)
    (ledger : Ledger Q) : State Q :=
  (Candidate.select r worksets).foldl (take r centers) ⟨ledger, [], [], []⟩

end FirstFit

/-- Schedules the operations of worksets onto a ledger: the answer, and the ledger with
    the placements booked. -/
def schedule (r : ScheduleRequest Q) (worksets : List (Workset Q)) (centers : WorkCenters Q)
    (ledger : Ledger Q) : ScheduleResult Q × Ledger Q :=
  let s := FirstFit.run r worksets centers ledger
  (⟨s.scheduled, s.conflicts, Placement.workCenters s.scheduled⟩, s.ledger)

end Workshop
