/-
  Workshop/Schedule/Candidate.lean
  ================================
  **Candidates of a scheduling run.**  A candidate is an operation of an active order
  that has not begun, has no start date and passes the filters of the request, with the
  operation before it in its order.  Candidates are taken by priority, due date (none
  last), part if setups are to be saved, sequence number and order.
-/
import Workshop.Schedule.Request
import Workshop.Workset

namespace Workshop

/-- An operation to be placed, with what decides its turn. -/
structure Candidate (Q : Type) where
  operation : Operation Q
  priority : Int
  dueDate : Option Date
  partId : String
  predecessor : Option (Operation Q)

namespace Candidate

variable {Q : Type} [Quantity Q]

/-- Due dates in their order, and no due date after all of them. -/
def compareDue : Option Date → Option Date → Ordering
  | some a, some b => compare a.day b.day
  | some _, none => .lt
  | none, some _ => .gt
  | none, none => .eq

/-- The order of turns. -/
def compareTurn (optimizeSetup : Bool) (a b : Candidate Q) : Ordering :=
  (compare a.priority b.priority).then <|
  (compareDue a.dueDate b.dueDate).then <|
  (if optimizeSetup then compare a.partId b.partId else .eq).then <|
  (compare a.operation.sequence b.operation.sequence).then <|
  compare a.operation.orderId b.operation.orderId

/-- Each operation of a list with the one before it. -/
def withPredecessors : Option (Operation Q) → List (Operation Q) →
    List (Operation Q × Option (Operation Q))
  | _, [] => []
  | before, op :: ops => (op, before) :: withPredecessors (some op) ops

/-- The operation may be placed by the request. -/
def isEligible (r : ScheduleRequest Q) (op : Operation Q) : Bool :=
  op.status.isSchedulable && op.scheduledStart.isNone && r.includesWorkCenter op.workCenterId

/-- The candidates of one order, by sequence number. -/
def ofWorkset (r : ScheduleRequest Q) (w : Workset Q) : List (Candidate Q) :=
  if w.order.status.isSchedulable && r.includesOrder w.order.orderId then
    let ops := w.operations.mergeSort fun a b => decide (a.sequence ≤ b.sequence)
    ((withPredecessors none ops).filter fun p => isEligible r p.1).map fun p =>
      ⟨p.1, w.order.priority, w.order.dueDate, w.order.partId, p.2⟩
  else []

/-- The candidates of all orders in the order of their turns. -/
def select (r : ScheduleRequest Q) (worksets : List (Workset Q)) : List (Candidate Q) :=
  (worksets.flatMap (ofWorkset r)).mergeSort fun a b =>
    compareTurn r.optimizeSetup a b != .gt

end Candidate

end Workshop
