/-
  Workshop/Store/Orders.lean
  ==========================
  **Orders and operations in the store.**  The writes are guarded: an order is released
  only while it is a draft, and dates are written only to operations that have none.
  Each write happens as a whole or not at all.

  The hours committed in a window are added up from the operations with a start date in
  it that are not complete; dates are compared as texts.
-/
import Workshop.Ledger
import Workshop.Schedule.Request
import Workshop.Store.Basic

namespace Workshop.Store

variable {Q : Type} [Quantity Q]

/-! ### Orders -/

/-- Adds an order. -/
def insertOrder (s : Store Q) (o : Order Q) : Except StoreFault (Store Q) := do
  let rows ← orFault (Table.insert s.orders o.toRow)
  .ok { s with orders := rows }

/-- The order with an identifier. -/
def findOrder (s : Store Q) (orderId : String) : Except StoreFault (Option (Order Q)) :=
  readFirst Order.ofRow (rowsWith s.orders .orderId orderId)

/-- The order with an identifier, which must exist. -/
def getOrder (s : Store Q) (orderId : String) : Except StoreFault (Order Q) := do
  match ← s.findOrder orderId with
  | some o => .ok o
  | none => .error (.notFound "ProductionOrder" orderId)

/-- Changes the priority of an order. -/
def updatePriority (s : Store Q) (orderId : String) (priority : Int) :
    Except StoreFault (Store Q) := do
  let picks := Table.hasKey orderId
  let rows ← orFault <| Table.updateWhere picks
    (fun r => r.set .priority (.integer priority)) s.orders
  if s.orders.any picks then .ok { s with orders := rows }
  else .error (.notFound "ProductionOrder" orderId)

/-! ### Operations -/

/-- The operations of an order by sequence number. -/
def listOperations (s : Store Q) (orderId : String) : Except StoreFault (List (Operation Q)) :=
  (sortedBy .sequence (rowsWith s.operations .orderId orderId)).mapM Operation.ofRow

/-- The operation with an identifier. -/
def findOperation (s : Store Q) (operationId : String) :
    Except StoreFault (Option (Operation Q)) :=
  readFirst Operation.ofRow (rowsWith s.operations .operationId operationId)

/-- The row is that of an order on which work goes on. -/
def isActiveOrder (r : Row Order.Column Q) : Bool :=
  (r .status).isText OrderStatus.released.word || (r .status).isText OrderStatus.inProgress.word

/-- The active orders by identifier, or only the one asked for, each with its
    operations.  All orders are read before any operation. -/
def listActiveOrders (s : Store Q) (orderFilter : Option String) :
    Except StoreFault (List (Order Q × List (Operation Q))) := do
  let wanted := s.orders.filter fun r =>
    isActiveOrder r && (orderFilter.map fun id => (r .orderId).isText id).getD true
  let orders ← (sortedBy .orderId wanted).mapM Order.ofRow
  orders.mapM fun o => do
    let ops ← s.listOperations o.orderId
    .ok (o, ops)

/-! ### Release -/

/-- The row is that of an order that may be released. -/
def isDraft (orderId : String) (r : Row Order.Column Q) : Bool :=
  (r .orderId).isText orderId && (r .status).isText OrderStatus.draft.word

/-- Adds an operation to an order, which must exist. -/
def insertOperation (s : Store Q) (op : Operation Q) : Except StoreFault (Store Q) := do
  let rows ← orFault (Table.insert s.operations op.toRow)
  orFault (referring (leadsTo op.toRow .orderId s.orders .orderId) { s with operations := rows })

/-- Adds operations one after the other. -/
def insertOperations (s : Store Q) : List (Operation Q) → Except StoreFault (Store Q)
  | [] => .ok s
  | op :: ops => do
    let s ← s.insertOperation op
    s.insertOperations ops

/-- Releases an order that is still a draft, with its operations. -/
def releaseWithOperations (s : Store Q) (orderId : String) (ops : List (Operation Q))
    (releasedAt : Instant) : Except StoreFault (Store Q) := do
  let release (r : Row Order.Column Q) : Row Order.Column Q :=
    (r.set .status (.text OrderStatus.released.word)).set .releasedAt (.text releasedAt.write)
  let rows ← orFault (Table.updateWhere (isDraft orderId) release s.orders)
  if s.orders.any (isDraft orderId) then
    insertOperations { s with orders := rows } ops
  else .error (.concurrentModification "ProductionOrder" orderId)

/-! ### Execution -/

/-- The columns of an operation that its execution changes. -/
def executionColumns : List Operation.Column :=
  [.status, .actualSetupHours, .actualRunHours, .quantityComplete, .quantityScrapped,
    .actualStart, .actualEnd, .startedBy, .completedBy, .notes]

/-- The row with the execution record of an operation. -/
def recordExecution (op : Operation Q) (r : Row Operation.Column Q) : Row Operation.Column Q :=
  Row.ofCells fun c => if c ∈ executionColumns then op.toRow c else r c

/-- Writes the execution record of an operation, whose row must exist. -/
def writeExecution (s : Store Q) (op : Operation Q) : Except StoreFault (Store Q) := do
  let picks := Table.hasKey op.operationId
  let rows ← orFault (Table.updateWhere picks (recordExecution op) s.operations)
  if s.operations.any picks then .ok { s with operations := rows }
  else .error (.notFound "Operation" op.operationId)

/-- Writes the execution records of operations one after the other. -/
def writeExecutions (s : Store Q) : List (Operation Q) → Except StoreFault (Store Q)
  | [] => .ok s
  | op :: ops => do
    let s ← s.writeExecution op
    s.writeExecutions ops

/-- Writes what an action has changed: the execution records of operations, and the
    state of the order. -/
def applyTransition (s : Store Q) (o : Order Q) (changed : List (Operation Q)) :
    Except StoreFault (Store Q) := do
  let s ← s.writeExecutions changed
  let progress (r : Row Order.Column Q) : Row Order.Column Q :=
    (r.set .status (.text o.status.word)).set .completedAt
      (.ofText? (Field.ofInstant? o.completedAt))
  let rows ← orFault (Table.updateWhere (Table.hasKey o.orderId) progress s.orders)
  .ok { s with orders := rows }

/-! ### Scheduling -/

/-- The text in a cell lies between two texts. -/
def isBetween (low high : String) : Cell Q → Bool
  | .text s => decide (low ≤ s) && decide (s ≤ high)
  | _ => false

/-- The row takes hours in the window. -/
def isCommitted (windowStart windowEnd : Date) (r : Row Operation.Column Q) : Bool :=
  !(r .status).isText OperationStatus.complete.word &&
    isBetween (DateText.write windowStart) (DateText.write windowEnd) (r .scheduledStart)

/-- The hours that a row takes: setup and run, but not less than the minimum. -/
def committedHours (minHours : Q) (r : Row Operation.Column Q) : Option Q :=
  match (r .setupHours).value?, (r .runHours).value? with
  | some setup, some run =>
    let hours := setup + run
    if Quantity.isNaN hours || Quantity.isNaN minHours then none
    else some (if hours < minHours then minHours else hours)
  | _, _ => none

/-- The sum of the hours that there are, or nothing if there are none. -/
def sumHours (hours : List Q) : Cell Q :=
  if hours.isEmpty then .null
  else
    let total := Quantity.compensatedSum hours
    if Quantity.isNaN total then .null else .real total

/-- Adds a row to the group of its work center and start date. -/
def addToGroup (r : Row Operation.Column Q) :
    List (List (Row Operation.Column Q)) → List (List (Row Operation.Column Q))
  | [] => [[r]]
  | [] :: groups => addToGroup r groups
  | (g :: gs) :: groups =>
    if Cell.agrees (r .workCenterId) (g .workCenterId) &&
        Cell.agrees (r .scheduledStart) (g .scheduledStart) then
      (g :: gs ++ [r]) :: groups
    else (g :: gs) :: addToGroup r groups

/-- The order of groups: by work center, then by start date. -/
def groupLe (a b : List (Row Operation.Column Q)) : Bool :=
  match a, b with
  | r :: _, t :: _ =>
    if Cell.agrees (r .workCenterId) (t .workCenterId) then
      Cell.le (r .scheduledStart) (t .scheduledStart)
    else Cell.le (r .workCenterId) (t .workCenterId)
  | _, _ => true

/-- Reads a group of rows as a ledger entry. -/
def readGroup (minHours : Q) (group : List (Row Operation.Column Q)) :
    Except StoreFault (Option (LedgerEntry Q)) :=
  match group with
  | [] => .ok none
  | r :: _ => do
    match ← r.date .scheduledStart 1 with
    | none => .error (Field.wrongType "scheduled_start" (.null : Cell Q))
    | some date =>
      let workCenterId ← r.text .workCenterId
      let hours ← Field.quantity "hours" (sumHours (group.filterMap (committedHours minHours)))
      .ok (some ⟨workCenterId, date, hours⟩)

/-- The hours committed in a window, by work center and start date. -/
def loadLedgerEntries (s : Store Q) (windowStart windowEnd : Date) (minHours : Q) :
    Except StoreFault (List (LedgerEntry Q)) := do
  let rows := s.operations.filter (isCommitted windowStart windowEnd)
  let groups := (rows.foldl (fun gs r => addToGroup r gs) []).mergeSort groupLe
  let entries ← groups.mapM (readGroup minHours)
  .ok (entries.filterMap id)

/-- The dates of an operation can be written: it has none, and no other process is
    about to write them. -/
def isOpen (s : Store Q) (operationId : String) (r : Row Operation.Column Q) : Bool :=
  (r .operationId).isText operationId && (r .scheduledStart).isNull &&
    !s.disputed.contains operationId

/-- The row with the dates of a placement. -/
def withDates (start stop : Date) (r : Row Operation.Column Q) : Row Operation.Column Q :=
  (r.set .scheduledStart (.text (DateText.write start))).set .scheduledEnd
    (.text (DateText.write stop))

/-- Writes the dates of one operation, if it has none; tells whether it did. -/
def writeDates (s : Store Q) (operationId : String) (start stop : Date) : Store Q × Bool :=
  if s.operations.any (s.isOpen operationId) then
    ({ s with operations := s.operations.map fun r =>
        if s.isOpen operationId r then withDates start stop r else r }, true)
  else (s, false)

/-- Writes the dates of operations; gives those that had dates already. -/
def writeSchedule (s : Store Q) : List (String × Date × Date) → Store Q × List String
  | [] => (s, [])
  | (id, start, stop) :: rest =>
    let (s, written) := s.writeDates id start stop
    let (s, rejected) := s.writeSchedule rest
    (s, if written then rejected else id :: rejected)

/-- The row is that of an operation of the order that has not begun. -/
def isUnstarted (orderId : String) (r : Row Operation.Column Q) : Bool :=
  (r .orderId).isText orderId &&
    ((r .status).isText OperationStatus.pending.word ||
      (r .status).isText OperationStatus.ready.word)

/-- Takes the dates from the operations of an order that have not begun; gives the work
    centers where a start date was, ascending. -/
def clearSchedule (s : Store Q) (orderId : String) : Except StoreFault (Store Q × List String) := do
  let scheduled := s.operations.filter fun r =>
    isUnstarted orderId r && !(r .scheduledStart).isNull
  let centers ← scheduled.mapM fun r => r.text .workCenterId
  let rows := s.operations.map fun r =>
    if isUnstarted orderId r then (r.set .scheduledStart .null).set .scheduledEnd .null else r
  .ok ({ s with operations := rows }, Text.ascending centers)

end Workshop.Store
