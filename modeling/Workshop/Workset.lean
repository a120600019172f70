/-
  Workshop/Workset.lean
  =====================
  **Execution of an order.**  A workset is an order with its operations.  Actions on
  operations move them between states, record what was done, and carry the order
  along: the first start puts it in progress, and the last completion completes it.

    * only an operation of the active wave may start;
    * when a wave is complete, the waiting operations of the next are made ready;
    * a reported quantity is finite, not negative and at most the ordered quantity;
      the operation is complete when it is not below it.

  Every action either returns a new workset with its outcome or a fault, and a fault
  leaves nothing changed.
-/
import Workshop.Fault
import Workshop.Text.Ascending
import Workshop.Wave

namespace Workshop

/-- What is reported with an action; quantities are totals so far, hours are added. -/
structure Report (Q : Type) where
  actor : Option String
  quantityComplete : Option Q
  quantityScrapped : Option Q
  setupHours : Option Q
  runHours : Option Q
  notes : Option String

/-- What an action has done. -/
structure Outcome where
  operationId : String
  action : Action
  previousStatus : OperationStatus
  newStatus : OperationStatus
  releasedOperationIds : List String
  orderStatusChange : Option (OrderStatus × OrderStatus)
  affectedWorkCenters : List String
deriving DecidableEq, Repr

/-- An order with its operations. -/
structure Workset (Q : Type) where
  order : Order Q
  operations : List (Operation Q)

variable {Q : Type} [Quantity Q]

/-- Notes are added as lines below the earlier ones, without the blanks around them;
    empty notes add nothing. -/
def Operation.addNotes (op : Operation Q) (notes : Option String) : Operation Q :=
  let added := Text.trim (notes.getD "")
  if added = "" then op
  else
    match op.notes with
    | some existing =>
      if existing = "" then { op with notes := some added }
      else { op with notes := some (existing ++ "\n" ++ added) }
    | none => { op with notes := some added }

/-- A reported number is finite, not negative, and at most a limit if there is one. -/
def validateQuantity (field : String) (value : Q) (limit : Option Q) : Except (Fault Q) Unit :=
  if Quantity.isFinite value = false then .error (.invalidQuantity field value "必须为有限数")
  else if value < Quantity.zero then .error (.invalidQuantity field value "不能为负数")
  else
    match limit with
    | some most =>
      if most < value then
        .error (.invalidQuantity field value ("超过订单数量 " ++ Quantity.text most))
      else .ok ()
    | none => .ok ()

/-- A number that need not be reported is checked when it is. -/
def validateReported (field : String) : Option Q → Except (Fault Q) Unit
  | some value => validateQuantity field value none
  | none => .ok ()

/-- The state after an action, or the refusal of the action in this state. -/
def OperationStatus.after (s : OperationStatus) (a : Action) :
    Except (Fault Q) OperationStatus :=
  match s.after? a with
  | some next => .ok next
  | none => .error (.invalidStateTransition s.word a.word)

namespace Workset

/-- A workset with its operations in the order of their sequence numbers. -/
def ofOperations (order : Order Q) (operations : List (Operation Q)) : Workset Q :=
  ⟨order, operations.mergeSort fun a b => decide (a.sequence ≤ b.sequence)⟩

/-- The first operation with an identifier. -/
def operation? (w : Workset Q) (operationId : String) : Option (Operation Q) :=
  w.operations.find? (·.operationId == operationId)

/-- The first operation with an identifier, which must belong to the order. -/
def locate (w : Workset Q) (operationId : String) : Except (Fault Q) (Operation Q) :=
  match w.operation? operationId with
  | some op => .ok op
  | none => .error (.operationNotInOrder operationId w.order.orderId)

/-- Puts an operation in the place of the first one with an identifier. -/
def replaceFirst (operationId : String) (new : Operation Q) :
    List (Operation Q) → List (Operation Q)
  | [] => []
  | op :: ops =>
    if op.operationId = operationId then new :: ops
    else op :: replaceFirst operationId new ops

/-- The workset with an operation replaced. -/
def setOperation (w : Workset Q) (operationId : String) (new : Operation Q) : Workset Q :=
  { w with operations := replaceFirst operationId new w.operations }

/-- The waves of the operations. -/
def waves (w : Workset Q) : WaveIndex := WaveIndex.build w.operations

/-- Execution goes on only while the order is released or in progress. -/
def ensureActive (w : Workset Q) : Except (Fault Q) Unit :=
  if w.order.status.isSchedulable then .ok ()
  else .error (.orderNotActive w.order.orderId w.order.status.word)

/-! ### Release of the active wave -/

/-- The operation waits and belongs to the wave. -/
def awaits (key : String) (op : Operation Q) : Bool :=
  op.groupKey == key && op.status == .pending

/-- Makes the waiting operations of the active wave ready; the result names them. -/
def releaseActiveWave (w : Workset Q) : Workset Q × List String :=
  match w.waves.activeWave with
  | none => (w, [])
  | some key =>
    ({ w with operations := w.operations.map fun op =>
        if awaits key op then { op with status := .ready } else op },
      (w.operations.filter (awaits key)).map (·.operationId))

/-! ### Actions -/

/-- Starts an operation of the active wave; the first start is the one recorded. -/
def start (w : Workset Q) (operationId : String) (report : Report Q) (now : Instant) :
    Except (Fault Q) (Workset Q × Outcome) := do
  let op ← w.locate operationId
  w.ensureActive
  let next ← op.status.after .start
  let index := w.waves
  if index.activeWave ≠ some op.groupKey then
    match op.operationGroup with
    | none =>
      .error (.predecessorIncomplete op.sequence (index.firstIncompleteSequence.getD op.sequence))
    | some group => .error (.groupNotReleased group (index.activeWave.getD ""))
  else
    let begun : Operation Q :=
      if op.actualStart.isNone then
        { op with status := next, actualStart := some now, startedBy := report.actor }
      else { op with status := next }
    let w := w.setOperation operationId (begun.addNotes report.notes)
    let first := w.order.status == .released
    let w := if first then { w with order := { w.order with status := .inProgress } } else w
    .ok (w,
      { operationId := operationId
        action := .start
        previousStatus := op.status
        newStatus := next
        releasedOperationIds := []
        orderStatusChange := if first then some (.released, .inProgress) else none
        affectedWorkCenters := [op.workCenterId] })

/-- What follows when an operation has become complete: the order is complete, or the
    next wave is released, or neither.  Gives the identifiers of the operations made
    ready and the change of the order's state. -/
def settle (w : Workset Q) (key : String) (now : Instant) :
    Workset Q × List String × Option (OrderStatus × OrderStatus) :=
  let index := w.waves
  if index.allComplete then
    ({ w with order := { w.order with status := .complete, completedAt := some now } }, [],
      some (w.order.status, .complete))
  else if index.isWaveComplete key then
    let (w, released) := w.releaseActiveWave
    (w, released, none)
  else (w, [], none)

/-- The numbers of a completion report, checked in this order: pieces made, pieces
    scrapped, setup hours, run hours.  Gives the pieces made. -/
def checkReport (w : Workset Q) (report : Report Q) : Except (Fault Q) Q := do
  match report.quantityComplete with
  | none =>
    .error (.invalidQuantity "quantity_complete" Quantity.undefined "缺少完工数量")
  | some quantity =>
    validateQuantity "quantity_complete" quantity (some w.order.quantityOrdered)
    validateReported "quantity_scrapped" report.quantityScrapped
    validateReported "setup_hours" report.setupHours
    validateReported "run_hours" report.runHours
    .ok quantity

/-- The operation with a completion report entered on it. -/
def enter (op : Operation Q) (quantity : Q) (report : Report Q) : Operation Q :=
  { op with
      actualSetupHours := op.actualSetupHours + report.setupHours.getD Quantity.zero
      actualRunHours := op.actualRunHours + report.runHours.getD Quantity.zero
      quantityComplete := quantity
      quantityScrapped := report.quantityScrapped.getD op.quantityScrapped }.addNotes report.notes

/-- Reports pieces made; the operation is complete when all that were ordered are. -/
def complete (w : Workset Q) (operationId : String) (report : Report Q) (now : Instant) :
    Except (Fault Q) (Workset Q × Outcome) := do
  let op ← w.locate operationId
  w.ensureActive
  let quantity ← w.checkReport report
  let _ ← op.status.after .complete
  let entered := enter op quantity report
  if quantity < w.order.quantityOrdered then
    .ok (w.setOperation operationId entered,
      { operationId := operationId
        action := .complete
        previousStatus := op.status
        newStatus := op.status
        releasedOperationIds := []
        orderStatusChange := none
        affectedWorkCenters := [] })
  else
    let done : Operation Q :=
      { entered with status := .complete, actualEnd := some now, completedBy := report.actor }
    let (w, released, change) := (w.setOperation operationId done).settle op.groupKey now
    let centers := released.filterMap fun id => (w.operation? id).map (·.workCenterId)
    .ok (w,
      { operationId := operationId
        action := .complete
        previousStatus := op.status
        newStatus := .complete
        releasedOperationIds := released
        orderStatusChange := change
        affectedWorkCenters := Text.ascending (op.workCenterId :: centers) })

/-- The outcome of an action that changes only the state of one operation. -/
def plainOutcome (operationId : String) (action : Action) (before after : OperationStatus) :
    Outcome :=
  { operationId := operationId
    action := action
    previousStatus := before
    newStatus := after
    releasedOperationIds := []
    orderStatusChange := none
    affectedWorkCenters := [] }

/-- Puts an operation on hold. -/
def hold (w : Workset Q) (operationId : String) (report : Report Q) :
    Except (Fault Q) (Workset Q × Outcome) := do
  let op ← w.locate operationId
  let next ← op.status.after .hold
  let held := { op with status := next }.addNotes report.notes
  .ok (w.setOperation operationId held, plainOutcome operationId .hold op.status next)

/-- The state to which a held operation returns: in progress if it had begun, ready in
    the active wave, and waiting otherwise. -/
def resumed (w : Workset Q) (op : Operation Q) : OperationStatus :=
  if op.hasStarted then .inProgress
  else if w.waves.activeWave = some op.groupKey then .ready
  else .pending

/-- Takes an operation off hold. -/
def resume (w : Workset Q) (operationId : String) (report : Report Q) :
    Except (Fault Q) (Workset Q × Outcome) := do
  let op ← w.locate operationId
  let _ ← op.status.after .resume
  let next := w.resumed op
  let back := { op with status := next }.addNotes report.notes
  .ok (w.setOperation operationId back, plainOutcome operationId .resume op.status next)

/-- Carries out an action on an operation. -/
def apply (w : Workset Q) (operationId : String) (action : Action) (report : Report Q)
    (now : Instant) : Except (Fault Q) (Workset Q × Outcome) :=
  match action with
  | .start => w.start operationId report now
  | .complete => w.complete operationId report now
  | .hold => w.hold operationId report
  | .resume => w.resume operationId report

end Workset

end Workshop
