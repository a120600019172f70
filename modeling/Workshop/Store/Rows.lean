/-
  Workshop/Store/Rows.lean
  ========================
  **Rows and what they stand for.**  `ofRow` reads a row of each table, column by column
  in a fixed order, and reports the first that cannot be read; `toRow` writes an order
  or an operation as the row that reads back as it.
-/
import Workshop.Store.Field
import Workshop.Store.Schema

namespace Workshop

variable {Q : Type} [Quantity Q]

namespace Row

variable {C : Type} [DecidableEq C] [Table C]

/-- The text in a column. -/
def text (r : Row C Q) (c : C) : Except StoreFault String :=
  Field.text (Table.columnName c) (r c)

/-- The text in a column that may be empty. -/
def text? (r : Row C Q) (c : C) : Except StoreFault (Option String) :=
  Field.text? (Table.columnName c) (r c)

/-- The quantity in a column. -/
def quantity (r : Row C Q) (c : C) : Except StoreFault Q :=
  Field.quantity (Table.columnName c) (r c)

/-- The whole number in a column. -/
def whole (r : Row C Q) (c : C) : Except StoreFault Int :=
  Field.whole (Table.columnName c) (r c)

/-- The whole number in a column, of at most 32 bits. -/
def number (r : Row C Q) (c : C) (place : Nat) : Except StoreFault Int :=
  Field.number (Table.columnName c) place (r c)

/-- The yes or no in a column. -/
def flag (r : Row C Q) (c : C) : Except StoreFault Bool :=
  Field.flag (Table.columnName c) (r c)

/-- The date in a column. -/
def date (r : Row C Q) (c : C) (place : Nat) : Except StoreFault (Option Date) := do
  Field.date place (← r.text? c)

/-- The instant in a column. -/
def instant (r : Row C Q) (c : C) (place : Nat) : Except StoreFault (Option Instant) := do
  Field.instant place (← r.text? c)

end Row

/-! ### Master data -/

/-- Reads a row of the parts. -/
def Part.ofRow (r : Row Part.Column Q) : Except StoreFault Part := do
  let partId ← r.text .partId
  let partNumber ← r.text .partNumber
  let name ← r.text .name
  let kind ← r.text .kind
  .ok ⟨partId, partNumber, name, PartKind.read kind⟩

/-- Reads a row of the bills of material. -/
def Bom.ofRow (r : Row Bom.Column Q) : Except StoreFault Bom := do
  let bomId ← r.text .bomId
  let partId ← r.text .partId
  let revision ← r.text .revision
  let isActive ← r.flag .isActive
  .ok ⟨bomId, partId, revision, isActive⟩

/-- Reads a row of the lines of bills of material. -/
def BomItem.ofRow (r : Row BomItem.Column Q) : Except StoreFault (BomItem Q) := do
  let lineId ← r.whole .lineId
  let bomId ← r.text .bomId
  let itemNumber ← r.number .itemNumber 2
  let componentPartId ← r.text .componentPartId
  let quantityPer ← r.quantity .quantityPer
  .ok ⟨lineId, bomId, itemNumber, componentPartId, quantityPer⟩

/-- Reads a row of the routings. -/
def Routing.ofRow (r : Row Routing.Column Q) : Except StoreFault Routing := do
  let routingId ← r.text .routingId
  let partId ← r.text .partId
  let revision ← r.text .revision
  let status ← r.text .status
  .ok ⟨routingId, partId, revision, RoutingStatus.read status⟩

/-- Reads a row of the steps of routings. -/
def RoutingOperation.ofRow (r : Row RoutingOperation.Column Q) :
    Except StoreFault (RoutingOperation Q) := do
  let routingOperationId ← r.text .routingOperationId
  let routingId ← r.text .routingId
  let sequence ← r.number .sequence 2
  let workCenterId ← r.text .workCenterId
  let name ← r.text .name
  let description ← r.text? .description
  let setupHours ← r.quantity .setupHours
  let runHoursPerUnit ← r.quantity .runHoursPerUnit
  let isInspectionPoint ← r.flag .isInspectionPoint
  .ok ⟨routingOperationId, routingId, sequence, workCenterId, name, description, setupHours,
    runHoursPerUnit, isInspectionPoint⟩

/-- Reads a row of the work centers. -/
def WorkCenter.ofRow (r : Row WorkCenter.Column Q) : Except StoreFault (WorkCenter Q) := do
  let workCenterId ← r.text .workCenterId
  let code ← r.text .code
  let name ← r.text .name
  let capacityHoursPerDay ← r.quantity .capacityHoursPerDay
  let efficiencyFactor ← r.quantity .efficiencyFactor
  let availabilityRate ← r.quantity .availabilityRate
  let isActive ← r.flag .isActive
  .ok ⟨workCenterId, code, name, capacityHoursPerDay, efficiencyFactor, availabilityRate,
    isActive⟩

/-! ### Orders -/

/-- Reads a row of the production orders. -/
def Order.ofRow (r : Row Order.Column Q) : Except StoreFault (Order Q) := do
  let orderId ← r.text .orderId
  let orderNumber ← r.text .orderNumber
  let partId ← r.text .partId
  let quantityOrdered ← r.quantity .quantityOrdered
  let status ← Field.orderStatus 4 (← r.text .status)
  let priority ← r.number .priority 5
  let dueDate ← r.date .dueDate 6
  let releasedAt ← r.instant .releasedAt 7
  let completedAt ← r.instant .completedAt 8
  .ok ⟨orderId, orderNumber, partId, quantityOrdered, status, priority, dueDate, releasedAt,
    completedAt⟩

/-- The row of a production order. -/
def Order.toRow (o : Order Q) : Row Order.Column Q :=
  Row.ofCells fun
    | .orderId => .text o.orderId
    | .orderNumber => .text o.orderNumber
    | .partId => .text o.partId
    | .quantityOrdered => .ofQuantity o.quantityOrdered
    | .status => .text o.status.word
    | .priority => .integer o.priority
    | .dueDate => .ofText? (Field.ofDate? o.dueDate)
    | .releasedAt => .ofText? (Field.ofInstant? o.releasedAt)
    | .completedAt => .ofText? (Field.ofInstant? o.completedAt)
    | .updatedAt => Table.initialCell Order.Column.updatedAt

/-- Reads a row of the operations of production orders. -/
def Operation.ofRow (r : Row Operation.Column Q) : Except StoreFault (Operation Q) := do
  let operationId ← r.text .operationId
  let orderId ← r.text .orderId
  let sequence ← r.number .sequence 2
  let componentPartId ← r.text? .componentPartId
  let operationGroup ← r.text? .operationGroup
  let workCenterId ← r.text .workCenterId
  let name ← r.text .name
  let description ← r.text? .description
  let isInspection ← r.flag .isInspection
  let setupHours ← r.quantity .setupHours
  let runHours ← r.quantity .runHours
  let actualSetupHours ← r.quantity .actualSetupHours
  let actualRunHours ← r.quantity .actualRunHours
  let quantityComplete ← r.quantity .quantityComplete
  let quantityScrapped ← r.quantity .quantityScrapped
  let status ← Field.operationStatus 15 (← r.text .status)
  let scheduledStart ← r.date .scheduledStart 16
  let scheduledEnd ← r.date .scheduledEnd 17
  let actualStart ← r.instant .actualStart 18
  let actualEnd ← r.instant .actualEnd 19
  let startedBy ← r.text? .startedBy
  let completedBy ← r.text? .completedBy
  let notes ← r.text? .notes
  .ok
    { operationId := operationId
      orderId := orderId
      sequence := sequence
      componentPartId := componentPartId
      operationGroup := operationGroup
      workCenterId := workCenterId
      name := name
      description := description
      isInspection := isInspection
      setupHours := setupHours
      runHours := runHours
      actualSetupHours := actualSetupHours
      actualRunHours := actualRunHours
      quantityComplete := quantityComplete
      quantityScrapped := quantityScrapped
      status := status
      scheduledStart := scheduledStart
      scheduledEnd := scheduledEnd
      actualStart := actualStart
      actualEnd := actualEnd
      startedBy := startedBy
      completedBy := completedBy
      notes := notes }

/-- The row of an operation. -/
def Operation.toRow (op : Operation Q) : Row Operation.Column Q :=
  Row.ofCells fun
    | .operationId => .text op.operationId
    | .orderId => .text op.orderId
    | .sequence => .integer op.sequence
    | .componentPartId => .ofText? op.componentPartId
    | .operationGroup => .ofText? op.operationGroup
    | .workCenterId => .text op.workCenterId
    | .name => .text op.name
    | .description => .ofText? op.description
    | .isInspection => .ofBool op.isInspection
    | .setupHours => .ofQuantity op.setupHours
    | .runHours => .ofQuantity op.runHours
    | .actualSetupHours => .ofQuantity op.actualSetupHours
    | .actualRunHours => .ofQuantity op.actualRunHours
    | .quantityComplete => .ofQuantity op.quantityComplete
    | .quantityScrapped => .ofQuantity op.quantityScrapped
    | .status => .text op.status.word
    | .scheduledStart => .ofText? (Field.ofDate? op.scheduledStart)
    | .scheduledEnd => .ofText? (Field.ofDate? op.scheduledEnd)
    | .actualStart => .ofText? (Field.ofInstant? op.actualStart)
    | .actualEnd => .ofText? (Field.ofInstant? op.actualEnd)
    | .startedBy => .ofText? op.startedBy
    | .completedBy => .ofText? op.completedBy
    | .notes => .ofText? op.notes

end Workshop
