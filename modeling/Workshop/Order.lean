/-
  Workshop/Order.lean
  ===================
  **Production orders and their operations.**  An order asks for a quantity of a part;
  its operations are the steps of making it, each with a sequence number, a work
  center, planned hours and what has been reported on it.

  Operations are released in waves.  The wave of an operation is its group, and an
  operation without a group is a wave of its own (`Operation.groupKey`).
-/
import Workshop.Calendar.Instant
import Workshop.Quantity.Basic
import Workshop.Status

namespace Workshop

/-- An order for a quantity of a part. -/
structure Order (Q : Type) where
  orderId : String
  orderNumber : String
  partId : String
  quantityOrdered : Q
  status : OrderStatus
  priority : Int
  dueDate : Option Date
  releasedAt : Option Instant
  completedAt : Option Instant

/-- A step in the making of an order. -/
structure Operation (Q : Type) where
  operationId : String
  orderId : String
  sequence : Int
  componentPartId : Option String
  operationGroup : Option String
  workCenterId : String
  name : String
  description : Option String
  isInspection : Bool
  setupHours : Q
  runHours : Q
  actualSetupHours : Q
  actualRunHours : Q
  quantityComplete : Q
  quantityScrapped : Q
  status : OperationStatus
  scheduledStart : Option Date
  scheduledEnd : Option Date
  actualStart : Option Instant
  actualEnd : Option Instant
  startedBy : Option String
  completedBy : Option String
  notes : Option String

/-- A step that an explosion proposes for an order. -/
structure Draft (Q : Type) where
  sequence : Int
  componentPartId : Option String
  operationGroup : Option String
  workCenterId : String
  name : String
  description : Option String
  isInspection : Bool
  setupHours : Q
  runHours : Q

variable {Q : Type} [Quantity Q]

namespace Operation

/-- The wave of an operation: its group, or its own sequence number after `#`. -/
def groupKey (op : Operation Q) : String :=
  match op.operationGroup with
  | some group => group
  | none => "#" ++ toString op.sequence

/-- The hours that a placement books: setup and run, but not less than a minimum. -/
def hoursNeeded (op : Operation Q) (minHours : Q) : Q :=
  Quantity.larger (op.setupHours + op.runHours) minHours

/-- All of the quantity has been reported. -/
def isComplete (op : Operation Q) : Bool := op.status == .complete

/-- The operation has begun at some time, whatever its state is now. -/
def hasStarted (op : Operation Q) : Bool := op.actualStart.isSome

end Operation

/-- The operation that a draft becomes, waiting and with nothing reported on it. -/
def Draft.toOperation (d : Draft Q) (orderId operationId : String) : Operation Q where
  operationId := operationId
  orderId := orderId
  sequence := d.sequence
  componentPartId := d.componentPartId
  operationGroup := d.operationGroup
  workCenterId := d.workCenterId
  name := d.name
  description := d.description
  isInspection := d.isInspection
  setupHours := d.setupHours
  runHours := d.runHours
  actualSetupHours := Quantity.zero
  actualRunHours := Quantity.zero
  quantityComplete := Quantity.zero
  quantityScrapped := Quantity.zero
  status := .pending
  scheduledStart := none
  scheduledEnd := none
  actualStart := none
  actualEnd := none
  startedBy := none
  completedBy := none
  notes := none

end Workshop
