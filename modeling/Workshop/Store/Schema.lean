/-
  Workshop/Store/Schema.lean
  ==========================
  **The tables of the shop floor.**  Eight tables hold the master data, the orders and
  their operations.  The columns of each are the values of a type, in the order in
  which they stand in the table.  A unique key on other columns is checked before the
  one on the key column.

  Nothing reads the time at which a row was last changed: its column keeps what it held
  when the row came, and no write moves it.
-/
import Workshop.MasterData
import Workshop.Order
import Workshop.Store.Table

namespace Workshop

/-! ### Work centers -/

/-- The columns of work centers. -/
inductive WorkCenter.Column where
  | workCenterId
  | code
  | name
  | capacityHoursPerDay
  | efficiencyFactor
  | availabilityRate
  | isActive
  | updatedAt
deriving DecidableEq, Repr

open ColumnSpec in
instance : Table WorkCenter.Column where
  name := "work_center"
  columns :=
    [.workCenterId, .code, .name, .capacityHoursPerDay, .efficiencyFactor,
      .availabilityRate, .isActive, .updatedAt]
  spec
    | .workCenterId => optional "work_center_id" .text
    | .code => mandatory "code" .text
    | .name => mandatory "name" .text
    | .capacityHoursPerDay => numbered "capacity_hours_per_day" .real 8
    | .efficiencyFactor => numbered "efficiency_factor" .real 1
    | .availabilityRate => numbered "availability_rate" .real 100
    | .isActive => numbered "is_active" .integer 1
    | .updatedAt => worded "updated_at" "now"
  key := .workCenterId
  uniqueKeys := [[.code], [.workCenterId]]

/-! ### Parts -/

/-- The columns of parts. -/
inductive Part.Column where
  | partId
  | partNumber
  | name
  | kind
deriving DecidableEq, Repr

open ColumnSpec in
instance : Table Part.Column where
  name := "part"
  columns :=
    [.partId, .partNumber, .name, .kind]
  spec
    | .partId => optional "part_id" .text
    | .partNumber => mandatory "part_number" .text
    | .name => mandatory "name" .text
    | .kind => worded "part_type" "MANUFACTURED"
  key := .partId
  uniqueKeys := [[.partNumber], [.partId]]

/-! ### Bills of material -/

/-- The columns of bills of material. -/
inductive Bom.Column where
  | bomId
  | partId
  | revision
  | isActive
deriving DecidableEq, Repr

open ColumnSpec in
instance : Table Bom.Column where
  name := "bom"
  columns :=
    [.bomId, .partId, .revision, .isActive]
  spec
    | .bomId => optional "bom_id" .text
    | .partId => mandatory "part_id" .text
    | .revision => worded "revision" "A"
    | .isActive => numbered "is_active" .integer 1
  key := .bomId
  uniqueKeys := [[.bomId]]

/-! ### Lines of bills of material -/

/-- The columns of lines of bills of material. -/
inductive BomItem.Column where
  | lineId
  | bomId
  | itemNumber
  | componentPartId
  | quantityPer
deriving DecidableEq, Repr

open ColumnSpec in
instance : Table BomItem.Column where
  name := "bom_item"
  columns :=
    [.lineId, .bomId, .itemNumber, .componentPartId, .quantityPer]
  spec
    | .lineId => optional "line_id" .integer
    | .bomId => mandatory "bom_id" .text
    | .itemNumber => mandatory "item_number" .integer
    | .componentPartId => mandatory "component_part_id" .text
    | .quantityPer => numbered "quantity_per" .real 1
  key := .lineId
  uniqueKeys := [[.lineId]]

/-! ### Routings -/

/-- The columns of routings. -/
inductive Routing.Column where
  | routingId
  | partId
  | revision
  | status
deriving DecidableEq, Repr

open ColumnSpec in
instance : Table Routing.Column where
  name := "routing"
  columns :=
    [.routingId, .partId, .revision, .status]
  spec
    | .routingId => optional "routing_id" .text
    | .partId => mandatory "part_id" .text
    | .revision => worded "revision" "A"
    | .status => worded "status" "DRAFT"
  key := .routingId
  uniqueKeys := [[.routingId]]

/-! ### Steps of routings -/

/-- The columns of steps of routings. -/
inductive RoutingOperation.Column where
  | routingOperationId
  | routingId
  | sequence
  | workCenterId
  | name
  | description
  | setupHours
  | runHoursPerUnit
  | isInspectionPoint
deriving DecidableEq, Repr

open ColumnSpec in
instance : Table RoutingOperation.Column where
  name := "routing_operation"
  columns :=
    [.routingOperationId, .routingId, .sequence, .workCenterId, .name, .description,
      .setupHours, .runHoursPerUnit, .isInspectionPoint]
  spec
    | .routingOperationId => optional "routing_operation_id" .text
    | .routingId => mandatory "routing_id" .text
    | .sequence => mandatory "sequence" .integer
    | .workCenterId => mandatory "work_center_id" .text
    | .name => mandatory "name" .text
    | .description => optional "description" .text
    | .setupHours => numbered "setup_hours" .real 0
    | .runHoursPerUnit => numbered "run_hours_per_unit" .real 0
    | .isInspectionPoint => numbered "is_inspection_point" .integer 0
  key := .routingOperationId
  uniqueKeys := [[.routingOperationId]]

/-! ### Production orders -/

/-- The columns of production orders. -/
inductive Order.Column where
  | orderId
  | orderNumber
  | partId
  | quantityOrdered
  | status
  | priority
  | dueDate
  | releasedAt
  | completedAt
  | updatedAt
deriving DecidableEq, Repr

open ColumnSpec in
instance : Table Order.Column where
  name := "production_order"
  columns :=
    [.orderId, .orderNumber, .partId, .quantityOrdered, .status, .priority, .dueDate,
      .releasedAt, .completedAt, .updatedAt]
  spec
    | .orderId => optional "order_id" .text
    | .orderNumber => mandatory "order_number" .text
    | .partId => mandatory "part_id" .text
    | .quantityOrdered => mandatory "quantity_ordered" .real
    | .status => worded "status" "DRAFT"
    | .priority => numbered "priority" .integer 5
    | .dueDate => optional "due_date" .text
    | .releasedAt => optional "released_at" .text
    | .completedAt => optional "completed_at" .text
    | .updatedAt => worded "updated_at" "now"
  key := .orderId
  uniqueKeys := [[.orderNumber], [.orderId]]

/-! ### Operations of production orders -/

/-- The columns of operations of production orders. -/
inductive Operation.Column where
  | operationId
  | orderId
  | sequence
  | componentPartId
  | operationGroup
  | workCenterId
  | name
  | description
  | isInspection
  | setupHours
  | runHours
  | actualSetupHours
  | actualRunHours
  | quantityComplete
  | quantityScrapped
  | status
  | scheduledStart
  | scheduledEnd
  | actualStart
  | actualEnd
  | startedBy
  | completedBy
  | notes
deriving DecidableEq, Repr

open ColumnSpec in
instance : Table Operation.Column where
  name := "production_operation"
  columns :=
    [.operationId, .orderId, .sequence, .componentPartId, .operationGroup, .workCenterId,
      .name, .description, .isInspection, .setupHours, .runHours, .actualSetupHours,
      .actualRunHours, .quantityComplete, .quantityScrapped, .status, .scheduledStart,
      .scheduledEnd, .actualStart, .actualEnd, .startedBy, .completedBy, .notes]
  spec
    | .operationId => optional "operation_id" .text
    | .orderId => mandatory "order_id" .text
    | .sequence => mandatory "sequence" .integer
    | .componentPartId => optional "component_part_id" .text
    | .operationGroup => optional "operation_group" .text
    | .workCenterId => mandatory "work_center_id" .text
    | .name => mandatory "name" .text
    | .description => optional "description" .text
    | .isInspection => numbered "is_inspection" .integer 0
    | .setupHours => numbered "setup_hours" .real 0
    | .runHours => numbered "run_hours" .real 0
    | .actualSetupHours => numbered "actual_setup_hours" .real 0
    | .actualRunHours => numbered "actual_run_hours" .real 0
    | .quantityComplete => numbered "quantity_complete" .real 0
    | .quantityScrapped => numbered "quantity_scrapped" .real 0
    | .status => worded "status" "PENDING"
    | .scheduledStart => optional "scheduled_start" .text
    | .scheduledEnd => optional "scheduled_end" .text
    | .actualStart => optional "actual_start" .text
    | .actualEnd => optional "actual_end" .text
    | .startedBy => optional "started_by" .text
    | .completedBy => optional "completed_by" .text
    | .notes => optional "notes" .text
  key := .operationId
  uniqueKeys := [[.orderId, .sequence], [.operationId]]

end Workshop
