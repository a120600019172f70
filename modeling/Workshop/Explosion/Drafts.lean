/-
  Workshop/Explosion/Drafts.lean
  ==============================
  **Explosion of an order into operations.**  A part without an active bill of material
  is made by its own released routing.  An assembly takes, for each line of its bill of
  material, the operations of the component's released routing, as a wave named by the
  component's part number; its own operations follow, those that are no inspection as
  one wave and the inspections as the last.

  Lines are taken by item number and line, operations by sequence number and
  identifier, and the drafts are numbered 10, 20, 30 and so on.
-/
import Workshop.Explosion.Source
import Workshop.Order

namespace Workshop

/-- The settings of explosion. -/
structure ExplosionSettings where
  maxGroupKeyLength : Nat
  inspectionKeywords : List String
deriving DecidableEq, Repr

namespace ExplosionSettings

/-- The words by which inspections are known when none are set. -/
def standardKeywords : List String := ["inspect", "inspection", "qc", "quality", "cmm"]

/-- The settings when none are made. -/
def standard : ExplosionSettings := ⟨50, standardKeywords⟩

end ExplosionSettings

namespace Explosion

variable {Q : Type} [Quantity Q]

/-- The wave of an assembly's own operations. -/
def assemblyGroup : String := "ASSEMBLY"

/-- The wave of an assembly's inspections. -/
def inspectGroup : String := "INSPECT"

/-- A text begins with another. -/
def beginsWith : List Char → List Char → Bool
  | _, [] => true
  | [], _ :: _ => false
  | a :: as, b :: bs => a == b && beginsWith as bs

/-- A text holds another somewhere. -/
def holds (text part : List Char) : Bool :=
  beginsWith text part ||
    match text with
    | [] => false
    | _ :: rest => holds rest part

/-- A text names an inspection: it holds a keyword, letter case aside. -/
def matchesKeyword (settings : ExplosionSettings) (text : String) : Bool :=
  let text := (Text.lower text).toList
  settings.inspectionKeywords.any fun k => k != "" && holds text (Text.lower k).toList

/-- An operation is an inspection when it is marked as one, or when its name, its
    description or the name of its work center says so. -/
def isInspection (settings : ExplosionSettings) (source : MasterSource Q)
    (op : RoutingOperation Q) : Except (Fault Q) Bool :=
  if op.isInspectionPoint || matchesKeyword settings op.name ||
      (op.description.map (matchesKeyword settings)).getD false then .ok true
  else
    match source.workCenter op.workCenterId with
    | .error e => .error e
    | .ok wc => .ok ((wc.map fun w => matchesKeyword settings w.name).getD false)

/-- The first characters of a group key. -/
def truncateGroupKey (key : String) (maxLength : Nat) : String :=
  String.ofList (key.toList.take maxLength)

/-- Operations by sequence number, then by identifier. -/
def sortedOperations (ops : List (RoutingOperation Q)) : List (RoutingOperation Q) :=
  ops.mergeSort fun a b =>
    decide (a.sequence < b.sequence) ||
      (a.sequence == b.sequence && decide (a.routingOperationId ≤ b.routingOperationId))

/-- Lines by item number, then by line. -/
def sortedItems (items : List (BomItem Q)) : List (BomItem Q) :=
  items.mergeSort fun a b =>
    decide (a.itemNumber < b.itemNumber) ||
      (a.itemNumber == b.itemNumber && decide (a.lineId ≤ b.lineId))

/-- The draft of a routing operation for a quantity, not yet numbered. -/
def draft (op : RoutingOperation Q) (isInspection : Bool) (quantity : Q)
    (component group : Option String) : Draft Q where
  sequence := 0
  componentPartId := component
  operationGroup := group
  workCenterId := op.workCenterId
  name := op.name
  description := op.description
  isInspection := isInspection
  setupHours := op.setupHours
  runHours := op.runHoursPerUnit * quantity

/-- Operations in their order, each with the verdict whether it is an inspection. -/
def classified (settings : ExplosionSettings) (source : MasterSource Q)
    (ops : List (RoutingOperation Q)) : Except (Fault Q) (List (RoutingOperation Q × Bool)) :=
  (sortedOperations ops).mapM fun op => do
    let inspection ← isInspection settings source op
    .ok (op, inspection)

/-- The wave of a component: its part number, or its identifier if the part is missing. -/
def componentGroup (settings : ExplosionSettings) (source : MasterSource Q) (partId : String) :
    Except (Fault Q) String := do
  let part ← source.part partId
  .ok (truncateGroupKey ((part.map (·.partNumber)).getD partId) settings.maxGroupKeyLength)

/-- The drafts of one line; a component without a released routing has none. -/
def itemDrafts (settings : ExplosionSettings) (source : MasterSource Q) (ordered : Q)
    (item : BomItem Q) : Except (Fault Q) (List (Draft Q)) := do
  match ← source.releasedRouting item.componentPartId with
  | none => .ok []
  | some (_, ops) =>
    let group ← componentGroup settings source item.componentPartId
    let ops ← classified settings source ops
    .ok <| ops.map fun p =>
      draft p.1 p.2 (item.quantityPer * ordered) (some item.componentPartId) (some group)

/-- The drafts of an assembly's own routing: first those that are no inspection. -/
def ownDrafts (settings : ExplosionSettings) (source : MasterSource Q) (ordered : Q)
    (ops : List (RoutingOperation Q)) : Except (Fault Q) (List (Draft Q)) := do
  let ops ← classified settings source ops
  let work := ops.filter fun p => !p.2
  let inspections := ops.filter fun p => p.2
  .ok <| (work.map fun p => draft p.1 p.2 ordered none (some assemblyGroup)) ++
    inspections.map fun p => draft p.1 p.2 ordered none (some inspectGroup)

/-- The distance between the sequence numbers of drafts. -/
def sequenceStep : Int := 10

/-- The most drafts whose sequence numbers are all 32-bit numbers. -/
def maxDrafts : Nat := 214748364

/-- Numbers drafts in their order.  The numbers are meant for up to `maxDrafts` drafts
    (`explode_sequence_range`); what a 32-bit number would do beyond is not followed. -/
def number (drafts : List (Draft Q)) : List (Draft Q) :=
  drafts.zipIdx.map fun p => { p.1 with sequence := ((p.2 : Int) + 1) * sequenceStep }

/-- An order is for a finite, positive quantity. -/
def validateOrdered (quantity : Q) : Except (Fault Q) Unit :=
  if Quantity.isFinite quantity = false ∨ quantity ≤ Quantity.zero then
    .error (.invalidQuantity "quantity_ordered" quantity "订单数量必须为正的有限数")
  else .ok ()

/-- The part of an order, which must exist. -/
def orderedPart (source : MasterSource Q) (order : Order Q) : Except (Fault Q) Part := do
  match ← source.part order.partId with
  | some part => .ok part
  | none => .error (.missingMasterData ("零件不存在: part_id=" ++ order.partId))

end Explosion

open Explosion in
/-- The operations of an order, in the order in which they are made.  The list can be
    empty: the components of an assembly need not have routings. -/
def explode {Q : Type} [Quantity Q] (settings : ExplosionSettings) (source : MasterSource Q)
    (order : Order Q) : Except (Fault Q) (List (Draft Q)) := do
  validateOrdered order.quantityOrdered
  let part ← orderedPart source order
  let own ← source.releasedRouting part.partId
  let bom ← if part.isAssembly then source.activeBom part.partId else .ok none
  match bom with
  | none =>
    match own with
    | none => .error (.noRoutingOrBom part.partId)
    | some (_, ops) =>
      let ops ← classified settings source ops
      .ok (number (ops.map fun p => draft p.1 p.2 order.quantityOrdered none none))
  | some (_, items) =>
    source.ensureAcyclic part.partId []
    let components ← (sortedItems items).mapM (itemDrafts settings source order.quantityOrdered)
    let ownOnes ← match own with
      | none => .ok []
      | some (_, ops) => ownDrafts settings source order.quantityOrdered ops
    .ok (number (components.flatten ++ ownOnes))

end Workshop
