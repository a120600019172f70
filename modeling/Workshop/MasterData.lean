/-
  Workshop/MasterData.lean
  ========================
  **Master data.**  Parts, bills of material, routings and work centers: what the
  planning department maintains and the shop floor only reads.
-/
import Workshop.Quantity.Basic
import Workshop.Status

namespace Workshop

/-- A part that can be made, bought or assembled. -/
structure Part where
  partId : String
  partNumber : String
  name : String
  kind : PartKind

/-- The part is put together from components. -/
def Part.isAssembly (p : Part) : Bool := p.kind == .assembly

/-- The head of a bill of material. -/
structure Bom where
  bomId : String
  partId : String
  revision : String
  isActive : Bool

/-- A line of a bill of material: so many of a component for each assembly. -/
structure BomItem (Q : Type) where
  lineId : Int
  bomId : String
  itemNumber : Int
  componentPartId : String
  quantityPer : Q

/-- The head of a routing. -/
structure Routing where
  routingId : String
  partId : String
  revision : String
  status : RoutingStatus

/-- Only a released routing may be used. -/
def Routing.isReleased (r : Routing) : Bool := r.status == .released

/-- A step of a routing, with hours for setting up and hours for each piece. -/
structure RoutingOperation (Q : Type) where
  routingOperationId : String
  routingId : String
  sequence : Int
  workCenterId : String
  name : String
  description : Option String
  setupHours : Q
  runHoursPerUnit : Q
  isInspectionPoint : Bool

/-- A place of work with so many hours on each working day. -/
structure WorkCenter (Q : Type) where
  workCenterId : String
  code : String
  name : String
  capacityHoursPerDay : Q
  efficiencyFactor : Q
  availabilityRate : Q
  isActive : Bool

end Workshop
