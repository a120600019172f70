/-
  Workshop/Store/Catalog.lean
  ===========================
  **Master data in the store.**  Of several active bills of material or released
  routings of a part the one with the highest revision counts, and of those the one
  that came first.  The only master data that is written is the availability of work
  centers.
-/
import Workshop.Explosion.Source
import Workshop.Store.Basic

namespace Workshop.Store

variable {Q : Type} [Quantity Q]

/-- The first row with the highest revision. -/
def latest {C : Type} [DecidableEq C] (revision : C) (rows : List (Row C Q)) : List (Row C Q) :=
  (rows.mergeSort fun a b => Cell.le (b revision) (a revision)).take 1

/-- The part with an identifier. -/
def findPart (s : Store Q) (partId : String) : Except StoreFault (Option Part) :=
  readFirst Part.ofRow (rowsWith s.parts .partId partId)

/-- The active bill of material of a part with its lines, by item number and line. -/
def findActiveBom (s : Store Q) (partId : String) :
    Except StoreFault (Option (Bom × List (BomItem Q))) := do
  let active := (rowsWith s.boms .partId partId).filter fun r =>
    Cell.agrees (r .isActive) (.integer 1)
  match ← readFirst Bom.ofRow (latest .revision active) with
  | none => .ok none
  | some bom =>
    let lines := sortedBy .itemNumber (sortedBy .lineId (rowsWith s.bomItems .bomId bom.bomId))
    let items ← lines.mapM BomItem.ofRow
    .ok (some (bom, items))

/-- The released routing of a part with its steps, by sequence number. -/
def findReleasedRouting (s : Store Q) (partId : String) :
    Except StoreFault (Option (Routing × List (RoutingOperation Q))) := do
  let released := (rowsWith s.routings .partId partId).filter fun r =>
    (r .status).isText RoutingStatus.released.word
  match ← readFirst Routing.ofRow (latest .revision released) with
  | none => .ok none
  | some routing =>
    let steps := sortedBy .sequence (rowsWith s.routingOperations .routingId routing.routingId)
    let ops ← steps.mapM RoutingOperation.ofRow
    .ok (some (routing, ops))

/-- The work center with an identifier. -/
def findWorkCenter (s : Store Q) (workCenterId : String) :
    Except StoreFault (Option (WorkCenter Q)) :=
  readFirst WorkCenter.ofRow (rowsWith s.workCenters .workCenterId workCenterId)

/-- The active work centers by code. -/
def listActiveWorkCenters (s : Store Q) : Except StoreFault (List (WorkCenter Q)) :=
  let active := s.workCenters.filter fun r => Cell.agrees (r .isActive) (.integer 1)
  (sortedBy .code active).mapM WorkCenter.ofRow

/-- The work centers with given identifiers by code; identifiers that name none are
    passed over. -/
def listWorkCentersByIds (s : Store Q) (ids : List String) :
    Except StoreFault (List (WorkCenter Q)) := do
  let found ← ids.mapM s.findWorkCenter
  .ok ((found.filterMap id).mergeSort fun a b => decide (a.code ≤ b.code))

/-- Enters the availability of one work center; gives the number of rows changed. -/
def setAvailabilityRate (s : Store Q) (workCenterId : String) (rate : Q) :
    Except StoreFault (Store Q × Nat) := do
  let picks := Table.hasKey workCenterId
  let rows ← orFault <| Table.updateWhere picks
    (fun r => r.set .availabilityRate (.ofQuantity rate)) s.workCenters
  .ok ({ s with workCenters := rows }, s.workCenters.countP picks)

/-- Enters the availability of several work centers, all or none; gives the number of
    rows changed. -/
def updateAvailabilityRates (s : Store Q) :
    List (String × Q) → Except StoreFault (Store Q × Nat)
  | [] => .ok (s, 0)
  | (id, rate) :: rest => do
    let (s, n) ← s.setAvailabilityRate id rate
    let (s, m) ← s.updateAvailabilityRates rest
    .ok (s, n + m)

/-- A failure of the store as a fault of a lookup. -/
def lookupFault {α : Type} : Except StoreFault α → Except (Fault Q) α
  | .ok a => .ok a
  | .error e => .error (.dataSource e.message)

/-- The texts in a column. -/
def textsIn {C : Type} [DecidableEq C] (rows : List (Row C Q)) (c : C) : List String :=
  rows.filterMap fun r => match r c with
    | .text s => some s
    | _ => none

/-- The store as the source of master data. -/
def source (s : Store Q) : MasterSource Q where
  part id := lookupFault (s.findPart id)
  bom id := lookupFault (s.findActiveBom id)
  routing id := lookupFault (s.findReleasedRouting id)
  workCenter id := lookupFault (s.findWorkCenter id)
  assemblies := textsIn s.boms .partId

end Workshop.Store
