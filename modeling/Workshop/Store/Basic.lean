/-
  Workshop/Store/Basic.lean
  =========================
  **The store.**  The store holds the rows of all tables in the order in which they came
  and the settings.  Every reference from one row to another must lead to a row: a new row
  is checked for its own references, a change of cells for those of all rows.

  A write takes a store to a new one or fails; a write that fails gives no store, so
  nothing of it stays.

  A dispute stands for another process that is about to schedule an operation: dates
  written to a disputed operation are lost.
-/
import Workshop.Store.Rows

namespace Workshop

/-- The rows of all tables, the settings, and the operations in dispute. -/
structure Store (Q : Type) where
  workCenters : List (Row WorkCenter.Column Q)
  parts : List (Row Part.Column Q)
  boms : List (Row Bom.Column Q)
  bomItems : List (Row BomItem.Column Q)
  /-- The highest number with which a line of a bill of material was added. -/
  lastLine : Int
  routings : List (Row Routing.Column Q)
  routingOperations : List (Row RoutingOperation.Column Q)
  orders : List (Row Order.Column Q)
  operations : List (Row Operation.Column Q)
  settings : List (String × String)
  disputed : List String

namespace Store

variable {Q : Type} [Quantity Q]

/-- A store without rows and settings. -/
def empty : Store Q := ⟨[], [], [], [], 0, [], [], [], [], [], []⟩

instance : Inhabited (Store Q) := ⟨empty⟩

/-! ### References -/

/-- A row leads, by one of its columns, to a row of another table. -/
def leadsTo {C D : Type} [DecidableEq C] [DecidableEq D] (r : Row C Q) (c : C)
    (targets : List (Row D Q)) (d : D) : Bool :=
  targets.any fun t => Cell.agrees (r c) (t d)

/-- Every row of one table leads to a row of another. -/
def allLeadTo {C D : Type} [DecidableEq C] [DecidableEq D] (rows : List (Row C Q)) (c : C)
    (targets : List (Row D Q)) (d : D) : Bool :=
  rows.all fun r => leadsTo r c targets d

/-- No reference dangles. -/
def isConnected (s : Store Q) : Bool :=
  allLeadTo s.boms .partId s.parts .partId &&
  allLeadTo s.bomItems .bomId s.boms .bomId &&
  allLeadTo s.bomItems .componentPartId s.parts .partId &&
  allLeadTo s.routings .partId s.parts .partId &&
  allLeadTo s.routingOperations .routingId s.routings .routingId &&
  allLeadTo s.routingOperations .workCenterId s.workCenters .workCenterId &&
  allLeadTo s.operations .orderId s.orders .orderId

/-- What a write gives if the references that it must keep lead to rows. -/
def referring (found : Bool) (s : Store Q) : Except Violation (Store Q) :=
  if found then .ok s else .error .dangling

/-- A store whose cells have been changed is good when none of its references dangles. -/
def connected (s : Store Q) : Except Violation (Store Q) := referring s.isConnected s

/-- A violation as a failure of the store. -/
def orFault {α : Type} : Except Violation α → Except StoreFault α
  | .ok a => .ok a
  | .error v => .error v.fault

/-! ### Rows by key -/

/-- Reads the first of some rows, if there is one. -/
def readFirst {C α : Type} (ofRow : Row C Q → Except StoreFault α) (rows : List (Row C Q)) :
    Except StoreFault (Option α) :=
  match rows with
  | [] => .ok none
  | r :: _ => (ofRow r).map some

/-- The rows whose column holds a text. -/
def rowsWith {C : Type} [DecidableEq C] (rows : List (Row C Q)) (c : C) (s : String) :
    List (Row C Q) :=
  rows.filter fun r => (r c).isText s

/-- Rows in the ascending order of a column, equal ones as they came. -/
def sortedBy {C : Type} [DecidableEq C] (c : C) (rows : List (Row C Q)) : List (Row C Q) :=
  rows.mergeSort fun a b => Cell.le (a c) (b c)

end Store

end Workshop
