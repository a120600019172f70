/-
  Workshop/Store/Import.lean
  ==========================
  **Rows from outside.**  Rows can be added and single cells changed by the names of
  tables and columns, as an administrator would.  Values are brought to the kinds of
  their columns, and every constraint of the tables is checked.
-/
import Workshop.Store.Basic

namespace Workshop

/-- The tables that rows can be added to, in the order in which references allow it. -/
inductive TableName where
  | workCenter
  | part
  | bom
  | bomItem
  | routing
  | routingOperation
  | order
  | operation
deriving DecidableEq, Repr

namespace TableName

/-- All tables. -/
def all : List TableName :=
  [workCenter, part, bom, bomItem, routing, routingOperation, order, operation]

/-- The name of a table. -/
def word : TableName → String
  | workCenter => Table.name WorkCenter.Column
  | part => Table.name Part.Column
  | bom => Table.name Bom.Column
  | bomItem => Table.name BomItem.Column
  | routing => Table.name Routing.Column
  | routingOperation => Table.name RoutingOperation.Column
  | order => Table.name Order.Column
  | operation => Table.name Operation.Column

/-- The table with a name. -/
def ofWord? (s : String) : Option TableName := all.find? (·.word == s)

end TableName

namespace Store

variable {Q : Type} [Quantity Q]

/-! ### Adding rows -/

/-- The highest number that a line of a bill of material has or was added with. -/
def highestLine (s : Store Q) : Int :=
  s.bomItems.foldl (fun n r => match r .lineId with
    | .integer m => max n m
    | _ => n) s.lastLine

/-- The number of a new line: the next one, if it has none.  The number of a line is a
    whole number, and no number is given twice. -/
def lineNumber (s : Store Q) (r : Row BomItem.Column Q) : Except Violation Int :=
  match r .lineId with
  | .null =>
    let next := s.highestLine + 1
    if Cell.inRange next then .ok next else .error .noNumberLeft
  | .integer n => .ok n
  | _ => .error .notANumber

/-- Adds a row to a table by the names of its columns. -/
def addRowTo (s : Store Q) (table : TableName) (given : List (String × Cell Q)) :
    Except Violation (Store Q) := do
  match table with
  | .workCenter =>
    let rows ← Table.insert s.workCenters (Table.rowOf given)
    .ok { s with workCenters := rows }
  | .part =>
    let rows ← Table.insert s.parts (Table.rowOf given)
    .ok { s with parts := rows }
  | .bom =>
    let r : Row Bom.Column Q := Table.rowOf given
    let rows ← Table.insert s.boms r
    referring (leadsTo r .partId s.parts .partId) { s with boms := rows }
  | .bomItem =>
    let r : Row BomItem.Column Q := Table.rowOf given
    let number ← s.lineNumber r
    let rows ← Table.insert s.bomItems (r.set .lineId (.integer number))
    referring (leadsTo r .bomId s.boms .bomId && leadsTo r .componentPartId s.parts .partId)
      { s with bomItems := rows, lastLine := max s.lastLine number }
  | .routing =>
    let r : Row Routing.Column Q := Table.rowOf given
    let rows ← Table.insert s.routings r
    referring (leadsTo r .partId s.parts .partId) { s with routings := rows }
  | .routingOperation =>
    let r : Row RoutingOperation.Column Q := Table.rowOf given
    let rows ← Table.insert s.routingOperations r
    referring
      (leadsTo r .routingId s.routings .routingId &&
        leadsTo r .workCenterId s.workCenters .workCenterId)
      { s with routingOperations := rows }
  | .order =>
    let rows ← Table.insert s.orders (Table.rowOf given)
    .ok { s with orders := rows }
  | .operation =>
    let r : Row Operation.Column Q := Table.rowOf given
    let rows ← Table.insert s.operations r
    referring (leadsTo r .orderId s.orders .orderId) { s with operations := rows }

/-- Adds rows one after the other; a row that is refused ends it, and those before it
    stay.  Gives the number of rows. -/
def addRows (s : Store Q) : List (TableName × List (String × Cell Q)) →
    Store Q × Except StoreFault Nat
  | [] => (s, .ok 0)
  | (table, given) :: rest =>
    match s.addRowTo table given with
    | .error v => (s, .error v.fault)
    | .ok t =>
      let (u, count) := t.addRows rest
      (u, count.map (· + 1))

/-! ### Changing cells -/

/-- The row is addressed by a key; a column for text takes the key as a text. -/
def isAddressed {C : Type} [DecidableEq C] [Table C] (id : Cell Q) (r : Row C Q) : Bool :=
  let key : C := Table.key
  Cell.agrees (r key) (Cell.conform (Table.spec key).kind id)

/-- Sets one cell of the row with a key; gives the rows and how many have changed. -/
def setCell {C : Type} [DecidableEq C] [Table C] (id : Cell Q) (column : String) (v : Cell Q)
    (rows : List (Row C Q)) : Except StoreFault (List (Row C Q) × Nat) :=
  match (Table.column? column : Option C) with
  | none => .error (.query ("no such column: " ++ column))
  | some c => orFault do
    let rows' ← Table.updateWhere (isAddressed id)
      (fun r => r.set c (Cell.conform (Table.spec c).kind v)) rows
    .ok (rows', rows.countP (isAddressed id))

/-- A write of a start date to an operation in dispute is lost. -/
def isDisputedWrite (s : Store Q) (id : Cell Q) (column : String) (v : Cell Q) : Bool :=
  column == Table.columnName Operation.Column.scheduledStart && !v.isNull &&
    s.disputed.any fun d => Cell.agrees id (.text d)

/-- Sets one cell of a row by the names of table and column; gives the number of rows
    changed. -/
def updateCell (s : Store Q) (table : TableName) (id : Cell Q) (column : String) (v : Cell Q) :
    Except StoreFault (Store Q × Nat) := do
  match table with
  | .workCenter =>
    let (rows, n) ← setCell id column v s.workCenters
    .ok (← orFault (connected { s with workCenters := rows }), n)
  | .part =>
    let (rows, n) ← setCell id column v s.parts
    .ok (← orFault (connected { s with parts := rows }), n)
  | .bom =>
    let (rows, n) ← setCell id column v s.boms
    .ok (← orFault (connected { s with boms := rows }), n)
  | .bomItem =>
    if column = Table.columnName BomItem.Column.lineId then
      match Cell.conform .integer v with
      | .integer _ => .ok ()
      | _ => if s.bomItems.any (isAddressed id) then .error Violation.notANumber.fault else .ok ()
    let (rows, n) ← setCell id column v s.bomItems
    .ok (← orFault (connected { s with bomItems := rows }), n)
  | .routing =>
    let (rows, n) ← setCell id column v s.routings
    .ok (← orFault (connected { s with routings := rows }), n)
  | .routingOperation =>
    let (rows, n) ← setCell id column v s.routingOperations
    .ok (← orFault (connected { s with routingOperations := rows }), n)
  | .order =>
    let (rows, n) ← setCell id column v s.orders
    .ok (← orFault (connected { s with orders := rows }), n)
  | .operation =>
    if s.isDisputedWrite id column v then .ok (s, 0)
    else
      let (rows, n) ← setCell id column v s.operations
      .ok (← orFault (connected { s with operations := rows }), n)

/-- From now on the dates written to an operation are lost. -/
def dispute (s : Store Q) (operationId : String) : Store Q :=
  { s with disputed := operationId :: s.disputed }

end Store

end Workshop
