/-
  Workshop/Store/Table.lean
  =========================
  **Tables of rows.**  A table has a fixed list of columns, and a row holds a cell for
  each; a row made from a function of the columns reads back as it
  (`Row.ofCells_cell`).  Every write is checked: a required column is never empty, and
  two rows never agree on a unique key.  A key with an empty cell agrees with no other.

  `Table.insert` and `Table.updateWhere` either refuse the write with the violation or
  give the new rows; the update of rows is the plain map over them
  (`Table.updateWhere_eq_map`).
-/
import Workshop.Store.Cell
import Workshop.Store.Fault

namespace Workshop

/-- What a column holds when a row leaves it out. -/
inductive ColumnDefault where
  | nothing
  | number (n : Int)
  | word (s : String)

/-- A column: its name, what it is meant to hold, whether it may be empty, and what it
    holds when left out. -/
structure ColumnSpec where
  name : String
  kind : CellKind
  required : Bool
  initial : ColumnDefault

namespace ColumnSpec

/-- A column that may be empty. -/
def optional (name : String) (kind : CellKind) : ColumnSpec := ⟨name, kind, false, .nothing⟩

/-- A column that every row must fill. -/
def mandatory (name : String) (kind : CellKind) : ColumnSpec := ⟨name, kind, true, .nothing⟩

/-- A column that holds a number unless a row says otherwise. -/
def numbered (name : String) (kind : CellKind) (n : Int) : ColumnSpec :=
  ⟨name, kind, true, .number n⟩

/-- A column that holds a word unless a row says otherwise. -/
def worded (name word : String) : ColumnSpec := ⟨name, .text, true, .word word⟩

end ColumnSpec

/-- A table whose columns are the values of a type. -/
class Table (C : Type) [DecidableEq C] where
  name : String
  columns : List C
  mem_columns : ∀ c : C, c ∈ columns := by intro c; cases c <;> decide
  spec : C → ColumnSpec
  /-- The column by which rows are addressed. -/
  key : C
  /-- The unique keys, in the order in which they are checked. -/
  uniqueKeys : List (List C)

/-! ### Rows -/

/-- A row of a table: its cells beside their columns. -/
structure Row (C Q : Type) where
  cells : List (C × Cell Q)

namespace Row

variable {C Q : Type} [DecidableEq C]

/-- The cell in a column. -/
def cell (r : Row C Q) (c : C) : Cell Q := (r.cells.lookup c).getD .null

instance : CoeFun (Row C Q) fun _ => C → Cell Q := ⟨Row.cell⟩

/-- The row with a given cell in each column. -/
def ofCells [Table C] (f : C → Cell Q) : Row C Q := ⟨(Table.columns : List C).map fun c => (c, f c)⟩

theorem lookup_cells (f : C → Cell Q) {c : C} {cs : List C} (h : c ∈ cs) :
    (cs.map fun d => (d, f d)).lookup c = some (f c) := by
  induction cs with
  | nil => cases h
  | cons d cs ih =>
    by_cases e : c = d
    · subst e; simp
    · have hc : c ∈ cs := by simpa [e] using h
      have hd : (c == d) = false := by simpa using e
      simp [List.lookup_cons, hd, ih hc]

@[simp] theorem ofCells_cell [Table C] (f : C → Cell Q) (c : C) : (ofCells f).cell c = f c := by
  simp [ofCells, cell, lookup_cells f (Table.mem_columns c)]

/-- A row with one cell changed. -/
def set [Table C] (r : Row C Q) (c : C) (v : Cell Q) : Row C Q :=
  ofCells fun d => if d = c then v else r d

theorem set_cell [Table C] (r : Row C Q) (c d : C) (v : Cell Q) :
    (r.set c v).cell d = if d = c then v else r.cell d := by
  simp [set]

end Row

/-! ### Violations -/

/-- What is wrong with a write. -/
inductive Violation where
  | missing (table column : String)
  | duplicate (table : String) (columns : List String)
  | dangling
  | notANumber
  | noNumberLeft
deriving DecidableEq, Repr

/-- A violation as a failure of the store. -/
def Violation.fault : Violation → StoreFault
  | missing table column => .query ("NOT NULL constraint failed: " ++ table ++ "." ++ column)
  | duplicate table columns =>
    .uniqueConstraint ("UNIQUE constraint failed: " ++
      String.intercalate ", " (columns.map fun c => table ++ "." ++ c))
  | dangling => .foreignKey "FOREIGN KEY constraint failed"
  | notANumber => .query "datatype mismatch"
  | noNumberLeft => .query "database or disk is full"

/-! ### Writes -/

namespace Table

variable {C Q : Type} [DecidableEq C] [Table C] [Quantity Q]

/-- The name of a column. -/
def columnName (c : C) : String := (spec c).name

/-- The column with a name. -/
def column? (name : String) : Option C := (columns : List C).find? fun c => columnName c == name

/-- What a column holds when a row leaves it out. -/
def initialCell (c : C) : Cell Q :=
  match (spec c).initial with
  | .nothing => .null
  | .number n => Cell.conform (spec c).kind (.integer n)
  | .word s => .text s

/-- The row with the given cells, brought to the kinds of their columns, and the initial
    ones elsewhere. -/
def rowOf (given : List (String × Cell Q)) : Row C Q :=
  Row.ofCells fun c =>
    match given.lookup (columnName c) with
    | some v => Cell.conform (spec c).kind v
    | none => initialCell c

/-- The first required column that a row leaves empty. -/
def missing? (r : Row C Q) : Option C :=
  (columns : List C).find? fun c => (spec c).required && (r c).isNull

/-- Two rows agree on all columns of a key. -/
def agreeOn (key : List C) (r s : Row C Q) : Bool := key.all fun c => Cell.agrees (r c) (s c)

/-- What is wrong with a row beside the others of its table. -/
def violation? (others : List (Row C Q)) (r : Row C Q) : Option Violation :=
  match missing? r with
  | some c => some (.missing (name C) (columnName c))
  | none =>
    ((uniqueKeys : List (List C)).find? fun key => others.any (agreeOn key r)).map fun key =>
      .duplicate (name C) (key.map columnName)

/-- Adds a row behind the others. -/
def insert (rows : List (Row C Q)) (r : Row C Q) : Except Violation (List (Row C Q)) :=
  match violation? rows r with
  | some v => .error v
  | none => .ok (rows ++ [r])

/-- The first violation when rows are changed one after the other. -/
def updateViolation? (picks : Row C Q → Bool) (change : Row C Q → Row C Q) :
    (before after : List (Row C Q)) → Option Violation
  | _, [] => none
  | before, r :: after =>
    if picks r then
      match violation? (before ++ after) (change r) with
      | some v => some v
      | none => updateViolation? picks change (before ++ [change r]) after
    else updateViolation? picks change (before ++ [r]) after

/-- Changes the rows that are picked. -/
def updateWhere (picks : Row C Q → Bool) (change : Row C Q → Row C Q) (rows : List (Row C Q)) :
    Except Violation (List (Row C Q)) :=
  match updateViolation? picks change [] rows with
  | some v => .error v
  | none => .ok (rows.map fun r => if picks r then change r else r)

/-- An update that is not refused changes the picked rows and no other. -/
theorem updateWhere_eq_map {picks : Row C Q → Bool} {change : Row C Q → Row C Q}
    {rows rows' : List (Row C Q)} (h : updateWhere picks change rows = .ok rows') :
    rows' = rows.map fun r => if picks r then change r else r := by
  unfold updateWhere at h
  split at h
  · cases h
  · cases h; rfl

/-- The rows whose key is a given text. -/
def hasKey (id : String) (r : Row C Q) : Bool := (r key).isText id

end Table

end Workshop
