/-
  Workshop/Store/Cell.lean
  ========================
  **Stored values.**  A cell holds nothing, a whole number, a measured quantity or a
  text.  Each column has a kind, and a value that is written to it is brought to that
  kind when this loses nothing (`Cell.conform`); otherwise it is kept as it is, and a
  reader who expects the kind is told so.
-/
import Workshop.Decimal.Significant
import Workshop.Quantity.Basic

namespace Workshop

/-- A stored value. -/
inductive Cell (Q : Type) where
  | null
  | integer (n : Int)
  | real (x : Q)
  | text (s : String)

/-- What a column is meant to hold. -/
inductive CellKind where
  | integer
  | real
  | text
deriving DecidableEq, Repr

namespace Cell

variable {Q : Type} [Quantity Q]

/-- The name of what a cell holds. -/
def typeName : Cell Q → String
  | null => "Null"
  | integer _ => "Integer"
  | real _ => "Real"
  | text _ => "Text"

/-- Nothing is stored. -/
def isNull : Cell Q → Bool
  | null => true
  | _ => false

/-- A quantity as it is stored: no number is stored as nothing, and a stored zero has
    no sign. -/
def ofQuantity (x : Q) : Cell Q :=
  if Quantity.isNaN x then null else real (x + Quantity.zero)

/-- A text that may be missing. -/
def ofText? : Option String → Cell Q
  | some s => text s
  | none => null

/-- A yes or no as one or zero. -/
def ofBool (b : Bool) : Cell Q := integer (if b then 1 else 0)

/-- The whole numbers that a cell can hold. -/
def inRange (n : Int) : Bool := decide (-9223372036854775808 ≤ n ∧ n ≤ 9223372036854775807)

/-- The text of a quantity that is written to a column for text. -/
def quantityText (x : Q) : String :=
  match Quantity.fraction? x with
  | some f =>
    if f.num = 0 then "0.0"
    else (if f.negative then "-" else "") ++ Decimal.significant 15 f.num f.den
  | none => if x < Quantity.zero then "-Inf" else "Inf"

/-- The number that a text writes, if the whole of it does. -/
def ofNumericText? (s : String) : Option (Cell Q) :=
  match Decimal.Literal.integer? s with
  | some n => if inRange n then some (integer n) else some (real (Quantity.ofInt n))
  | none => ((Decimal.Literal.numeric? s).bind Quantity.ofLiteral?).map ofQuantity

/-- A whole quantity as a whole number. -/
def wholeReal (x : Q) : Cell Q :=
  match Quantity.whole? x with
  | some n =>
    if -9223372036854775808 < n ∧ n < 9223372036854775807 then integer n else real x
  | none => real x

/-- The value as a column of a kind keeps it. -/
def conform : CellKind → Cell Q → Cell Q
  | _, null => null
  | .text, integer n => text (toString n)
  | .text, real x => text (quantityText x)
  | .text, text s => text s
  | .integer, integer n => integer n
  | .integer, real x => wholeReal x
  | .integer, text s =>
    match ofNumericText? s with
    | some (real x) => wholeReal x
    | some c => c
    | none => text s
  | .real, integer n => real (Quantity.ofInt n)
  | .real, real x => real x
  | .real, text s =>
    match ofNumericText? s with
    | some (integer n) => real (Quantity.ofInt n)
    | some c => c
    | none => text s

/-! ### Comparison -/

/-- Nothing comes before numbers, and numbers before texts. -/
def rank : Cell Q → Nat
  | null => 0
  | integer _ => 1
  | real _ => 1
  | text _ => 2

/-- The order in which rows are listed. -/
def le : Cell Q → Cell Q → Bool
  | integer a, integer b => decide (a ≤ b)
  | integer a, real y => decide ((Quantity.ofInt a : Q) ≤ y)
  | real x, integer b => decide (x ≤ (Quantity.ofInt b : Q))
  | real x, real y => decide (x ≤ y)
  | text a, text b => decide (a ≤ b)
  | a, b => decide (a.rank ≤ b.rank)

/-- Equal in a comparison; nothing is equal to nothing. -/
def agrees (a b : Cell Q) : Bool := !a.isNull && !b.isNull && le a b && le b a

/-- The cell holds exactly this text. -/
def isText (s : String) : Cell Q → Bool
  | text t => t == s
  | _ => false

/-- The quantity that a cell counts for in a calculation: a text counts for the number
    at its head. -/
def value? : Cell Q → Option Q
  | null => none
  | integer n => some (Quantity.ofInt n)
  | real x => some x
  | text s => Quantity.ofLiteral? (Decimal.Literal.leading s)

end Cell

end Workshop
