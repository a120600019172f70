/-
  Workshop/Quantity/Binary.lean
  =============================
  **Double precision quantities.**  A finite double is a mantissa times a power of two;
  `Binary.parts` reads both off its bits, and everything exact that is said about a
  double (its fraction, its shortest text) is computed from them in whole numbers.
-/
import Workshop.Quantity.Basic
import Workshop.Decimal.Shortest

namespace Workshop

namespace Binary

/-- A finite double: `mantissa * 2 ^ exponent` with a sign; `boundary` marks the
    smallest mantissa of its exponent, below which doubles lie twice as close. -/
structure Parts where
  negative : Bool
  mantissa : Nat
  exponent : Int
  boundary : Bool
deriving DecidableEq, Repr

/-- The parts of a double, unless all bits of its exponent are set. -/
def parts? (x : Float) : Option Parts :=
  let bits := x.toBits.toNat
  let e : Nat := bits / Nat.pow 2 52 % Nat.pow 2 11
  let f : Nat := bits % Nat.pow 2 52
  let negative := bits / Nat.pow 2 63 = 1
  if e = 2047 then none
  else if e = 0 then some ⟨negative, f, -1074, false⟩
  else some ⟨negative, f + Nat.pow 2 52, (e : Int) - 1075, f = 0 && 1 < e⟩

/-- The exact value of a double. -/
def fraction? (x : Float) : Option Fraction :=
  (parts? x).map fun p =>
    ⟨p.negative, p.mantissa * Nat.pow 2 p.exponent.toNat, Nat.pow 2 (-p.exponent).toNat⟩

/-- The reals that round to a double. -/
def Parts.interval (p : Parts) : Decimal.Interval :=
  { low := 4 * p.mantissa - (if p.boundary then 1 else 2)
    value := 4 * p.mantissa
    high := 4 * p.mantissa + 2
    exponent := p.exponent - 2
    closed := p.mantissa % 2 = 0 }

/-- The text of a double: the fewest digits that read back, by position. -/
def text (x : Float) : String :=
  match parts? x with
  | none => if x.isNaN then "NaN" else if x < 0 then "-inf" else "inf"
  | some p =>
    let body := if p.mantissa = 0 then "0" else p.interval.shortest.positional
    if p.negative then "-" ++ body else body

/-- The double nearest to a written number.  Numbers beyond every double are not
    expanded: their size is read off the place of the first digit. -/
def ofLiteral : Decimal.Literal → Float
  | .notANumber => 0 / 0
  | .infinite negative => if negative then -1 / 0 else 1 / 0
  | .finite negative digits exponent =>
    let place := exponent + (Nat.toDigits 10 digits).length
    let size : Float :=
      if digits = 0 ∨ place < -330 then 0
      else if 310 < place then 1 / 0
      else Float.ofScientific digits (exponent < 0) exponent.natAbs
    if negative then -size else size

end Binary

instance : Quantity Float where
  decidableLe := inferInstance
  decidableLt := inferInstance
  ofInt := Float.ofInt
  ofLiteral? := fun l => some (Binary.ofLiteral l)
  fraction? := Binary.fraction?
  tolerance := 1e-9
  text := Binary.text

end Workshop
