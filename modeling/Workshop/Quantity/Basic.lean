/-
  Workshop/Quantity/Basic.lean
  ============================
  **Hours, pieces and capacities.**  Everything that is measured on the shop floor is
  a number of one type, and the rules of scheduling and execution use only the
  operations of `Quantity`.  They run on double precision numbers
  (`Workshop.Quantity.Binary`) and can be reasoned about on exact rationals
  (`Workshop.Quantity.Exact`).

  A quantity need not be a number: `fraction?` gives the exact value of one that is
  finite, and only a quantity that is not a number fails to be `≤` itself.
-/
import Workshop.Decimal.Literal
import Workshop.Decimal.Fixed

namespace Workshop

/-- The exact value of a finite quantity: `num / den`, with its sign apart. -/
structure Fraction where
  negative : Bool
  num : Nat
  den : Nat
deriving DecidableEq, Repr

/-- A number system for hours, pieces and capacities. -/
class Quantity (Q : Type) extends Add Q, Sub Q, Mul Q, Div Q, LE Q, LT Q where
  decidableLe : DecidableLE Q
  decidableLt : DecidableLT Q
  ofInt : Int → Q
  /-- The quantity nearest to a written number, if the system has one. -/
  ofLiteral? : Decimal.Literal → Option Q
  /-- The exact value; an infinite quantity or no number at all has none. -/
  fraction? : Q → Option Fraction
  /-- The slack allowed when hours are compared with free capacity. -/
  tolerance : Q
  /-- The shortest text that reads back as the same quantity. -/
  text : Q → String

namespace Quantity

variable {Q : Type} [Quantity Q]

instance : DecidableLE Q := decidableLe

instance : DecidableLT Q := decidableLt

/-- No hours, no pieces. -/
def zero : Q := ofInt 0

/-- What stands for a number that was not given: no number at all, in a system that
    has such a value. -/
def undefined : Q := (ofLiteral? .notANumber).getD zero

instance : Inhabited Q := ⟨zero⟩

/-- A finite number. -/
def isFinite (x : Q) : Bool := (fraction? x).isSome

/-- The result of an operation without a value. -/
def isNaN (x : Q) : Bool := !decide (x ≤ x)

/-- The larger of two quantities; one that is no number is passed over, and of two
    equal ones the first is taken. -/
def larger (x y : Q) : Q := if isNaN x then y else if x < y then y else x

/-- The smaller of two quantities; one that is no number is passed over, and of two
    equal ones the first is taken. -/
def smaller (x y : Q) : Q := if isNaN x then y else if y < x then y else x

/-- The size without the sign. -/
def magnitude (x : Q) : Q := if x < zero then zero - x else x

/-- The whole number of units that cover a quantity, between 0 and `limit`. -/
def ceilCount (limit : Nat) (x : Q) : Nat :=
  match fraction? x with
  | some f => if f.negative then 0 else min ((f.num + f.den - 1) / f.den) limit
  | none => if zero < x then limit else 0

/-- The nearest whole quantity, a half going away from zero. -/
def roundHalfAway (x : Q) : Q :=
  match fraction? x with
  | some f =>
    let n : Int := Decimal.roundHalfUp f.num f.den
    ofInt (if f.negative then -n else n)
  | none => x

/-- The exact whole number that a quantity is, if it is one. -/
def whole? (x : Q) : Option Int :=
  match fraction? x with
  | some f =>
    if f.num % f.den = 0 then
      let n : Int := f.num / f.den
      some (if f.negative then -n else n)
    else none
  | none => none

/-- The quantity with a fixed number of decimal places, a half going to the even
    neighbour. -/
def fixed (places : Nat) (x : Q) : String :=
  match fraction? x with
  | some f => (if f.negative then "-" else "") ++ Decimal.fixed places f.num f.den
  | none => text x

/-- A sum in which the part lost to rounding is carried along and added at the end. -/
def compensatedSum (xs : List Q) : Q :=
  let (total, lost) := xs.foldl (fun (acc : Q × Q) x =>
    let t := acc.1 + x
    let e := if magnitude x < magnitude acc.1 then (acc.1 - t) + x else (x - t) + acc.1
    (t, acc.2 + e)) (zero, zero)
  if isFinite lost then total + lost else total

end Quantity

end Workshop
