/-
  Workshop/Quantity/Exact.lean
  ============================
  **Exact quantities.**  On the rationals no operation rounds and every quantity is
  finite, so the laws of scheduling and booking can be read as laws of arithmetic.
-/
import Workshop.Quantity.Basic

namespace Workshop

namespace Exact

/-- A written number as a fraction; the words for infinity and for no number have no
    exact value. -/
def ofLiteral? : Decimal.Literal → Option Rat
  | .finite negative digits exponent =>
    let size : Rat := digits * 10 ^ exponent.toNat / 10 ^ (-exponent).toNat
    some (if negative then -size else size)
  | _ => none

/-- A whole number by itself, any other as a fraction. -/
def text (x : Rat) : String :=
  if x.den = 1 then toString x.num else toString x.num ++ "/" ++ toString x.den

end Exact

instance : Quantity Rat where
  decidableLe := inferInstance
  decidableLt := inferInstance
  ofInt := fun n => n
  ofLiteral? := Exact.ofLiteral?
  fraction? := fun x => some ⟨x.num < 0, x.num.natAbs, x.den⟩
  tolerance := 1 / 1000000000
  text := Exact.text

end Workshop
