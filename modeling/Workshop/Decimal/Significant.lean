/-
  Workshop/Decimal/Significant.lean
  =================================
  **A fixed number of significant digits.**  A number that is kept in a column for text
  is written with fifteen significant digits, without zeros at the end but with at
  least one decimal place; very small and very large numbers have an exponent.
-/
import Workshop.Decimal.Fixed
import Workshop.Decimal.Shortest

namespace Workshop.Decimal

/-- Drops the zeros at the end of a row of decimal places, but keeps one place. -/
def trimPlaces (ds : List Char) : List Char :=
  match (ds.reverse.dropWhile (· == '0')).reverse with
  | [] => ['0']
  | ds => ds

/-- A power of ten after `e`: a sign and at least two digits. -/
def exponentText (e : Int) : String :=
  let ds := Nat.toDigits 10 e.natAbs
  (if e < 0 then "e-" else "e+") ++ String.ofList (List.replicate (2 - ds.length) '0' ++ ds)

/-- The positive fraction `num / den` with so many significant digits. -/
def significant (digits num den : Nat) : String :=
  let top := firstPlace num den
  let unit := top - digits
  let n := roundHalfUp (num * Nat.pow 10 (-unit).toNat) (den * Nat.pow 10 unit.toNat)
  let (n, top) := if Nat.pow 10 digits ≤ n then (n / 10, top + 1) else (n, top)
  let ds := Nat.toDigits 10 n
  if -4 < top ∧ top ≤ digits then
    if 0 < top then
      String.ofList (ds.take top.toNat ++ '.' :: trimPlaces (ds.drop top.toNat))
    else
      String.ofList ('0' :: '.' :: trimPlaces (List.replicate (-top).toNat '0' ++ ds))
  else
    String.ofList (ds.take 1 ++ '.' :: trimPlaces (ds.drop 1)) ++ exponentText (top - 1)

end Workshop.Decimal
