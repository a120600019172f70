/-
  Workshop/Decimal/Shortest.lean
  ==============================
  **The shortest decimal that reads back.**  A binary number stands for the interval
  of reals that round to it.  Among the decimals in that interval `shortest` picks one
  with the fewest digits, and of those the nearest.  It looks at the two neighbours of
  the value on the grids of one digit, two digits and so on, in exact arithmetic.
-/

namespace Workshop.Decimal

/-- A positive decimal number `digits * 10 ^ exponent`. -/
structure Scaled where
  digits : Nat
  exponent : Int
deriving DecidableEq, Repr

/-- The place of the first digit of `num / den`, plus one: `10 ^ (firstPlace - 1)` is
    the largest power of ten not above it. -/
def firstPlace (num den : Nat) : Int :=
  if num < den then
    let ceiling := (den + num - 1) / num
    1 - ((Nat.toDigits 10 (ceiling - 1)).length : Int)
  else (Nat.toDigits 10 (num / den)).length

/-- The same decimal without a zero at its end. -/
def Scaled.reduced (s : Scaled) : Scaled :=
  if s.digits % 10 = 0 then ⟨s.digits / 10, s.exponent + 1⟩ else s

/-- A positive binary number `value * 2 ^ exponent` with the ends of the interval that
    rounds to it, in the same unit; the ends belong to it when `closed`. -/
structure Interval where
  low : Nat
  value : Nat
  high : Nat
  exponent : Int
  closed : Bool

namespace Interval

/-- The scale that turns the interval's unit into units of `10 ^ k`: numerator and
    denominator of `2 ^ exponent / 10 ^ k`. -/
def scale (i : Interval) (k : Int) : Nat × Nat :=
  (Nat.pow 2 i.exponent.toNat * Nat.pow 10 (-k).toNat,
    Nat.pow 2 (-i.exponent).toNat * Nat.pow 10 k.toNat)

/-- The decimal `d * 10 ^ k` lies in the interval. -/
def holds (i : Interval) (k : Int) (d : Nat) : Bool :=
  let (num, den) := i.scale k
  let x := d * den
  if i.closed then i.low * num ≤ x && x ≤ i.high * num
  else i.low * num < x && x < i.high * num

/-- The grid point of unit `10 ^ k` that lies in the interval, the nearer of two. -/
def nearestOn (i : Interval) (k : Int) : Option Nat :=
  let (num, den) := i.scale k
  let d := i.value * num / den
  match i.holds k d, i.holds k (d + 1) with
  | true, true =>
    let below := i.value * num - d * den
    some (if 2 * below < den ∨ (2 * below = den ∧ d % 2 = 0) then d else d + 1)
  | true, false => some d
  | false, true => some (d + 1)
  | false, false => none

/-- The first grid, from `n` digits on, that has a point in the interval. -/
def shortestFrom (i : Interval) (top : Int) : (room n : Nat) → Scaled
  | 0, n => ⟨(i.nearestOn (top - n)).getD 0, top - n⟩
  | room + 1, n =>
    match i.nearestOn (top - n) with
    | some d => ⟨d, top - n⟩
    | none => i.shortestFrom top room (n + 1)

/-- The nearest of the shortest decimals in the interval; seventeen digits suffice.
    The upper neighbour of the first grid can be the next power of ten. -/
def shortest (i : Interval) : Scaled :=
  let (num, den) := i.scale 0
  (i.shortestFrom (firstPlace (i.value * num) den) 16 1).reduced

end Interval

/-- The decimal written by position, without an exponent. -/
def Scaled.positional (s : Scaled) : String :=
  let ds := Nat.toDigits 10 s.digits
  if 0 ≤ s.exponent then String.ofList (ds ++ List.replicate s.exponent.toNat '0')
  else
    let places := (-s.exponent).toNat
    let ds := List.replicate (places + 1 - ds.length) '0' ++ ds
    String.ofList (ds.take (ds.length - places) ++ '.' :: ds.drop (ds.length - places))

end Workshop.Decimal
