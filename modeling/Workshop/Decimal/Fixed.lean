/-
  Workshop/Decimal/Fixed.lean
  ===========================
  **A fixed number of places.**  `fixed` writes a fraction with so many decimal places,
  rounded to the nearest, a half to the even neighbour.
-/

namespace Workshop.Decimal

/-- The whole number nearest to `num / den`, a half going to the even neighbour. -/
def roundHalfEven (num den : Nat) : Nat :=
  let q := num / den
  let r := num % den
  if 2 * r < den ∨ (2 * r = den ∧ q % 2 = 0) then q else q + 1

/-- The whole number nearest to `num / den`, a half going up. -/
def roundHalfUp (num den : Nat) : Nat := (2 * num + den) / (2 * den)

/-- The fraction `num / den` with `places` decimal places. -/
def fixed (places num den : Nat) : String :=
  let n := roundHalfEven (num * Nat.pow 10 places) den
  let ds := Nat.toDigits 10 n
  let ds := List.replicate (places + 1 - ds.length) '0' ++ ds
  if places = 0 then String.ofList ds
  else String.ofList (ds.take (ds.length - places) ++ '.' :: ds.drop (ds.length - places))

end Workshop.Decimal
