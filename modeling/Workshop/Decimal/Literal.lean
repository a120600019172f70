/-
  Workshop/Decimal/Literal.lean
  =============================
  **Written numbers.**  A literal keeps a decimal number exactly as it was written:
  sign, digits and a power of ten, or one of the words for the values that no digits
  can write.  `Literal.entered?` reads what a person may enter as a setting;
  `Literal.numeric?` reads what a numeric column takes for a number; `Literal.leading`
  reads as much of a text as is a number.  `unsigned?` reads whole numbers with a limit.
-/
import Workshop.Text.Blank

namespace Workshop.Decimal

/-- A number as it is written; a finite one is `digits * 10 ^ exponent`. -/
inductive Literal where
  | notANumber
  | infinite (negative : Bool)
  | finite (negative : Bool) (digits : Nat) (exponent : Int)
deriving DecidableEq, Repr

namespace Literal

/-- An ASCII digit. -/
def isDigit (c : Char) : Bool := '0' ≤ c && c ≤ '9'

/-- The number that a row of digits writes, after the digits in `acc`. -/
def digitsValue (acc : Nat) (cs : List Char) : Nat :=
  cs.foldl (fun n c => n * 10 + (c.toNat - 48)) acc

/-- A sign at the head of a text; `true` is minus. -/
def sign : List Char → Bool × List Char
  | '-' :: cs => (true, cs)
  | '+' :: cs => (false, cs)
  | cs => (false, cs)

/-- An exponent at the head of a text, when one is complete there. -/
def exponent? : List Char → Option (Int × List Char)
  | c :: cs =>
    if c = 'e' ∨ c = 'E' then
      let (negative, cs) := sign cs
      match cs.takeWhile isDigit with
      | [] => none
      | ds =>
        let n : Int := digitsValue 0 ds
        some (if negative then -n else n, cs.dropWhile isDigit)
    else none
  | [] => none

/-- Digits with an optional point among, before or after them, and an optional
    exponent; what follows is handed back. -/
def decimal? (negative : Bool) (cs : List Char) : Option (Literal × List Char) :=
  let whole := cs.takeWhile isDigit
  let rest := cs.dropWhile isDigit
  let (places, rest) : List Char × List Char := match rest with
    | '.' :: r => (r.takeWhile isDigit, r.dropWhile isDigit)
    | r => ([], r)
  if whole = [] ∧ places = [] then none
  else
    let n := digitsValue (digitsValue 0 whole) places
    let shift : Int := places.length
    match exponent? rest with
    | some (e, rest) => some (.finite negative n (e - shift), rest)
    | none => some (.finite negative n (-shift), rest)

/-- The ASCII small form of a word. -/
def plainLower (cs : List Char) : List Char := cs.map Char.toLower

/-- An entered number: a decimal number, or `inf`, `infinity` or `nan` in any case,
    with an optional sign and nothing else. -/
def entered? (s : String) : Option Literal :=
  let (negative, cs) := sign s.toList
  let word := String.ofList (plainLower cs)
  if word = "inf" ∨ word = "infinity" then some (.infinite negative)
  else if word = "nan" then some .notANumber
  else
    match decimal? negative cs with
    | some (l, []) => some l
    | _ => none

/-- The blanks of a stored number: ASCII space, tab, line feed, vertical tab, form
    feed and carriage return. -/
def isPlainBlank (c : Char) : Bool := c == ' ' || (9 ≤ c.toNat && c.toNat ≤ 13)

/-- A text that is a decimal number, apart from blanks around it. -/
def numeric? (s : String) : Option Literal :=
  let (negative, cs) := sign (s.toList.dropWhile isPlainBlank)
  match decimal? negative cs with
  | some (l, rest) => if rest.all isPlainBlank then some l else none
  | none => none

/-- The number at the head of a text, or zero. -/
def leading (s : String) : Literal :=
  let (negative, cs) := sign (s.toList.dropWhile isPlainBlank)
  match decimal? negative cs with
  | some (l, _) => l
  | none => .finite false 0 0

/-- Written as a whole number, without point and exponent. -/
def integer? (s : String) : Option Int :=
  let (negative, cs) := sign (s.toList.dropWhile isPlainBlank)
  let ds := cs.takeWhile isDigit
  if ds ≠ [] ∧ (cs.dropWhile isDigit).all isPlainBlank then
    let n : Int := digitsValue 0 ds
    some (if negative then -n else n)
  else none

end Literal

/-- A whole number from 0 to `limit`, all digits after an optional plus sign. -/
def unsigned? (limit : Nat) (s : String) : Option Nat :=
  let cs := match s.toList with
    | '+' :: cs => cs
    | cs => cs
  if cs ≠ [] ∧ cs.all Literal.isDigit then
    let n := Literal.digitsValue 0 cs
    if n ≤ limit then some n else none
  else none

end Workshop.Decimal
