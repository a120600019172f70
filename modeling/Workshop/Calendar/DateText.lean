/-
  Workshop/Calendar/DateText.lean
  ===============================
  **Written dates.**  A date is written `YYYY-MM-DD`, with a sign before a year that
  has not four digits or is negative.  Reading is more lenient: every number may stand
  after blanks, an unsigned year may have one to four digits, a signed one any number,
  and month and day one or two.

  The reader works on a list of characters and hands on what it has not read, so
  that `Instant` can continue with the time of day.  A text that cannot be read is
  refused for one of four causes (`ReadFault`).
-/
import Workshop.Calendar.Civil
import Workshop.Text.Blank

namespace Workshop

/-- Why a written date or time cannot be read. -/
inductive ReadFault where
  | endsEarly
  | trailing
  | badCharacter
  | outOfRange
deriving DecidableEq, Repr

/-- The words for a fault. -/
def ReadFault.message : ReadFault → String
  | .endsEarly => "premature end of input"
  | .trailing => "trailing input"
  | .badCharacter => "input contains invalid characters"
  | .outOfRange => "input is out of range"

namespace DateText

/-! ### Writing -/

/-- A number with leading zeros up to a width. -/
def padded (width n : Nat) : String :=
  let s := Nat.repr n
  String.ofList (List.replicate (width - s.length) '0') ++ s

/-- Years 0 to 9999 have four digits; all others carry a sign. -/
def writeYear (y : Int) : String :=
  if 0 ≤ y ∧ y ≤ 9999 then padded 4 y.toNat
  else if y < 0 then "-" ++ padded 4 y.natAbs
  else "+" ++ padded 4 y.toNat

/-- The written form of a date. -/
def write (d : Date) : String :=
  let c := d.civil
  writeYear c.year ++ "-" ++ padded 2 c.month ++ "-" ++ padded 2 c.day

/-! ### Reading -/

/-- The value of an ASCII digit. -/
def digit? (c : Char) : Option Nat :=
  if '0' ≤ c ∧ c ≤ '9' then some (c.toNat - 48) else none

/-- The largest number a reader may build up before it gives up. -/
def numberLimit : Nat := 9223372036854775807

/-- Reads up to `room` more digits onto a number; `need` of them must be there. -/
def digits : (need room acc : Nat) → List Char → Except ReadFault (Nat × List Char)
  | _, 0, acc, cs => .ok (acc, cs)
  | 0, _ + 1, acc, [] => .ok (acc, [])
  | _ + 1, _ + 1, _, [] => .error .endsEarly
  | need, room + 1, acc, c :: cs =>
    match digit? c with
    | none => if need = 0 then .ok (acc, c :: cs) else .error .badCharacter
    | some v =>
      let n := acc * 10 + v
      if numberLimit < n then .error .outOfRange else digits (need - 1) room n cs

/-- A number of `need` to `most` digits at the head of a text.  A text too short to
    hold the digits needed is refused for that before any character is looked at. -/
def number (need most : Nat) (cs : List Char) : Except ReadFault (Nat × List Char) :=
  if (String.ofList cs).utf8ByteSize < need then .error .endsEarly else digits need most 0 cs

/-- One given character. -/
def expect (c : Char) : List Char → Except ReadFault (List Char)
  | [] => .error .endsEarly
  | d :: cs => if d = c then .ok cs else .error .badCharacter

/-- A year: unsigned with up to four digits, or signed with any number. -/
def year (cs : List Char) : Except ReadFault (Int × List Char) :=
  let read (sign : Int) (most : Nat) (cs : List Char) : Except ReadFault (Int × List Char) := do
    let (n, rest) ← number 1 most cs
    let y := sign * n
    if y < -2147483648 ∨ 2147483647 < y then .error .outOfRange else .ok (y, rest)
  match cs with
  | '-' :: rest => read (-1) rest.length rest
  | '+' :: rest => read 1 rest.length rest
  | _ => read 1 4 cs

/-- A number that must lie between two bounds. -/
def bounded (need most low high : Nat) (cs : List Char) : Except ReadFault (Nat × List Char) := do
  let (n, rest) ← number need most cs
  if low ≤ n ∧ n ≤ high then .ok (n, rest) else .error .outOfRange

/-- Reads a written date, all of it. -/
def read (s : String) : Except ReadFault Date := do
  let (y, cs) ← year (Text.dropBlanks s.toList)
  let cs ← expect '-' cs
  let (m, cs) ← bounded 1 2 1 12 (Text.dropBlanks cs)
  let cs ← expect '-' cs
  let (d, cs) ← bounded 1 2 1 31 (Text.dropBlanks cs)
  if cs ≠ [] then .error .trailing
  else
    match (Civil.mk y m d).toDate? with
    | some date => .ok date
    | none => .error .outOfRange

end DateText

instance : ToString Date := ⟨DateText.write⟩

end Workshop
