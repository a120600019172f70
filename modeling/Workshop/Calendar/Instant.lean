/-
  Workshop/Calendar/Instant.lean
  ==============================
  **Instants and their RFC 3339 text.**  An instant is a date, a second of that day
  and a nanosecond, all in universal time.  A leap second follows the last second of a
  minute: there the nanoseconds run on from 10⁹ to 2·10⁹.

  The time of day is written with 0, 3, 6 or 9 fraction digits, the fewest that lose
  nothing, and a leap second as second 60.  Reading accepts any offset below a day and
  moves the instant to universal time.
-/
import Workshop.Calendar.DateText

namespace Workshop

/-- A moment in universal time. -/
structure Instant where
  date : Date
  second : Nat
  nano : Nat
  second_lt : second < 86400 := by omega
  nano_lt : nano < 2000000000 := by omega
  leap_last : 1000000000 ≤ nano → second % 60 = 59 := by omega
deriving DecidableEq, Repr

namespace Instant

/-- Midnight at the start of a date. -/
def midnight (d : Date) : Instant := ⟨d, 0, 0, by decide, by decide, by decide⟩

/-! ### Writing -/

/-- The fewest of 0, 3, 6 or 9 fraction digits that lose nothing, after a point. -/
def writeFraction (nano : Nat) : String :=
  if nano = 0 then ""
  else if nano % 1000000 = 0 then "." ++ DateText.padded 3 (nano / 1000000)
  else if nano % 1000 = 0 then "." ++ DateText.padded 6 (nano / 1000)
  else "." ++ DateText.padded 9 nano

/-- The written form without its offset. -/
def writeLocal (t : Instant) : String :=
  let leap := 1000000000 ≤ t.nano
  let second := t.second % 60 + (if leap then 1 else 0)
  let nano := if leap then t.nano - 1000000000 else t.nano
  DateText.write t.date ++ "T" ++ DateText.padded 2 (t.second / 3600) ++ ":" ++
    DateText.padded 2 (t.second / 60 % 60) ++ ":" ++ DateText.padded 2 second ++
    writeFraction nano

/-- The form in which instants are stored, with a numeric offset. -/
def write (t : Instant) : String := t.writeLocal ++ "+00:00"

/-- The form in which instants are shown. -/
def writeZulu (t : Instant) : String := t.writeLocal ++ "Z"

/-! ### Reading -/

open DateText

/-- A fraction of a second in nanoseconds; digits past the ninth are dropped. -/
def fraction (cs : List Char) : Except ReadFault (Nat × List Char) := do
  let (n, rest) ← number 1 9 cs
  let nano := n * Nat.pow 10 (9 - (cs.length - rest.length))
  .ok (nano, rest.dropWhile (digit? · |>.isSome))

/-- Two digits, taken by position and not as a number that may be shorter. -/
def twoDigits (cs : List Char) : Except ReadFault (Nat × Nat × List Char) :=
  if (String.ofList cs).utf8ByteSize < 2 then .error .endsEarly
  else match cs with
    | a :: b :: rest =>
      match digit? a, digit? b with
      | some x, some y => .ok (x, y, rest)
      | _, _ => .error .badCharacter
    | _ => .error .badCharacter

/-- An offset from universal time in minutes: `Z`, or a sign with hours and minutes.
    The typographic minus sign is a sign too. -/
def offset (cs : List Char) : Except ReadFault (Int × List Char) :=
  let clock (sign : Int) (cs : List Char) : Except ReadFault (Int × List Char) := do
    let (h1, h2, cs) ← twoDigits cs
    let cs ← expect ':' cs
    let (m1, m2, cs) ← twoDigits cs
    if 5 < m1 then .error .outOfRange
    else .ok (sign * ((h1 * 10 + h2) * 60 + (m1 * 10 + m2) : Nat), cs)
  match cs with
  | [] => .error .endsEarly
  | 'Z' :: rest => .ok (0, rest)
  | 'z' :: rest => .ok (0, rest)
  | '+' :: rest => clock 1 rest
  | '-' :: rest => clock (-1) rest
  | '−' :: rest => clock (-1) rest
  | _ :: _ => .error .badCharacter

/-- The letter or blank between date and time. -/
def separator : List Char → Except ReadFault (List Char)
  | [] => .error .endsEarly
  | c :: rest => if c = 'T' ∨ c = 't' ∨ c = ' ' then .ok rest else .error .badCharacter

/-- The instant of a local date and time at an offset in minutes. -/
def ofLocal? (date : Date) (second nano : Nat) (offsetMinutes : Int) : Option Instant :=
  let total : Int := second - offsetMinutes * 60
  match Date.ofDay? (date.day + total / 86400) with
  | none => none
  | some d =>
    if h : nano < 2000000000 ∧ (1000000000 ≤ nano → (total % 86400).toNat % 60 = 59) then
      some ⟨d, (total % 86400).toNat, nano, by omega, h.1, h.2⟩
    else none

/-- The length of the shortest text of a date and a time in bytes. -/
def shortest : Nat := 19

/-- Reads an RFC 3339 text, all of it.  A text that is too short is refused at once, a
    date that is not in the calendar before the time is looked at, and a time that is
    not on the clock before the offset is. -/
def read (s : String) : Except ReadFault Instant := do
  if s.utf8ByteSize < shortest then .error .endsEarly
  else
    let (year, cs) ← number 4 4 s.toList
    let cs ← expect '-' cs
    let (month, cs) ← number 2 2 cs
    let cs ← expect '-' cs
    let (day, cs) ← number 2 2 cs
    match (Civil.mk year month day).toDate? with
    | none => .error .outOfRange
    | some date =>
      let cs ← separator cs
      let (hour, cs) ← number 2 2 cs
      let cs ← expect ':' cs
      let (minute, cs) ← number 2 2 cs
      let cs ← expect ':' cs
      let (second, cs) ← number 2 2 cs
      let (nano, cs) ← match cs with
        | '.' :: rest => fraction rest
        | _ => .ok (0, cs)
      if 23 < hour ∨ 59 < minute ∨ 60 < second then .error .outOfRange
      else
        let (off, cs) ← offset cs
        if cs ≠ [] then .error .trailing
        else if off ≤ -1440 ∨ 1440 ≤ off then .error .outOfRange
        else
          let leap := if second = 60 then 1 else 0
          match ofLocal? date (hour * 3600 + minute * 60 + second - leap)
              (nano + leap * 1000000000) off with
          | some t => .ok t
          | none => .error .outOfRange

end Instant

end Workshop
