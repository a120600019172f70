/-
  Workshop/Text/LetterCase.lean
  =============================
  **Capital and small letters.**  Words of the shop floor are compared without regard
  to case: status words after `upper`, inspection keywords after `lower`.  Both follow
  the full case mapping of the Unicode standard, in which one character may become
  several and a capital sigma at the end of a word becomes the final small sigma.
-/
import Workshop.Text.CaseTable

namespace Workshop.Text

open CaseTable

/-- The code points a character is mapped to by runs and expansions. -/
def mapCode (runs : List Run) (expansions : List (Nat × List Nat)) (n : Nat) : List Nat :=
  match expansions.lookup n with
  | some ms => ms
  | none => [(runs.findSome? (·.send? n)).getD n]

/-- The capital form of a character. -/
def upperChar (c : Char) : List Char :=
  if 'a' ≤ c ∧ c ≤ 'z' then [Char.ofNat (c.toNat - 32)]
  else if c.toNat < 128 then [c]
  else (mapCode upperRuns upperExpansions c.toNat).map Char.ofNat

/-- The small form of a character that stands alone. -/
def lowerChar (c : Char) : List Char :=
  if 'A' ≤ c ∧ c ≤ 'Z' then [Char.ofNat (c.toNat + 32)]
  else if c.toNat < 128 then [c]
  else (mapCode lowerRuns lowerExpansions c.toNat).map Char.ofNat

/-- The text in capitals. -/
def upper (s : String) : String := String.ofList (s.toList.flatMap upperChar)

/-- Membership in a list of ranges. -/
def inRanges (ranges : List (Nat × Nat)) (c : Char) : Bool :=
  ranges.any fun r => r.1 ≤ c.toNat && c.toNat ≤ r.2

/-- The first character that is not passed over is a letter with case. -/
def metByLetter (cs : List Char) : Bool :=
  match cs.dropWhile (inRanges ignorable) with
  | [] => false
  | c :: _ => inRanges cased c

/-- The small forms of a text, with the characters before it in reverse: a capital
    sigma that ends a word has a form of its own. -/
def lowerFrom (before : List Char) : List Char → List Char
  | [] => []
  | c :: cs =>
    let small :=
      if c = 'Σ' then
        (if metByLetter before && !metByLetter cs then ['ς'] else ['σ'])
      else lowerChar c
    small ++ lowerFrom (c :: before) cs

/-- The text in small letters. -/
def lower (s : String) : String := String.ofList (lowerFrom [] s.toList)

end Workshop.Text
