/-
  Workshop/Text/Quoted.lean
  =========================
  **Quoted texts.**  Settings are shown, and lists of words entered, as JSON: a text
  stands between quotation marks, with an escape for quotation marks, backslashes and
  control characters.  Reading accepts every escape of JSON; an escape for one half of
  a surrogate pair without the other is refused.
-/

namespace Workshop.Text

/-! ### Writing -/

/-- The hexadecimal digit of a number below 16. -/
def hexDigit (n : Nat) : Char := if n < 10 then Char.ofNat (48 + n) else Char.ofNat (87 + n)

/-- A character between quotation marks. -/
def quoteChar (c : Char) : List Char :=
  if c = '"' then ['\\', '"']
  else if c = '\\' then ['\\', '\\']
  else if c = '\n' then ['\\', 'n']
  else if c = '\r' then ['\\', 'r']
  else if c = '\t' then ['\\', 't']
  else if c.toNat = 8 then ['\\', 'b']
  else if c.toNat = 12 then ['\\', 'f']
  else if c.toNat < 32 then
    ['\\', 'u', '0', '0', hexDigit (c.toNat / 16), hexDigit (c.toNat % 16)]
  else [c]

/-- A text between quotation marks. -/
def quote (s : String) : String :=
  String.ofList ('"' :: (s.toList.flatMap quoteChar ++ ['"']))

/-- Pairs of texts as a JSON object. -/
def quoteObject (entries : List (String × String)) : String :=
  "\x7b" ++ String.intercalate "," (entries.map fun e => quote e.1 ++ ":" ++ quote e.2) ++ "\x7d"

/-! ### Reading -/

/-- The value of a hexadecimal digit. -/
def hexValue? (c : Char) : Option Nat :=
  if '0' ≤ c ∧ c ≤ '9' then some (c.toNat - 48)
  else if 'a' ≤ c ∧ c ≤ 'f' then some (c.toNat - 87)
  else if 'A' ≤ c ∧ c ≤ 'F' then some (c.toNat - 55)
  else none

/-- The value of four hexadecimal digits. -/
def hexValue4? (a b c d : Char) : Option Nat := do
  let a ← hexValue? a
  let b ← hexValue? b
  let c ← hexValue? c
  let d ← hexValue? d
  some (((a * 16 + b) * 16 + c) * 16 + d)

/-- The character of an escape with one letter. -/
def escaped? (c : Char) : Option Char :=
  match c with
  | '"' => some '"'
  | '\\' => some '\\'
  | '/' => some '/'
  | 'b' => some (Char.ofNat 8)
  | 'f' => some (Char.ofNat 12)
  | 'n' => some '\n'
  | 'r' => some '\r'
  | 't' => some '\t'
  | _ => none

/-- The character that two halves of a surrogate pair make. -/
def pair? (high low : Nat) : Option Char :=
  if 0xD800 ≤ high ∧ high < 0xDC00 ∧ 0xDC00 ≤ low ∧ low < 0xE000 then
    some (Char.ofNat (0x10000 + (high - 0xD800) * 0x400 + (low - 0xDC00)))
  else none

/-- The character of a code that is no half of a pair. -/
def single? (n : Nat) : Option Char :=
  if 0xD800 ≤ n ∧ n < 0xE000 then none else some (Char.ofNat n)

/-- The text up to the closing quotation mark, and what follows it. -/
def unquote? : List Char → Option (List Char × List Char)
  | [] => none
  | '"' :: rest => some ([], rest)
  | '\\' :: 'u' :: a :: b :: c :: d :: '\\' :: 'u' :: e :: f :: g :: h :: rest => do
    let n ← hexValue4? a b c d
    match single? n with
    | some x =>
      let (text, rest) ← unquote? ('\\' :: 'u' :: e :: f :: g :: h :: rest)
      some (x :: text, rest)
    | none =>
      let m ← hexValue4? e f g h
      let x ← pair? n m
      let (text, rest) ← unquote? rest
      some (x :: text, rest)
  | '\\' :: 'u' :: a :: b :: c :: d :: rest => do
    let n ← hexValue4? a b c d
    let x ← single? n
    let (text, rest) ← unquote? rest
    some (x :: text, rest)
  | '\\' :: c :: rest => do
    let x ← escaped? c
    let (text, rest) ← unquote? rest
    some (x :: text, rest)
  | c :: rest =>
    if c.toNat < 32 ∨ c = '\\' then none
    else do
      let (text, rest) ← unquote? rest
      some (c :: text, rest)

/-- The blanks of JSON. -/
def dropJsonBlanks (cs : List Char) : List Char :=
  cs.dropWhile fun c => c == ' ' || c == '\t' || c == '\n' || c == '\r'

/-- The texts of a list after its opening bracket, and what follows the closing one;
    `room` bounds how many there are. -/
def listed? : (room : Nat) → List Char → Option (List String × List Char)
  | 0, _ => none
  | room + 1, cs =>
    match dropJsonBlanks cs with
    | '"' :: rest => do
      let (text, rest) ← unquote? rest
      match dropJsonBlanks rest with
      | ',' :: rest =>
        let (texts, rest) ← listed? room rest
        some (String.ofList text :: texts, rest)
      | ']' :: rest => some ([String.ofList text], rest)
      | _ => none
    | _ => none

/-- A JSON list of texts, and nothing else but blanks. -/
def readList? (s : String) : Option (List String) :=
  match dropJsonBlanks s.toList with
  | '[' :: rest =>
    let found := match dropJsonBlanks rest with
      | ']' :: rest => some ([], rest)
      | _ => listed? rest.length rest
    match found with
    | some (texts, rest) => if dropJsonBlanks rest = [] then some texts else none
    | none => none
  | _ => none

end Workshop.Text
