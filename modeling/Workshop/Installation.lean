/-
  Workshop/Installation.lean
  ==========================
  **Where the store is kept, and what is traced.**  The place of the store and the
  tracing of its statements are set from outside, as texts that may be missing.

  Only the settings are here: the counts and the log of slow statements that tracing
  leads to have no effect on what is stored or answered.
-/
import Workshop.Decimal.Literal
import Workshop.Store.Fault
import Workshop.Text.LetterCase

namespace Workshop

namespace Installation

/-! ### The place of the store -/

/-- The place that is set, without blanks around it. -/
def storePath? (setting : Option String) : Option String :=
  match setting.map Text.trim with
  | some path => if path = "" then none else some path
  | none => none

/-- The directory of a path: what stands before the last slash. -/
def directory (path : String) : String :=
  let before := (path.toList.reverse.dropWhile (· != '/')).reverse
  match before with
  | [] => "."
  | ['/'] => "/"
  | cs => String.ofList cs.dropLast

/-- A store can be opened in memory, or in a file of a directory that exists. -/
def canOpen (directoryExists : String → Bool) (path : String) : Bool :=
  path == ":memory:" || path == "" ||
    (directoryExists (directory path) && !directoryExists path)

/-- Refuses a place where no store can be opened. -/
def openAt (directoryExists : String → Bool) (path : String) : Except StoreFault Unit :=
  if canOpen directoryExists path then .ok ()
  else .error (.query ("unable to open database file: " ++ path))

/-- Why a whole installation cannot be set up. -/
def setupFault (reason : String) : String := "无法打开数据库: " ++ reason

/-! ### Tracing -/

/-- Whether statements are traced, and from how many milliseconds on one is slow. -/
structure Tracing where
  enabled : Bool
  slowMillis : Nat
deriving DecidableEq, Repr

/-- The words that switch tracing on. -/
def isOn (s : String) : Bool := ["1", "true", "yes", "on"].contains (Text.lower (Text.trim s))

/-- Tracing is on unless it is set to anything but a word for on; a statement is slow
    from 50 milliseconds on unless another number is set. -/
def tracing (switch slow : Option String) : Tracing where
  enabled := (switch.map isOn).getD true
  slowMillis :=
    (slow.bind fun s => Decimal.unsigned? 18446744073709551615 (Text.trim s)).getD 50

end Installation

end Workshop
