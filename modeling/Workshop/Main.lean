/-
  Workshop/Main.lean
  ==================
  **The command line.**  `workshop TODAY [HORIZON_DAYS]` reads the rows of a store from
  standard input, one a line, runs maintenance on it and prints the summary.
-/
import Workshop.Maintenance
import Workshop.Quantity.Binary

namespace Workshop.CommandLine

/-- The lines of standard input, without their ends; empty ones are passed over. -/
partial def inputLines (input : IO.FS.Stream) (lines : List String) : IO (List String) := do
  let line ← input.getLine
  if line.isEmpty then return lines.reverse
  let text := String.ofList (line.toList.filter fun c => c != '\n' && c != '\r')
  inputLines input (if text.isEmpty then lines else text :: lines)

/-- Prints why nothing was done. -/
def fail (reason : String) : IO UInt32 := do
  IO.eprintln reason
  return 1

/-- Runs maintenance on a store made of rows. -/
def maintain (today : Date) (horizonDays : Option Nat) (lines : List String) : IO UInt32 := do
  let store : Store Float := Store.empty
  match lines.mapM Maintenance.readRow? with
  | none => fail "a row cannot be read"
  | some rows =>
    match store.addRows rows with
    | (_, .error e) => fail e.message
    | (store, .ok _) =>
      match ((Maintenance.run today horizonDays).run.run store).1 with
      | .error e => fail e.message
      | .ok summary =>
        summary.lines.forM IO.println
        return 0

end Workshop.CommandLine

open Workshop in
def main (args : List String) : IO UInt32 := do
  let horizon? (raw : String) : Option Nat := Decimal.unsigned? 4294967295 (Text.trim raw)
  match args with
  | today :: rest =>
    match DateText.read today, rest.head?.map horizon? with
    | .error e, _ => CommandLine.fail (today ++ ": " ++ e.message)
    | _, some none => CommandLine.fail "the horizon is no number of days"
    | .ok date, days =>
      let lines ← CommandLine.inputLines (← IO.getStdin) []
      CommandLine.maintain date days.join lines
  | [] => CommandLine.fail "usage: workshop TODAY [HORIZON_DAYS]"
