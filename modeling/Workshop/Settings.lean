/-
  Workshop/Settings.lean
  ======================
  **Settings.**  Settings are kept as texts under keys.  A setting that is missing or
  cannot be read has a standard value, so no setting ever stops the work.

  Settings of narrower scopes than the whole shop floor, and the times at which settings
  were made, are read nowhere and left out.
-/
import Workshop.Explosion.Drafts
import Workshop.Store.Basic
import Workshop.Text.Quoted

namespace Workshop

namespace Store

variable {Q : Type} [Quantity Q]

/-- The text of a setting. -/
def setting? (s : Store Q) (key : String) : Option String := s.settings.lookup key

/-- Puts the text of a setting in place of an earlier one, or behind the others. -/
def putSetting (key value : String) : List (String × String) → List (String × String)
  | [] => [(key, value)]
  | (k, v) :: rest => if k = key then (k, value) :: rest else (k, v) :: putSetting key value rest

/-- Makes a setting. -/
def setSetting (s : Store Q) (key value : String) : Store Q :=
  { s with settings := putSetting key value s.settings }

/-- All settings as a JSON object, by key. -/
def settingsText (s : Store Q) : String :=
  Text.quoteObject (s.settings.mergeSort fun a b => decide (a.1 ≤ b.1))

end Store

namespace Settings

variable {Q : Type} [Quantity Q]

/-- A setting as it is read, or its standard value. -/
def readOr {α : Type} (s : Store Q) (key : String) (read : String → Option α) (standard : α) : α :=
  ((s.setting? key).bind fun text => read (Text.trim text)).getD standard

/-- Exactly `true` or `false`. -/
def readBool? (s : String) : Option Bool :=
  if s = "true" then some true else if s = "false" then some false else none

/-- The days that scheduling looks ahead. -/
def horizonDays (s : Store Q) : Nat :=
  readOr s "scheduling/horizon_days" (Decimal.unsigned? 4294967295) 30

/-- Whether operations on the same part are scheduled together. -/
def optimizeSetup (s : Store Q) : Bool := readOr s "scheduling/optimize_setup" readBool? false

/-- The least hours that an operation takes: finite and not negative. -/
def minOperationHours (s : Store Q) : Q :=
  let standard : Q := Quantity.ofInt 1
  let hours := readOr s "scheduling/min_operation_hours"
    (fun text => (Decimal.Literal.entered? text).bind Quantity.ofLiteral?) standard
  if Quantity.isFinite hours ∧ Quantity.zero ≤ hours then hours else standard

/-- Whether an order is scheduled when it is released. -/
def rescheduleOnRelease (s : Store Q) : Bool :=
  readOr s "scheduling/reschedule_on_release" readBool? true

/-- The length to which group keys are cut: at least one. -/
def maxGroupKeyLength (s : Store Q) : Nat :=
  max 1 (readOr s "explosion/max_group_key_len" (Decimal.unsigned? 18446744073709551615)
    ExplosionSettings.standard.maxGroupKeyLength)

/-- The words by which inspections are known, in small letters. -/
def inspectionKeywords (s : Store Q) : List String :=
  match (s.setting? "explosion/inspection_keywords").bind Text.readList? with
  | some words => (words.map fun w => Text.lower (Text.trim w)).filter (· != "")
  | none => ExplosionSettings.standardKeywords

/-- The settings of explosion. -/
def explosion (s : Store Q) : ExplosionSettings := ⟨maxGroupKeyLength s, inspectionKeywords s⟩

end Settings

end Workshop
