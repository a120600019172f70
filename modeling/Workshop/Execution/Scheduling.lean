/-
  Workshop/Execution/Scheduling.lean
  ==================================
  **Scheduling against the store.**  A run has two phases.  `Store.planSchedule` reads
  the store, rebuilds the ledger from the dates in it and places the candidates;
  `Store.commitSchedule` writes the dates under guard and turns placements that came
  too late into conflicts.

  The availability of work centers is recalculated as a whole from the same ledger
  (`Store.recalculate`), never corrected by differences.
-/
import Workshop.Execution.Fault
import Workshop.Schedule.FirstFit
import Workshop.Settings
import Workshop.Store.Catalog
import Workshop.Store.Orders

namespace Workshop

/-- What a scheduling run is about; nothing given means everything. -/
structure SchedulingFilter where
  workCenterIds : Option (List String)
  orderId : Option String
deriving DecidableEq, Repr

/-- A computation on the store that can be refused.  What it wrote before a refusal
    stays written. -/
abbrev Transaction (Q α : Type) := ExceptT ExecutionFault (StateM (Store Q)) α

namespace Transaction

variable {Q : Type}

/-- Reads the store. -/
def read {α : Type} (f : Store Q → Except StoreFault α) : Transaction Q α :=
  ExceptT.mk fun s =>
    match f s with
    | .ok a => (.ok a, s)
    | .error e => (.error (.ofStore e), s)

/-- Writes the store; a write that fails changes nothing. -/
def write {α : Type} (f : Store Q → Except StoreFault (α × Store Q)) : Transaction Q α :=
  ExceptT.mk fun s =>
    match f s with
    | .ok (a, t) => (.ok a, t)
    | .error e => (.error (.ofStore e), s)

/-- The store as it is. -/
def current : Transaction Q (Store Q) := ExceptT.mk fun s => (.ok s, s)

/-- Refuses a request. -/
def refuse {α : Type} (e : ExecutionFault) : Transaction Q α := ExceptT.mk fun s => (.error e, s)

/-- What the rules give, or their refusal. -/
def obey {α : Type} [Quantity Q] (r : Except (Fault Q) α) : Transaction Q α :=
  match r with
  | .ok a => pure a
  | .error e => refuse (.ofRules e)

end Transaction

namespace Store

variable {Q : Type} [Quantity Q]

/-- The ledger of a window, rebuilt from the store, of the work centers that count. -/
def buildLedger (s : Store Q) (windowStart windowEnd : Date) (minHours : Q)
    (counts : String → Bool) : Except StoreFault (Ledger Q) := do
  let entries ← s.loadLedgerEntries windowStart windowEnd minHours
  .ok (Ledger.ofEntries windowStart windowEnd (entries.filter fun e => counts e.workCenterId))

/-- The terms of a run: what is asked for, and the settings where nothing is. -/
def scheduleRequest (s : Store Q) (today : Date) (filter : SchedulingFilter)
    (horizonDays : Option Nat) (optimizeSetup : Option Bool) : ScheduleRequest Q where
  today := today
  horizonDays := horizonDays.getD (Settings.horizonDays s)
  optimizeSetup := optimizeSetup.getD (Settings.optimizeSetup s)
  minOperationHours := Settings.minOperationHours s
  workCenterFilter := filter.workCenterIds
  orderFilter := filter.orderId

/-- The reading phase of a run: places what can be placed, and writes nothing. -/
def planSchedule (s : Store Q) (request : ScheduleRequest Q) :
    Except StoreFault (ScheduleResult Q × Ledger Q) := do
  let centers ← s.listActiveWorkCenters
  let included := centers.filter fun wc => request.includesWorkCenter wc.workCenterId
  let ledger ← s.buildLedger request.today request.windowEnd request.minOperationHours
    request.includesWorkCenter
  let active ← s.listActiveOrders request.orderFilter
  let worksets := active.map fun p => Workset.ofOperations p.1 p.2
  .ok (schedule request worksets (WorkCenters.ofList included) ledger)

/-- The writing phase of a run: writes the dates of operations that have none, and
    reports the others as lost. -/
def commitSchedule (s : Store Q) (result : ScheduleResult Q) : Store Q × ScheduleResult Q :=
  let (t, rejected) :=
    s.writeSchedule (result.scheduled.map fun p => (p.operationId, p.start, p.stop))
  (t, result.withLost rejected)

/-- Rates by work center, ascending; of two for the same the later counts. -/
def rateTable (rates : List (String × Q)) : List (String × Q) :=
  (Text.ascending (rates.map (·.1))).filterMap fun id =>
    (rates.reverse.lookup id).map fun rate => (id, rate)

/-- Recalculates the availability of the given work centers, or of all active ones,
    over the window from today on. -/
def recalculate (s : Store Q) (today : Date) (workCenterIds : Option (List String))
    (horizonDays : Option Nat) : Except StoreFault (List (String × Q) × Store Q) := do
  let horizon := horizonDays.getD (Settings.horizonDays s)
  let centers ← match workCenterIds with
    | some ids => s.listWorkCentersByIds ids
    | none => s.listActiveWorkCenters
  let ledger ← s.buildLedger today (today.addDaysClamped horizon) (Settings.minOperationHours s)
    fun _ => true
  let rates := centers.map fun wc => (wc.workCenterId, (wc.availability ledger).rate)
  let (t, _) ← s.updateAvailabilityRates rates
  .ok (rateTable rates, t)

end Store

namespace Transaction

variable {Q : Type} [Quantity Q]

/-- A whole run: plan, commit, and the availability of the work centers it changed. -/
def scheduleRun (today : Date) (filter : SchedulingFilter) (horizonDays : Option Nat)
    (optimizeSetup : Option Bool) : Transaction Q (ScheduleResult Q) := do
  let s ← current
  let request := s.scheduleRequest today filter horizonDays optimizeSetup
  let (plan, _) ← read fun s => s.planSchedule request
  let result ← write fun s =>
    let (t, result) := s.commitSchedule plan
    .ok (result, t)
  if result.affectedWorkCenters ≠ [] then
    let _ ← write fun s =>
      s.recalculate today (some result.affectedWorkCenters) (some request.horizonDays)
  pure result

end Transaction

end Workshop
