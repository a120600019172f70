/-
  Workshop/Proofs/Execution/Freshness.lean
  ========================================
  **Availability never goes stale.**  A shop with one instance answers requests one after
  the other.  Each one that is answered keeps every work center up to date that was, and
  brings those up to date that its answer names or that were asked for
  (`Store.Refreshed`); so a work center that is up to date once stays so
  (`Store.availability_neverStale`).

  Which hours a request moves is said in `Rebooking`.  Here the keys of the rows are
  carried along with it, because the next request relies on them.
-/
import Mathlib.Logic.Relation
import Workshop.Proofs.Execution.Rebooking
import Workshop.Proofs.Execution.RebuiltLedger
import Workshop.Proofs.Store.LedgerTotal

namespace Workshop

variable {Q : Type} [Quantity Q]

/-- What one instance is asked for.  Runs and recalculations look ahead as far as the
    settings say. -/
inductive Request (Q : Type)
  | release (identify : Draft Q → String) (orderId : String)
  | act (operationId : String) (action : Action) (report : Report Q)
  | schedule (filter : SchedulingFilter) (optimizeSetup : Option Bool)
  | unschedule (orderId : String)
  | recalculate (ids : Option (List String))

open Transaction

/-- Carries out a request, and gives the work centers that the answer names as affected; for
    a recalculation these are the ones that it is asked for. -/
def Request.run (clock : Clock) : Request Q → Transaction Q (List String)
  | .release identify orderId => do
    let answer ← Production.release clock identify orderId
    pure ((answer.schedule.map (·.affectedWorkCenters)).getD [])
  | .act operationId action report => do
    let answer ← Production.transition clock operationId action report
    pure answer.outcome.affectedWorkCenters
  | .schedule filter optimizeSetup => do
    let answer ← Production.runScheduling clock filter none optimizeSetup
    pure answer.affectedWorkCenters
  | .unschedule orderId => Production.unschedule clock orderId
  | .recalculate ids => do
    let s ← current
    let _ ← Production.recalculateAvailability clock ids none
    pure (s.asked ids)

namespace Store

variable {s t u : Store Q} {centers : List String} {today : Date}

/-- The rows of the shop are told apart by their keys, those of work centers too. -/
structure AllKeyed (s : Store Q) : Prop extends Keyed s where
  workCenters : Table.Keyed s.workCenters

theorem Rebooked.allKeyed (h : Rebooked centers s t) (keyed : s.AllKeyed) : t.AllKeyed where
  toKeyed := h.keyed keyed.toKeyed
  workCenters := by
    rw [h.workCenters]
    exact keyed.workCenters

theorem AllKeyed.recalculate (keyed : s.AllKeyed) {ids : Option (List String)}
    {answer : List (String × Q)} (h : s.recalculate today ids none = .ok (answer, t)) :
    t.AllKeyed where
  toKeyed := (later_recalculate h).keyed keyed.toKeyed
  workCenters := by
    obtain ⟨ledger, listed, done⟩ := exists_recalculated keyed.workCenters h
    exact done.keyed keyed.workCenters

theorem Settled.allKeyed (h : Settled today centers t u) (keyed : t.AllKeyed) : u.AllKeyed := by
  cases h with
  | none _ same => rwa [same]
  | recalculated writes => exact keyed.recalculate writes

/-! ### One request -/

/-- What an answered request leaves: keys that tell the rows apart, and nothing stale. -/
structure Answered (today : Date) (centers : List String) (s t : Store Q) : Prop where
  keyed : t.AllKeyed
  refreshed : Refreshed today centers s t

variable [Quantity.Coherent Q] [Quantity.LawfulZero Q]

theorem Rebooked.answered (h : Rebooked centers s u) (settled : Settled today centers u t)
    (keyed : s.AllKeyed) : Answered today centers s t where
  keyed := settled.allKeyed (h.allKeyed keyed)
  refreshed := h.refreshed keyed.workCenters settled

theorem answered_of_recalculate (keyed : s.AllKeyed) {ids : Option (List String)}
    {answer : List (String × Q)} (h : s.recalculate today ids none = .ok (answer, t)) :
    Answered today (s.asked ids) s t where
  keyed := keyed.recalculate h
  refreshed :=
    (Rebooked.refl s).refreshed_of_recalculate keyed.workCenters (List.forall_mem_nil _) h

variable [Quantity.Ordered Q]

theorem answered_of_scheduleRun (keyed : s.AllKeyed) {filter : SchedulingFilter}
    {optimizeSetup : Option Bool} {result : ScheduleResult Q}
    (h : (scheduleRun today filter none optimizeSetup).run s = (.ok result, t)) :
    Answered today result.affectedWorkCenters s t := by
  obtain ⟨u, rebooked, settled⟩ := exists_rebooked_of_scheduleRun keyed.toKeyed h
  exact rebooked.answered settled keyed

theorem answered_of_release (keyed : s.AllKeyed) {clock : Clock} {identify : Draft Q → String}
    {orderId : String} {answer : ReleaseAnswer Q}
    (h : (Production.release clock identify orderId).run s = (.ok answer, t)) :
    Answered clock.today ((answer.schedule.map (·.affectedWorkCenters)).getD []) s t := by
  obtain ⟨u, rebooked, hend⟩ := Production.exists_rebooked_of_release keyed.toKeyed h
  have nothing := rebooked.refreshed_none clock.today
  rcases hend with ⟨hnone, rfl⟩ | ⟨result, hsome, hrun⟩
  · rw [hnone]
    exact ⟨rebooked.allKeyed keyed, nothing⟩
  · -- the run that follows the release does the rest
    obtain ⟨hkeyed, hrefreshed⟩ := answered_of_scheduleRun (rebooked.allKeyed keyed) hrun
    rw [hsome]
    exact ⟨hkeyed, nothing.trans rebooked.workCenters hrefreshed⟩

theorem answered_of_request (keyed : s.AllKeyed) {request : Request Q} {clock : Clock}
    (h : (request.run clock).run s = (.ok centers, t)) :
    Answered clock.today centers s t := by
  cases request with
  | release identify orderId =>
    obtain ⟨answer, _, hanswer, hids⟩ := run_bind_eq_ok_iff.mp h
    cases hids
    exact answered_of_release keyed hanswer
  | act operationId action report =>
    obtain ⟨answer, _, hanswer, hids⟩ := run_bind_eq_ok_iff.mp h
    cases hids
    obtain ⟨u, v, w, written, settled⟩ := Production.exists_written_of_answered hanswer
    exact (rebooked_of_written keyed.toKeyed written).answered settled keyed
  | schedule filter optimizeSetup =>
    obtain ⟨answer, _, hanswer, hids⟩ := run_bind_eq_ok_iff.mp h
    cases hids
    exact answered_of_scheduleRun keyed hanswer
  | unschedule orderId =>
    obtain ⟨u, rebooked, settled⟩ := Production.exists_rebooked_of_unschedule h
    exact rebooked.answered settled keyed
  | recalculate ids =>
    obtain ⟨_, _, hcurrent, hrest⟩ := run_bind_eq_ok_iff.mp h
    cases hcurrent
    obtain ⟨rates, _, hrates, hids⟩ := run_bind_eq_ok_iff.mp hrest
    cases hids
    exact answered_of_recalculate keyed (run_write_eq_ok_iff.mp hrates)

/-! ### One request after the other -/

/-- Some request has been answered on the day. -/
def AnsweredOn (today : Date) (s t : Store Q) : Prop :=
  ∃ (request : Request Q) (clock : Clock) (centers : List String),
    clock.today = today ∧ (request.run clock).run s = (.ok centers, t)

theorem upToDate_of_answeredOn (keyed : s.AllKeyed)
    (h : Relation.ReflTransGen (AnsweredOn today) s t) :
    t.AllKeyed ∧ ∀ id, s.UpToDate today id → t.UpToDate today id := by
  induction h with
  | refl => exact ⟨keyed, fun _ hid => hid⟩
  | tail _ hstep ih =>
    obtain ⟨hkeyed, hkept⟩ := ih
    obtain ⟨request, clock, centers, rfl, hrun⟩ := hstep
    obtain ⟨hkeyed, hrefreshed⟩ := answered_of_request hkeyed hrun
    exact ⟨hkeyed, fun id hid => hrefreshed.kept id (hkept id hid)⟩

/-- **Availability never goes stale.**  A request that is answered keeps all work centers up
    to date that were, and those that it is about are up to date afterwards.  So a work
    center stays up to date over any history of such requests. -/
theorem availability_neverStale (s : Store Q) (keyed : s.AllKeyed) (today : Date) :
    (∀ (request : Request Q) (clock : Clock) (centers : List String) (t : Store Q),
      clock.today = today → (request.run clock).run s = (.ok centers, t) →
        (∀ id, s.UpToDate today id → t.UpToDate today id) ∧
        ∀ id ∈ centers, s.HasWorkCenter id → t.UpToDate today id) ∧
    ∀ t, Relation.ReflTransGen (AnsweredOn today) s t →
      t.AllKeyed ∧ ∀ id, s.UpToDate today id → t.UpToDate today id := by
  constructor
  · rintro request clock centers t rfl hrun
    obtain ⟨kept, brought⟩ := (answered_of_request keyed hrun).refreshed
    exact ⟨kept, brought⟩
  · exact fun t h => upToDate_of_answeredOn keyed h

end Store

/-! ### The lathe before and after a run -/

namespace Floor

/-- The order for a shaft, in a shop that looks two weeks ahead. -/
def fortnightStore : Store Rat :=
  benchWith [("scheduling/min_operation_hours", "0.5"), ("scheduling/horizon_days", "14")]

def fortnightClock : Clock := ⟨default, .midnight default⟩

theorem horizonDays_fortnight : Settings.horizonDays fortnightStore = 14 := by decide +kernel

theorem minOperationHours_fortnight : Settings.minOperationHours fortnightStore = 1 / 2 := by
  decide +kernel

theorem scheduleRequest_fortnight :
    fortnightStore.scheduleRequest default ⟨none, none⟩ none none = benchRequest := by
  unfold Store.scheduleRequest
  rw [horizonDays_fortnight, minOperationHours_fortnight]
  rfl

theorem allKeyed_fortnight : fortnightStore.AllKeyed where
  toKeyed := keyed_benchWith _
  workCenters _ _ := List.pairwise_singleton _ _

/-- Nothing is booked at the lathe, and all of its hours are available. -/
theorem upToDate_fortnight : fortnightStore.UpToDate default "LATHE" := by
  have hledger : fortnightStore.availabilityLedger default = .ok benchLedger := by
    unfold Store.availabilityLedger
    rw [horizonDays_fortnight, minOperationHours_fortnight]
    unfold Store.buildLedger Store.loadLedgerEntries
    dsimp only
    rw [List.mergeSort_of_pairwise (by decide)]
    rfl
  refine ⟨benchCenter, benchLedger, rfl, hledger, ?_⟩
  constructor <;> decide +kernel

theorem findWorkCenter_fortnight :
    fortnightStore.findWorkCenter "LATHE" = .ok (some benchCenter) := rfl

/-- In eleven working days of eight hours, four hours are taken. -/
theorem rate_lathe {ledger : Ledger Rat} (windowStart : ledger.windowStart = default)
    (windowEnd : ledger.windowEnd = benchRequest.windowEnd) (total : ledger.total "LATHE" = 4) :
    (benchCenter.availability ledger).rate = 191 / 2 := by
  have hrate : (benchCenter.availability ledger).rate = Availability.rateOf
      (Quantity.ofInt (ledger.windowStart.businessDaysBetween ledger.windowEnd) *
        Quantity.larger 8 Quantity.zero) (ledger.total "LATHE") := rfl
  rw [hrate, windowStart, windowEnd, total]
  decide +kernel

/-- The row of the turning with the date that it gets. -/
def turningRow : Row Operation.Column Rat :=
  fortnightStore.placeRow benchPlan.scheduled benchOperation.toRow

theorem hoursAt_turningRow (d : Date) :
    turningRow.hoursAt (1 / 2) "LATHE" d = if d = default then 4 else 0 := by
  have hstart : turningRow .scheduledStart = .text (DateText.write default) := by
    rw [← Cell.isText_iff, turningRow, benchPlan_eq]
    decide +kernel
  split
  case isTrue hd =>
    subst hd
    rw [turningRow, benchPlan_eq]
    decide +kernel
  case isFalse hd =>
    refine Row.hoursAt_eq_zero fun ⟨hstarts, _⟩ => hd ?_
    exact DateText.write_injective (Cell.text.inj (hstarts.start.symm.trans hstart))

/-- A ledger that is rebuilt after the run has the four hours of the turning. -/
theorem total_lathe {s : Store Rat} {ledger : Ledger Rat} (operations : s.operations = [turningRow])
    (rebuilt : s.buildLedger default benchRequest.windowEnd (1 / 2) (fun _ => true) =
      .ok ledger) : ledger.total "LATHE" = 4 := by
  have hplanned : ∀ r ∈ s.operations, r.Planned := by
    rw [operations]
    intro r hr
    obtain rfl := List.mem_singleton.mp hr
    exact Store.planned_placeRow (planned_benchWith [] _ List.mem_cons_self)
  have hordered : DateText.OrderedWithin default benchRequest.windowEnd :=
    (DateText.orderedWithin_iff firstYear_default (Date.le_addDaysClamped default 14)).mpr
      (by decide)
  obtain ⟨built, hbuilt, hcommitted⟩ :=
    Store.exists_buildLedger hplanned hordered (1 / 2) fun _ => true
  obtain rfl : built = ledger := Except.ok.inj (hbuilt.symm.trans rebuilt)
  obtain ⟨kept, windowStart, windowEnd⟩ := Store.kept_of_buildLedger rebuilt
  have hday : ∀ d, default ≤ d → d ≤ benchRequest.windowEnd →
      built.committed "LATHE" d = if d = default then 4 else 0 := by
    intro d hfrom hto
    rw [(hcommitted d hfrom hto).2 "LATHE" rfl, operations, List.map_singleton,
      List.sum_singleton, hoursAt_turningRow]
  rw [kept.total_eq_finsum, finsum_eq_single _ (default : Date),
    hday default (by decide) (by decide), if_pos rfl]
  intro d hd
  by_cases hin : default ≤ d ∧ d ≤ benchRequest.windowEnd
  · rw [hday d hin.1 hin.2, if_neg hd]
  · refine kept.committed_of_not_contains ?_ "LATHE"
    rw [Ledger.contains, windowStart, windowEnd, ← Bool.not_eq_true, Bool.and_eq_true,
      decide_eq_true_eq, decide_eq_true_eq]
    exact hin

/-- The recalculation after the run enters what the turning has left of the lathe. -/
theorem findWorkCenter_afterRun {t : Store Rat}
    (ran : (Transaction.scheduleRun default ⟨none, none⟩ none none).run fortnightStore =
      (.ok benchPlan, t)) (operations : t.operations = [turningRow]) :
    t.findWorkCenter "LATHE" = .ok (some { benchCenter with availabilityRate := 191 / 2 }) := by
  obtain ⟨u, rebooked, settled⟩ :=
    Transaction.exists_rebooked_of_scheduleRun allKeyed_fortnight.toKeyed ran
  rw [affectedWorkCenters_bench] at rebooked settled
  cases settled with
  | none centers_eq same => cases centers_eq
  | recalculated writes =>
    have keyed : Table.Keyed u.workCenters := rebooked.workCenters ▸ allKeyed_fortnight.workCenters
    obtain ⟨ledger, listed, done⟩ := Store.exists_recalculated keyed writes
    have hwas : u.findWorkCenter "LATHE" = .ok (some benchCenter) :=
      (Store.findWorkCenter_congr rebooked.workCenters _).trans findWorkCenter_fortnight
    obtain ⟨wc, hwc, hid⟩ := done.listed.all "LATHE" List.mem_cons_self
      (Store.hasWorkCenter_of_findWorkCenter hwas)
    obtain rfl : wc = benchCenter := by
      have hread := done.listed.found wc hwc
      rw [hid, hwas] at hread
      exact (Option.some.inj (Except.ok.inj hread)).symm
    have hoperations : u.operations = [turningRow] := by
      rw [done.written] at operations
      exact operations
    have hrebuilt : u.buildLedger default benchRequest.windowEnd (1 / 2) (fun _ => true) =
        .ok ledger := by
      have hledger := done.rebuilt
      rw [Store.availabilityLedger, Store.horizonDays_congr rebooked.settings,
        horizonDays_fortnight, Store.minOperationHours_congr rebooked.settings,
        minOperationHours_fortnight] at hledger
      exact hledger
    obtain ⟨-, windowStart, windowEnd⟩ := Store.kept_of_buildLedger hrebuilt
    have hrate := rate_lathe windowStart windowEnd (total_lathe hoperations hrebuilt)
    have hkept : (191 / 2 : Rat) + Quantity.zero = 191 / 2 := add_zero _
    have hfound := done.found hwc
    rw [hrate, hkept] at hfound
    exact hfound

/-- The turning takes hours of the lathe, and its availability is up to date again: before
    the run all of its hours are available, and after it 95.5 percent. -/
theorem availability_neverStale_lathe :
    (fortnightStore.AllKeyed ∧ fortnightStore.HasWorkCenter "LATHE" ∧
      fortnightStore.UpToDate default "LATHE") ∧
    fortnightStore.findWorkCenter "LATHE" = .ok (some benchCenter) ∧
      benchCenter.availabilityRate = 100 ∧
    ∃ t, ((Request.schedule ⟨none, none⟩ none).run fortnightClock).run fortnightStore =
        (.ok ["LATHE"], t) ∧
      Relation.ReflTransGen (Store.AnsweredOn default) fortnightStore t ∧
      (∃ r ∈ t.operations, (r .scheduledStart).isNull = false) ∧
      t.findWorkCenter "LATHE" = .ok (some { benchCenter with availabilityRate := 191 / 2 }) ∧
      t.AllKeyed ∧ t.UpToDate default "LATHE" := by
  obtain ⟨t, hrun, hoperations⟩ := run_benchWith scheduleRequest_fortnight
  have hanswer : ((Request.schedule ⟨none, none⟩ none).run fortnightClock).run fortnightStore =
      (.ok ["LATHE"], t) := by
    rw [← affectedWorkCenters_bench]
    exact run_bind_eq_ok_iff.mpr ⟨benchPlan, t, hrun, rfl⟩
  have hhas : fortnightStore.HasWorkCenter "LATHE" := ⟨_, List.mem_cons_self, rfl⟩
  have hdated : ((benchWith []).placeRow benchPlan.scheduled benchOperation.toRow
      .scheduledStart).isNull = false := by
    rw [benchPlan_eq]
    decide +kernel
  have hhistory : Relation.ReflTransGen (Store.AnsweredOn default) fortnightStore t :=
    .single ⟨_, fortnightClock, _, rfl, hanswer⟩
  obtain ⟨hrequest, hstays⟩ :=
    Store.availability_neverStale fortnightStore allKeyed_fortnight default
  obtain ⟨-, hbrought⟩ := hrequest _ fortnightClock _ t rfl hanswer
  refine ⟨⟨allKeyed_fortnight, hhas, upToDate_fortnight⟩, findWorkCenter_fortnight, rfl, t,
    hanswer, hhistory, ?_, ?_, ?_, ?_⟩
  · exact ⟨_, hoperations ▸ List.mem_cons_self, hdated⟩
  · exact findWorkCenter_afterRun hrun hoperations
  · exact (hstays t hhistory).1
  · exact hbrought "LATHE" List.mem_cons_self hhas

end Floor

end Workshop
