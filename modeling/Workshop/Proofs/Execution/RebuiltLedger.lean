/-
  Workshop/Proofs/Execution/RebuiltLedger.lean
  ============================================
  **The ledger of a run is the one that its store gives.**  A run books each placement on
  the ledger that it has built from the store, and then writes the dates.  In exact numbers
  the ledger that is built from the store after that commits the same hours on every day of
  the window (`scheduleRun_rebuilds`).

  Each placement finds one row that waits for it (`Store.Awaits`).  When its dates are
  written, its hours are added to those of the rows, and the other placements find their rows
  as before; so the hours of the rows grow by what the run has booked (`Store.sum_placeRow`).
-/
import Workshop.Proofs.Execution.Interleaving
import Workshop.Proofs.Store.BuiltLedger
import Workshop.Proofs.Store.ExecutionRecords

namespace Workshop

/-- What a placement books. -/
def Placement.entry {Q : Type} (p : Placement Q) : LedgerEntry Q :=
  ⟨p.workCenterId, p.start, p.hours⟩

theorem Ledger.bookAll_eq_enter {Q : Type} [Quantity Q] (l : Ledger Q) (ps : List (Placement Q)) :
    l.bookAll ps = l.enter (ps.map Placement.entry) := by
  unfold bookAll enter
  rw [List.foldl_map]
  rfl

namespace Store

variable {s : Store Rat} {minHours : Rat}

/-! ### Placements that are written -/

/-- The row is open for a placement, which has its work center and its hours. -/
structure IsFor (s : Store Rat) (minHours : Rat) (p : Placement Rat)
    (r : Row Operation.Column Rat) : Prop where
  isOpen : s.isOpen p.operationId r = true
  workCenterId : r .workCenterId = .text p.workCenterId
  status : r .status ≠ .text OperationStatus.complete.word
  hours : committedHours minHours r = some p.hours

/-- One of the rows is for a placement, and no other one is open for it. -/
def Awaits (s : Store Rat) (minHours : Rat) (rows : List (Row Operation.Column Rat))
    (p : Placement Rat) : Prop :=
  ∃ before r after, rows = before ++ r :: after ∧ s.IsFor minHours p r ∧
    ∀ t ∈ before ++ after, s.isOpen p.operationId t = false

theorem committedHours_of_laterRow {r t : Row Operation.Column Rat} (h : LaterRow r t) :
    committedHours minHours t = committedHours minHours r := by
  unfold committedHours
  rw [h.same .setupHours (by decide) (by decide), h.same .runHours (by decide) (by decide)]

variable {rows : List (Row Operation.Column Rat)} {p q : Placement Rat}

/-- A row that gets the dates of a placement gets its hours as well. -/
theorem IsFor.hoursAt_dateRow {r : Row Operation.Column Rat} (h : s.IsFor minHours p r)
    (id : String) (d : Date) : (s.dateRow p r).hoursAt minHours id d =
      r.hoursAt minHours id d + p.entry.hoursAt id d := by
  have hrow := laterRow_dateRow s p r
  have hstart : (s.dateRow p r) .scheduledStart = .text (DateText.write p.start) := by
    rw [dateRow, if_pos h.isOpen]
    exact withDates_cell p.start p.stop r .scheduledStart
  have hstarts : (s.dateRow p r).StartsAt p.workCenterId p.start :=
    ⟨(hrow.same .workCenterId (by decide) (by decide)).trans h.workCenterId, hstart⟩
  have hstatus : (s.dateRow p r) .status ≠ .text OperationStatus.complete.word := by
    rw [hrow.same .status (by decide) (by decide)]
    exact h.status
  have hnone : r.hoursAt minHours id d = 0 := by
    apply Row.hoursAt_eq_zero
    rintro ⟨hdated, -⟩
    have hnull := (isOpen_iff.mp h.isOpen).2.1
    rw [hdated.start] at hnull
    cases hnull
  have hhours : committedHours minHours (s.dateRow p r) = some p.hours :=
    (committedHours_of_laterRow hrow).trans h.hours
  rw [hnone, zero_add]
  unfold LedgerEntry.hoursAt
  split
  case isTrue hat =>
    rw [LedgerEntry.isAt, Bool.and_eq_true, beq_iff_eq, beq_iff_eq] at hat
    obtain ⟨rfl, rfl⟩ := hat
    rw [Placement.entry, Row.hoursAt_of_startsAt hstarts hstatus, hhours]
    rfl
  case isFalse hat =>
    apply Row.hoursAt_eq_zero
    rintro ⟨hat', -⟩
    obtain ⟨hid, hd⟩ := hstarts.unique hat'
    exact hat (by simp [LedgerEntry.isAt, Placement.entry, hid, hd])

theorem dateRow_eq_self {t : Row Operation.Column Rat} (h : s.isOpen p.operationId t = false) :
    s.dateRow p t = t :=
  if_neg (Bool.eq_false_iff.mp h)

/-- The write of one placement adds its hours to those of the rows. -/
theorem Awaits.sum_dateRow (h : s.Awaits minHours rows p) (id : String) (d : Date) :
    ((rows.map (s.dateRow p)).map (Row.hoursAt minHours id d)).sum =
      (rows.map (Row.hoursAt minHours id d)).sum + p.entry.hoursAt id d := by
  obtain ⟨before, r, after, rfl, hfor, hothers⟩ := h
  -- the rows around it are not open for the placement and stay what they are
  have hbefore : before.map (s.dateRow p) = before :=
    (List.map_congr_left fun t ht =>
      dateRow_eq_self (hothers t (List.mem_append_left _ ht))).trans (List.map_id _)
  have hafter : after.map (s.dateRow p) = after :=
    (List.map_congr_left fun t ht =>
      dateRow_eq_self (hothers t (List.mem_append_right _ ht))).trans (List.map_id _)
  rw [List.map_append, List.map_cons, hbefore, hafter]
  simp only [List.map_append, List.map_cons, List.sum_append, List.sum_cons]
  rw [hfor.hoursAt_dateRow]
  ring

/-- The write of one placement leaves the rows waiting for another one. -/
theorem Awaits.dateRow (h : s.Awaits minHours rows q) (hne : p.operationId ≠ q.operationId) :
    s.Awaits minHours (rows.map (s.dateRow p)) q := by
  obtain ⟨before, r, after, rfl, hfor, hothers⟩ := h
  have hrow := laterRow_dateRow s p r
  refine ⟨before.map (s.dateRow p), s.dateRow p r, after.map (s.dateRow p), ?_, ?_, ?_⟩
  · rw [List.map_append, List.map_cons]
  · constructor
    · rw [isOpen_dateRow hne]
      exact hfor.isOpen
    · exact (hrow.same .workCenterId (by decide) (by decide)).trans hfor.workCenterId
    · rw [hrow.same .status (by decide) (by decide)]
      exact hfor.status
    · exact (committedHours_of_laterRow hrow).trans hfor.hours
  · intro t ht
    rw [← List.map_append] at ht
    obtain ⟨u, hu, rfl⟩ := List.mem_map.mp ht
    rw [isOpen_dateRow hne]
    exact hothers u hu

/-- The write of all placements adds the hours of all. -/
theorem sum_placeRow {ps : List (Placement Rat)} (distinct : (ps.map (·.operationId)).Nodup)
    (h : ∀ p ∈ ps, s.Awaits minHours rows p) (id : String) (d : Date) :
    ((rows.map (s.placeRow ps)).map (Row.hoursAt minHours id d)).sum =
      (rows.map (Row.hoursAt minHours id d)).sum +
        ((ps.map Placement.entry).map (LedgerEntry.hoursAt id d)).sum := by
  induction ps generalizing rows with
  | nil =>
    have hsame : rows.map (s.placeRow []) = rows := List.map_id _
    rw [hsame]
    exact (add_zero _).symm
  | cons p ps ih =>
    rw [List.map_cons, List.nodup_cons] at distinct
    obtain ⟨hnew, distinct⟩ := distinct
    have hwaits : ∀ q ∈ ps, s.Awaits minHours (rows.map (s.dateRow p)) q := fun q hq =>
      (h q (List.mem_cons_of_mem p hq)).dateRow fun heq => hnew (heq ▸ List.mem_map_of_mem hq)
    have hrest := ih distinct hwaits
    have hfirst : (rows.map (s.dateRow p)).map (s.placeRow ps) = rows.map (s.placeRow (p :: ps)) :=
      List.map_map
    rw [hfirst, (h p List.mem_cons_self).sum_dateRow] at hrest
    rw [hrest, List.map_cons, List.map_cons, List.sum_cons, add_assoc]

theorem planned_dateRow {r : Row Operation.Column Rat} (h : r.Planned) :
    (s.dateRow p r).Planned := by
  have hrow := laterRow_dateRow s p r
  obtain ⟨id, hid⟩ := h.workCenterId
  refine ⟨⟨id, (hrow.same .workCenterId (by decide) (by decide)).trans hid⟩, ?_, ?_, ?_⟩
  · unfold Store.dateRow
    split
    · exact Or.inr ⟨p.start, withDates_cell p.start p.stop r .scheduledStart⟩
    · exact h.start
  · rw [hrow.same .setupHours (by decide) (by decide)]
    exact h.setupHours
  · rw [hrow.same .runHours (by decide) (by decide)]
    exact h.runHours

theorem planned_placeRow {ps : List (Placement Rat)} {r : Row Operation.Column Rat}
    (h : r.Planned) : (s.placeRow ps r).Planned := by
  induction ps generalizing r with
  | nil => exact h
  | cons p ps ih => exact ih (planned_dateRow h)

/-! ### The placements of a run -/

/-- The ledger that the store gives for the window of a run commits the same hours there as
    another one, at the work centers that the run is about. -/
def Rebuilds (s : Store Rat) (request : ScheduleRequest Rat) (ledger : Ledger Rat) : Prop :=
  ∃ rebuilt, s.buildLedger request.today request.windowEnd request.minOperationHours
      request.includesWorkCenter = .ok rebuilt ∧
    ∀ id, request.includesWorkCenter id = true → ∀ d, request.today ≤ d →
      d ≤ request.windowEnd → ledger.committed id d = rebuilt.committed id d

theorem not_isOpen_of_keyed (keyed : s.Keyed) {before after : List (Row Operation.Column Rat)}
    {r : Row Operation.Column Rat} (hsplit : s.operations = before ++ r :: after) {id : String}
    (hid : r .operationId = .text id) : ∀ t ∈ before ++ after, s.isOpen id t = false := by
  have hpairs := keyed.operations.pairwise (c := .operationId) (by decide)
  rw [hsplit, List.pairwise_middle fun h s hs => h s hs.symm] at hpairs
  intro t ht
  rw [Bool.eq_false_iff]
  intro hopen
  exact (List.pairwise_cons.mp hpairs).1 t ht id ⟨hid, (isOpen_iff.mp hopen).1⟩

/-- A run places operations for which the store has a row each. -/
theorem awaits_of_planSchedule (keyed : s.Keyed) (undisputed : s.disputed = [])
    {request : ScheduleRequest Rat} {plan : ScheduleResult Rat} {ledger : Ledger Rat}
    (h : s.planSchedule request = .ok (plan, ledger)) :
    ∀ p ∈ plan.scheduled, s.Awaits request.minOperationHours s.operations p := by
  intro p hp
  obtain ⟨r, op, hr, hrow⟩ := exists_row_of_placed keyed h hp
  obtain ⟨pre, post, hsplit⟩ := List.append_of_mem hr
  refine ⟨pre, r, post, hsplit, ⟨?_, hrow.workCenterId, ?_, ?_⟩, ?_⟩
  · exact isOpen_iff.mpr ⟨hrow.operationId, hrow.start, by simp [undisputed]⟩
  · refine hrow.reads.status_ne_complete fun hop => ?_
    have hschedulable := hrow.schedulable
    rw [hop] at hschedulable
    cases hschedulable
  · rw [hrow.hours]
    exact Row.committedHours_of_reads hrow.reads
  · exact not_isOpen_of_keyed keyed hsplit hrow.operationId

/-- In exact numbers a store without other writers gives the ledger of a run again, once the
    plan of the run is written. -/
theorem rebuilds_of_planSchedule (keyed : s.Keyed) (planned : ∀ r ∈ s.operations, r.Planned)
    (undisputed : s.disputed = []) {request : ScheduleRequest Rat}
    (ordered : DateText.OrderedWithin request.today request.windowEnd)
    {plan : ScheduleResult Rat} {ledger : Ledger Rat}
    (h : s.planSchedule request = .ok (plan, ledger)) :
    (s.commitSchedule plan).1.Rebuilds request ledger := by
  obtain ⟨centers, before, cs, hbefore, -, -, hledger⟩ := replay_of_planSchedule keyed h
  obtain ⟨l, hl, hrows⟩ := exists_buildLedger planned ordered request.minOperationHours
    request.includesWorkCenter
  -- the ledger of the run begins with what the rows take before the write
  obtain rfl : before = l := Except.ok.inj (hbefore.symm.trans hl)
  have hdistinct := (plans_of_planSchedule keyed h).distinct_scheduled
  have hwritten : ∀ r ∈ s.operations.map (s.placeRow plan.scheduled), r.Planned := by
    intro r hr
    obtain ⟨t, ht, rfl⟩ := List.mem_map.mp hr
    exact planned_placeRow (planned t ht)
  rw [commit_fst]
  obtain ⟨rebuilt, hrebuilt, hafter⟩ := exists_buildLedger
    (s := { s with operations := s.operations.map (s.placeRow plan.scheduled) }) hwritten ordered
    request.minOperationHours request.includesWorkCenter
  refine ⟨rebuilt, hrebuilt, fun id hid d hstart hend => ?_⟩
  obtain ⟨hcontains, hbooked⟩ := hrows d hstart hend
  calc ledger.committed id d
      = before.committed id d +
          ((plan.scheduled.map Placement.entry).map (LedgerEntry.hoursAt id d)).sum := by
        rw [hledger, Ledger.bookAll_eq_enter, Ledger.committed_enter hcontains]
    _ = (s.operations.map (Row.hoursAt request.minOperationHours id d)).sum +
          ((plan.scheduled.map Placement.entry).map (LedgerEntry.hoursAt id d)).sum := by
        rw [hbooked id hid]
    _ = ((s.operations.map (s.placeRow plan.scheduled)).map
          (Row.hoursAt request.minOperationHours id d)).sum :=
        (sum_placeRow hdistinct (awaits_of_planSchedule keyed undisputed h) id d).symm
    _ = rebuilt.committed id d := ((hafter d hstart hend).2 id hid).symm

/-- Without other writers a run loses nothing. -/
theorem commit_eq_self (keyed : s.Keyed) (undisputed : s.disputed = [])
    {request : ScheduleRequest Rat} {plan : ScheduleResult Rat} {ledger : Ledger Rat}
    (h : s.planSchedule request = .ok (plan, ledger)) : (s.commitSchedule plan).2 = plan := by
  have hnone : rejected s plan = [] := by
    unfold rejected
    rw [List.map_eq_nil_iff, List.filter_eq_nil_iff]
    intro p hp
    obtain ⟨before, r, after, hsplit, hfor, -⟩ := awaits_of_planSchedule keyed undisputed h p hp
    have hany : s.operations.any (s.isOpen p.operationId) = true :=
      List.any_eq_true.mpr ⟨r, by simp [hsplit], hfor.isOpen⟩
    rw [hany]
    exact Bool.false_ne_true
  rw [commit_snd (plans_of_planSchedule keyed h).distinct_scheduled, hnone]
  exact if_pos rfl

end Store

/-- **The rebuilt ledger is the ledger of the run.**  When a scheduling run without other
    writers is answered, its ledger and the one that the store gives right after the dates
    are written commit the same hours in the window, and so does the store that is left. -/
theorem scheduleRun_rebuilds (s : Store Rat) (keyed : s.Keyed)
    (decodes : ∀ r ∈ s.operations, ∃ op, Operation.ofRow r = .ok op)
    (dated : ∀ r ∈ s.operations,
      r .scheduledStart = .null ∨ ∃ d, r .scheduledStart = .text (DateText.write d))
    (undisputed : s.disputed = []) (today : Date) (filter : SchedulingFilter)
    (horizonDays : Option Nat) (optimizeSetup : Option Bool) (first : today.FourDigitYear)
    (last : (s.scheduleRequest today filter horizonDays optimizeSetup).windowEnd.civil.year ≤ 9999)
    {answer : ScheduleResult Rat} {t : Store Rat}
    (ran : (Transaction.scheduleRun today filter horizonDays optimizeSetup).run s =
      (.ok answer, t)) :
    let request := s.scheduleRequest today filter horizonDays optimizeSetup
    ∃ ledger, s.planSchedule request = .ok (answer, ledger) ∧
      (s.commitSchedule answer).1.Rebuilds request ledger ∧ t.Rebuilds request ledger := by
  intro request
  have hordered : DateText.OrderedWithin request.today request.windowEnd :=
    (DateText.orderedWithin_iff first (Date.le_addDaysClamped today _)).mpr last
  have hplanned : ∀ r ∈ s.operations, r.Planned := by
    intro r hr
    obtain ⟨op, hop⟩ := decodes r hr
    exact Row.planned_of_reads (Operation.ofRow_eq_ok_iff.mp hop) (dated r hr)
  have h : ScheduleRan s request (.ok answer) t := by
    have hran := scheduleRan s today filter horizonDays optimizeSetup
    rwa [ran] at hran
  cases h with
  | @answered plan ledger reads =>
    have hrebuilds := Store.rebuilds_of_planSchedule keyed hplanned undisputed hordered reads
    refine ⟨ledger, ?_, ?_, hrebuilds⟩
    · rwa [Store.commit_eq_self keyed undisputed reads]
    · rwa [Store.commit_eq_self keyed undisputed reads]
  | @recalculated plan ledger _ _ _ _ _ reads writes =>
    have hrebuilds := Store.rebuilds_of_planSchedule keyed hplanned undisputed hordered reads
    refine ⟨ledger, ?_, ?_, ?_⟩
    · rwa [Store.commit_eq_self keyed undisputed reads]
    · rwa [Store.commit_eq_self keyed undisputed reads]
    · rw [Store.recalculate_eq writes]
      exact hrebuilds

/-! ### A day on the lathe -/

namespace Floor

open Transaction

/-- The order for a shaft, in a shop where an operation takes half an hour at least. -/
def latheStore : Store Rat :=
  { benchStore with settings := [("scheduling/min_operation_hours", "0.5")] }

theorem scheduleRequest_lathe :
    latheStore.scheduleRequest default ⟨none, none⟩ (some 14) none = benchRequest := by
  have hhours : Settings.minOperationHours latheStore = 1 / 2 := by decide +kernel
  unfold Store.scheduleRequest
  rw [hhours]
  rfl

theorem affectedWorkCenters_bench : benchPlan.affectedWorkCenters = ["LATHE"] := by
  rw [benchPlan_eq]

theorem setAvailabilityRate_lathe {s : Store Rat}
    (h : s.workCenters = benchStore.workCenters) (rate : Rat) :
    ∃ t n, s.setAvailabilityRate "LATHE" rate = .ok (t, n) := by
  have hviolation : Table.updateViolation? (Table.hasKey "LATHE")
      (fun r => r.set .availabilityRate (.ofQuantity rate)) [] benchStore.workCenters = none := by
    have hcell : Cell.ofQuantity rate = .real (rate + Quantity.zero) :=
      if_neg (by rw [FirstFit.isNaN_rat]; exact Bool.false_ne_true)
    rw [hcell]
    rfl
  have hrows := Table.updateWhere_eq_ok_iff.mpr ⟨hviolation, rfl⟩
  rw [← h] at hrows
  exact ⟨_, _, bind_eq_ok_iff.mpr ⟨_, Store.orFault_eq_ok_iff.mpr hrows, rfl⟩⟩

/-- The order for a shaft, in a shop with other settings. -/
def benchWith (settings : List (String × String)) : Store Rat :=
  { benchStore with settings := settings }

theorem planned_benchWith (settings : List (String × String)) :
    ∀ r ∈ (benchWith settings).operations, r.Planned := by
  intro r hr
  obtain rfl := List.mem_singleton.mp hr
  exact Row.planned_of_reads (Operation.ofRow_eq_ok_iff.mp ofRow_benchOperation) (Or.inl rfl)

theorem keyed_benchWith (settings : List (String × String)) : (benchWith settings).Keyed :=
  ⟨keyed_bench.orders, keyed_bench.operations⟩

theorem planSchedule_benchWith (settings : List (String × String)) :
    (benchWith settings).planSchedule benchRequest = .ok (benchPlan, benchRun.2) :=
  planSchedule_bench

theorem lastYear_lathe : (latheStore.scheduleRequest default ⟨none, none⟩ (some 14)
    none).windowEnd.civil.year ≤ 9999 := by
  rw [scheduleRequest_lathe]
  decide

theorem firstYear_default : (default : Date).FourDigitYear := by
  unfold Date.FourDigitYear
  decide

theorem recalculate_benchWith (settings : List (String × String)) :
    ∃ rates t, ((benchWith settings).commitSchedule benchPlan).1.recalculate default
      (some ["LATHE"]) (some 14) = .ok (rates, t) := by
  have hfound : ((benchWith settings).commitSchedule benchPlan).1.listWorkCentersByIds ["LATHE"] =
      .ok [benchCenter] := by
    rw [Store.commit_fst]
    refine bind_eq_ok_iff.mpr ⟨[some benchCenter], rfl, ?_⟩
    exact congrArg Except.ok (List.mergeSort_singleton benchCenter)
  have hplanned : ∀ r ∈ ((benchWith settings).commitSchedule benchPlan).1.operations,
      r.Planned := by
    rw [Store.commit_fst]
    intro r hr
    obtain ⟨t, ht, rfl⟩ := List.mem_map.mp hr
    exact Store.planned_placeRow (planned_benchWith settings t ht)
  have hordered : DateText.OrderedWithin default ((default : Date).addDaysClamped 14) :=
    (DateText.orderedWithin_iff firstYear_default (Date.le_addDaysClamped default 14)).mpr
      (by decide)
  obtain ⟨ledger, hledger, -⟩ := Store.exists_buildLedger hplanned hordered
    (Settings.minOperationHours ((benchWith settings).commitSchedule benchPlan).1) fun _ => true
  obtain ⟨t, n, hrate⟩ := setAvailabilityRate_lathe
    (s := ((benchWith settings).commitSchedule benchPlan).1) (by rw [Store.commit_fst]; rfl)
    (benchCenter.availability ledger).rate
  have hrates : ((benchWith settings).commitSchedule benchPlan).1.updateAvailabilityRates
      [("LATHE", (benchCenter.availability ledger).rate)] = .ok (t, n + 0) :=
    bind_eq_ok_iff.mpr ⟨_, hrate, rfl⟩
  refine ⟨Store.rateTable [("LATHE", (benchCenter.availability ledger).rate)], t, ?_⟩
  refine bind_eq_ok_iff.mpr ⟨[benchCenter], hfound, ?_⟩
  exact bind_eq_ok_iff.mpr ⟨ledger, hledger, bind_eq_ok_iff.mpr ⟨_, hrates, rfl⟩⟩

/-- The turning is placed whatever the settings are, as long as the terms are the same. -/
theorem run_benchWith {settings : List (String × String)} {horizon : Option Nat}
    (terms : (benchWith settings).scheduleRequest default ⟨none, none⟩ horizon none =
      benchRequest) :
    ∃ t, (Transaction.scheduleRun default ⟨none, none⟩ horizon none).run (benchWith settings) =
      (.ok benchPlan, t) ∧
      t.operations = [(benchWith settings).placeRow benchPlan.scheduled benchOperation.toRow] := by
  obtain ⟨rates, t, hrates⟩ := recalculate_benchWith settings
  have hplan := planSchedule_benchWith settings
  have hcommit : ((benchWith settings).commitSchedule benchPlan).2 = benchPlan :=
    Store.commit_eq_self (keyed_benchWith settings) rfl hplan
  have hoperations : t.operations =
      [(benchWith settings).placeRow benchPlan.scheduled benchOperation.toRow] := by
    rw [Store.recalculate_eq hrates, Store.commit_fst]
    rfl
  refine ⟨t, ?_, hoperations⟩
  unfold Transaction.scheduleRun
  rw [run_bind, run_current]
  dsimp only
  rw [terms, run_bind, run_read_ok hplan]
  dsimp only
  rw [run_bind, run_write_ok (a := ((benchWith settings).commitSchedule benchPlan).2)
    (t := ((benchWith settings).commitSchedule benchPlan).1) rfl, hcommit]
  dsimp only
  rw [affectedWorkCenters_bench, if_pos (List.cons_ne_nil _ _), run_bind]
  rw [run_write_ok (a := rates) (t := t) hrates]
  rfl

/-- The turning is placed on the first day, and that is what the store gives again. -/
theorem scheduleRun_rebuilds_lathe :
    (latheStore.Keyed ∧ (∀ r ∈ latheStore.operations, ∃ op, Operation.ofRow r = .ok op) ∧
      (∀ r ∈ latheStore.operations, r .scheduledStart = .null ∨
        ∃ d, r .scheduledStart = .text (DateText.write d)) ∧ latheStore.disputed = [] ∧
      (default : Date).FourDigitYear ∧ (latheStore.scheduleRequest default ⟨none, none⟩ (some 14)
        none).windowEnd.civil.year ≤ 9999) ∧
    ∃ t, (Transaction.scheduleRun default ⟨none, none⟩ (some 14) none).run latheStore =
        (.ok benchPlan, t) ∧
      ∃ ledger, latheStore.planSchedule benchRequest = .ok (benchPlan, ledger) ∧
        ledger.committed "LATHE" default = 4 ∧
        (latheStore.commitSchedule benchPlan).1.Rebuilds benchRequest ledger ∧
        t.Rebuilds benchRequest ledger := by
  have hdecodes : ∀ r ∈ latheStore.operations, ∃ op, Operation.ofRow r = .ok op := by
    intro r hr
    obtain rfl := List.mem_singleton.mp hr
    exact ⟨benchOperation, ofRow_benchOperation⟩
  have hdated : ∀ r ∈ latheStore.operations, r .scheduledStart = .null ∨
      ∃ d, r .scheduledStart = .text (DateText.write d) :=
    fun r hr => (planned_benchWith _ r hr).start
  obtain ⟨t, ran, -⟩ := run_benchWith scheduleRequest_lathe
  have hplanned := planSchedule_benchWith latheStore.settings
  refine ⟨⟨keyed_benchWith _, hdecodes, hdated, rfl, firstYear_default, lastYear_lathe⟩, t, ran, ?_⟩
  obtain ⟨ledger, hplan, hwritten, hleft⟩ :=
    scheduleRun_rebuilds latheStore (keyed_benchWith _) hdecodes hdated rfl default ⟨none, none⟩
      (some 14) none firstYear_default lastYear_lathe ran
  rw [scheduleRequest_lathe] at hplan hwritten hleft
  refine ⟨ledger, hplan, ?_, hwritten, hleft⟩
  have hledger : benchRun.2 = ledger :=
    congrArg Prod.snd (Except.ok.inj (hplanned.symm.trans hplan))
  rw [← hledger]
  rw [benchRun, FirstFit.schedule_of_select select_bench]
  decide +kernel

end Floor

end Workshop
