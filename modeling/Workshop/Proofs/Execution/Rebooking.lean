/-
  Workshop/Proofs/Execution/Rebooking.lean
  ========================================
  **The hours that a write moves.**  A write names work centers, and the hours of all others
  stay what they were (`Store.Rebooked`): what is booked there is read from the same rows.
  If the availability of the named ones is recalculated after it, nothing goes stale
  (`Store.Rebooked.refreshed`).

  Each write on the shop floor is of this kind.  Dates are written at the work centers of
  placements that are kept, dates are taken away at those where there were some, an action
  takes the hours of the operation that it completes, and the operations of a release have
  no dates yet.
-/
import Workshop.Proofs.Execution.Refusals
import Workshop.Proofs.Execution.Release
import Workshop.Proofs.Store.AvailabilityRates

namespace Workshop

variable {Q : Type}

/-- The row says that its operation is complete. -/
def Row.isComplete (r : Row Operation.Column Q) : Bool :=
  (r .status).isText OperationStatus.complete.word

/-- The row takes the same hours as before, unless it is one of the work centers. -/
structure Store.RebookedRow (centers : List String) (r t : Row Operation.Column Q) : Prop where
  workCenterId : t .workCenterId = r .workCenterId
  elsewhere : (∀ id ∈ centers, r .workCenterId ≠ .text id) →
    t.booked = r.booked ∧ t.isComplete = r.isComplete

theorem Row.booked_congr {r t : Row Operation.Column Q} (h : ∀ c ∈ bookedColumns, t c = r c) :
    t.booked = r.booked := by
  have hcells : (fun c => if c ∈ bookedColumns then t c else .null) =
      fun c => if c ∈ bookedColumns then r c else .null := by
    funext c
    split
    · next hc => exact h c hc
    · rfl
  exact congrArg Row.ofCells hcells

theorem Row.cell_of_booked {r t : Row Operation.Column Q} (h : t.booked = r.booked)
    {c : Operation.Column} (hc : c ∈ bookedColumns) : t c = r c := by
  have hcell := congrArg (·.cell c) h
  simpa [Row.booked_cell, hc] using hcell

variable [Quantity Q]

namespace Store

/-- A store whose operations take the same hours as before at all work centers but those
    that are named; operations without dates may have come. -/
structure Rebooked (centers : List String) (s t : Store Q) : Prop where
  workCenters : t.workCenters = s.workCenters
  settings : t.settings = s.settings
  operations : ∃ rows added, t.operations = rows ++ added ∧
    List.Forall₂ (RebookedRow centers) s.operations rows ∧
    ∀ r ∈ added, r .scheduledStart = .null
  keyed : s.Keyed → t.Keyed

variable {s t u : Store Q} {centers : List String} {today : Date}

theorem Rebooked.refl (s : Store Q) : Rebooked [] s s where
  workCenters := rfl
  settings := rfl
  operations := by
    refine ⟨s.operations, [], (List.append_nil _).symm, ?_, List.forall_mem_nil _⟩
    exact List.forall₂_same.mpr fun r _ => ⟨rfl, fun _ => ⟨rfl, rfl⟩⟩
  keyed := id

omit [Quantity Q] in
theorem isCommitted_of_booked {a b : Date} {r t : Row Operation.Column Q}
    (h : t.booked = r.booked) (complete : t.isComplete = r.isComplete) :
    isCommitted a b t = isCommitted a b r := by
  have hstart := Row.cell_of_booked h (c := .scheduledStart) (by decide)
  have hcomplete : (t .status).isText OperationStatus.complete.word =
      (r .status).isText OperationStatus.complete.word := complete
  rw [isCommitted, isCommitted, hstart, hcomplete]

omit [Quantity Q] in
theorem filter_bookedRows_cons (a b : Date) (keep : Row Operation.Column Q → Bool)
    (r : Row Operation.Column Q) (rows : List (Row Operation.Column Q)) :
    (bookedRows a b (r :: rows)).filter keep =
      if isCommitted a b r && keep r.booked then r.booked :: (bookedRows a b rows).filter keep
      else (bookedRows a b rows).filter keep := by
  cases hcommitted : isCommitted a b r with
  | true => cases hkeep : keep r.booked <;> simp [bookedRows, hcommitted, hkeep]
  | false => simp [bookedRows, hcommitted]

omit [Quantity Q] in
/-- What a test keeps of the bookings stays, if no row of the named work centers passes it. -/
theorem filter_bookedRows {a b : Date} {keep : Row Operation.Column Q → Bool}
    (apart : ∀ r : Row Operation.Column Q, keep r.booked = true →
      ∀ id ∈ centers, r .workCenterId ≠ .text id) {rows rows' : List (Row Operation.Column Q)}
    (h : List.Forall₂ (RebookedRow centers) rows rows') :
    (bookedRows a b rows').filter keep = (bookedRows a b rows).filter keep := by
  induction h with
  | nil => rfl
  | @cons r t rows rows' hrow hrest ih =>
    rw [filter_bookedRows_cons, filter_bookedRows_cons, ih]
    by_cases helsewhere : ∀ id ∈ centers, r .workCenterId ≠ .text id
    · obtain ⟨hbooked, hcomplete⟩ := hrow.elsewhere helsewhere
      rw [hbooked, isCommitted_of_booked hbooked hcomplete]
    · have hr : keep r.booked = false := Bool.eq_false_iff.mpr fun h => helsewhere (apart r h)
      have ht : keep t.booked = false := by
        rw [Bool.eq_false_iff]
        intro h
        have hapart := apart t h
        rw [hrow.workCenterId] at hapart
        exact helsewhere hapart
      rw [hr, ht, Bool.and_false, Bool.and_false, if_neg Bool.false_ne_true,
        if_neg Bool.false_ne_true]

omit [Quantity Q] in
theorem bookedRows_append_undated (a b : Date) {rows added : List (Row Operation.Column Q)}
    (undated : ∀ r ∈ added, r .scheduledStart = .null) :
    bookedRows a b (rows ++ added) = bookedRows a b rows := by
  have hnone : added.filter (isCommitted a b) = [] := by
    rw [List.filter_eq_nil_iff]
    intro r hr
    simp [isCommitted, undated r hr, isBetween]
  rw [bookedRows, List.filter_append, hnone, List.append_nil, bookedRows]

theorem Rebooked.filter_bookings (h : Rebooked centers s t)
    {keep : Row Operation.Column Q → Bool}
    (apart : ∀ r : Row Operation.Column Q, keep r.booked = true →
      ∀ id ∈ centers, r .workCenterId ≠ .text id) (today : Date) :
    (t.bookings today).filter keep = (s.bookings today).filter keep := by
  obtain ⟨rows, added, hrows, hkept, hundated⟩ := h.operations
  rw [bookings, bookings, horizonDays_congr h.settings, hrows,
    bookedRows_append_undated _ _ hundated, filter_bookedRows apart hkept]

/-- The bookings of a work center that is not named stay. -/
theorem Rebooked.bookings_at (h : Rebooked centers s t) {id : String} (hid : id ∉ centers)
    (today : Date) :
    (t.bookings today).filter (isAt id) = (s.bookings today).filter (isAt id) := by
  refine h.filter_bookings (fun r hr id' hid' heq => ?_) today
  rw [isAt, Cell.isText_iff, Row.booked_cell, if_pos (by decide), heq] at hr
  exact hid (Cell.text.inj hr ▸ hid')

theorem Rebooked.bookings_eq (h : Rebooked [] s t) (today : Date) :
    t.bookings today = s.bookings today := by
  have hall : (t.bookings today).filter (fun _ => true) =
      (s.bookings today).filter fun _ => true :=
    h.filter_bookings (fun _ _ _ hid => nomatch hid) today
  rwa [List.filter_true, List.filter_true] at hall

/-! ### Nothing goes stale -/

/-- On the way from one store to another nothing goes stale, and the named work centers are
    up to date in the end. -/
structure Refreshed (today : Date) (centers : List String) (s t : Store Q) : Prop where
  kept : ∀ id, s.UpToDate today id → t.UpToDate today id
  brought : ∀ id ∈ centers, s.HasWorkCenter id → t.UpToDate today id

/-- The work centers that a write names are recalculated after it, if there are any. -/
inductive Settled (today : Date) (centers : List String) (t u : Store Q) : Prop
  | none (centers_eq : centers = []) (same : u = t)
  | recalculated {answer : List (String × Q)}
      (writes : t.recalculate today (some centers) none = .ok (answer, u))

theorem findWorkCenter_congr (h : t.workCenters = s.workCenters) (id : String) :
    t.findWorkCenter id = s.findWorkCenter id := by
  rw [findWorkCenter, findWorkCenter, h]

theorem Refreshed.trans (h : Refreshed today [] s t) (same : t.workCenters = s.workCenters)
    (h' : Refreshed today centers t u) : Refreshed today centers s u where
  kept id hid := h'.kept id (h.kept id hid)
  brought id hid hhas := by
    refine h'.brought id hid ?_
    rw [HasWorkCenter, same]
    exact hhas

/-- A write that moves no hours leaves everything up to date that was. -/
theorem Rebooked.refreshed_none (h : Rebooked [] s t) (today : Date) :
    Refreshed today [] s t where
  kept id hid := by
    obtain ⟨wc, ledger, hfound, hledger, hrate⟩ := hid
    refine ⟨wc, ledger, ?_, ?_, hrate⟩
    · rw [findWorkCenter_congr h.workCenters, hfound]
    · rw [availabilityLedger_congr h.settings (h.bookings_eq today), hledger]
  brought _ hid := nomatch hid

variable [Quantity.Coherent Q] [Quantity.LawfulZero Q]

/-- A recalculation after a write brings the work centers up to date that it is asked for,
    and nothing goes stale if these are all whose hours the write has moved. -/
theorem Rebooked.refreshed_of_recalculate (h : Rebooked centers s t)
    (keyed : Table.Keyed s.workCenters) {ids : Option (List String)}
    (covered : ∀ id ∈ centers, id ∈ s.asked ids) {answer : List (String × Q)}
    (writes : t.recalculate today ids none = .ok (answer, u)) :
    Refreshed today (s.asked ids) s u := by
  have hasked : t.asked ids = s.asked ids := by rw [asked, asked, h.workCenters]
  obtain ⟨ledger, listed, done⟩ := exists_recalculated (h.workCenters ▸ keyed) writes
  have hbrought : ∀ id ∈ s.asked ids, s.HasWorkCenter id → u.UpToDate today id := by
    intro id hid hhas
    obtain ⟨wc, hwc, rfl⟩ := done.listed.all id (hasked ▸ hid) (by
      rw [HasWorkCenter, h.workCenters]
      exact hhas)
    exact done.upToDate hwc
  refine ⟨fun id hid => ?_, hbrought⟩
  by_cases hmem : ∃ wc ∈ listed, wc.workCenterId = id
  · obtain ⟨wc, hwc, rfl⟩ := hmem
    exact done.upToDate hwc
  · -- a work center that is not listed keeps its row, and it is none whose hours have moved
    have hother : id ∉ centers := by
      intro hcenter
      obtain ⟨wc, ledger, hfound, -⟩ := hid
      refine hmem (done.listed.all id (hasked ▸ covered id hcenter) ?_)
      rw [HasWorkCenter, h.workCenters]
      exact hasWorkCenter_of_findWorkCenter hfound
    refine hid.of_same ?_ ?_ done.availabilityLedger_eq ?_
    · rw [done.findWorkCenter_eq fun wc hwc heq => hmem ⟨wc, hwc, heq⟩,
        findWorkCenter_congr h.workCenters]
    · rw [done.written]
      exact h.settings
    · have hsame : u.bookings today = t.bookings today := by
        rw [done.written]
        rfl
      rw [hsame, h.bookings_at hother]

theorem Rebooked.refreshed (h : Rebooked centers s t) (keyed : Table.Keyed s.workCenters)
    (settled : Settled today centers t u) : Refreshed today centers s u := by
  cases settled with
  | none centers_eq same =>
    subst centers_eq same
    exact h.refreshed_none today
  | recalculated writes =>
    have covered : ∀ id ∈ centers, id ∈ s.asked (some centers) := fun _ hid => hid
    exact h.refreshed_of_recalculate keyed covered writes

end Store

/-! ### Dates that are written and taken away -/

open Transaction

variable {s t u : Store Q} {today : Date}

omit [Quantity Q] in
theorem Store.RebookedRow.refl (centers : List String) (r : Row Operation.Column Q) :
    Store.RebookedRow centers r r := ⟨rfl, fun _ => ⟨rfl, rfl⟩⟩

/-- The dates of a plan are written at the work centers of the answer. -/
theorem Store.rebooked_commit [Quantity.Ordered Q] (keyed : s.Keyed)
    {request : ScheduleRequest Q} {plan : ScheduleResult Q} {ledger : Ledger Q}
    (h : s.planSchedule request = .ok (plan, ledger)) :
    Rebooked (s.commitSchedule plan).2.affectedWorkCenters s (s.commitSchedule plan).1 := by
  have hplans := plans_of_planSchedule keyed h
  have haffected : (s.commitSchedule plan).2.affectedWorkCenters =
      Placement.workCenters (s.commitSchedule plan).2.scheduled := by
    rw [commit_snd hplans.distinct_scheduled]
    exact ScheduleResult.withLost_workCenters hplans.workCenters _
  have hrows : ∀ r ∈ s.operations, RebookedRow (s.commitSchedule plan).2.affectedWorkCenters r
      (s.placeRow plan.scheduled r) := by
    intro r hr
    refine ⟨(laterRow_placeRow s plan.scheduled r).same .workCenterId (by decide) (by decide), ?_⟩
    intro helsewhere
    rcases s.placeRow_eq_or plan.scheduled r with hsame | ⟨p, hp, hopen⟩
    · rw [hsame]
      exact ⟨rfl, rfl⟩
    · obtain ⟨t, op, ht, hof⟩ := exists_row_of_placed keyed h hp
      obtain rfl : r = t := keyed.operations.eq_of_isText (c := .operationId) (by decide) hr ht
        (isOpen_iff.mp hopen).1 hof.operationId
      have hkept : p ∈ (s.commitSchedule plan).2.scheduled :=
        (mem_commit_iff hplans.distinct_scheduled).mpr ⟨hp, r, hr, hopen⟩
      refine absurd hof.workCenterId (helsewhere p.workCenterId ?_)
      rw [haffected]
      exact Text.mem_ascending.mpr (List.mem_map_of_mem hkept)
  refine ⟨?_, ?_, ?_, (s.later_writeSchedule plan.scheduled).keyed⟩
  · rw [commit_fst]
  · rw [commit_fst]
  · rw [commit_fst]
    exact ⟨_, [], (List.append_nil _).symm, forall₂_map_self hrows, List.forall_mem_nil _⟩

/-- An answer that waits for a recalculation over the horizon of the settings. -/
theorem Transaction.settled_of_run {α : Type} {a b : α} {centers : List String}
    {horizon : Option Nat} (h : (if centers ≠ [] then do
        let _ ← write fun s => s.recalculate today (some centers) horizon
        pure a
      else pure a : Transaction Q α).run t = (.ok b, u))
    (standard : horizon.getD (Settings.horizonDays t) = Settings.horizonDays t) :
    a = b ∧ Store.Settled today centers t u := by
  split at h
  case isTrue =>
    obtain ⟨answer, _, hwrite, h⟩ := run_bind_eq_ok_iff.mp h
    cases h
    have writes := run_write_eq_ok_iff.mp hwrite
    rw [Store.recalculate, standard] at writes
    exact ⟨rfl, .recalculated writes⟩
  case isFalse hnone =>
    cases h
    exact ⟨rfl, .none (not_not.mp hnone) rfl⟩

theorem Transaction.exists_rebooked_of_scheduleRun [Quantity.Ordered Q] (keyed : s.Keyed)
    {filter : SchedulingFilter} {optimizeSetup : Option Bool} {result : ScheduleResult Q}
    (h : (scheduleRun today filter none optimizeSetup).run s = (.ok result, t)) :
    ∃ u, Store.Rebooked result.affectedWorkCenters s u ∧
      Store.Settled today result.affectedWorkCenters u t := by
  unfold scheduleRun at h
  obtain ⟨_, _, hcurrent, h⟩ := run_bind_eq_ok_iff.mp h
  cases hcurrent
  obtain ⟨⟨plan, ledger⟩, u, hread, h⟩ := run_bind_eq_ok_iff.mp h
  obtain ⟨hplan, hu⟩ := run_read_eq_ok_iff.mp hread
  subst hu
  dsimp only at h
  obtain ⟨_, u, hwrite, h⟩ := run_bind_eq_ok_iff.mp h
  cases run_write_eq_ok_iff.mp hwrite
  have rebooked := Store.rebooked_commit keyed hplan
  obtain ⟨rfl, settled⟩ := settled_of_run h (Store.horizonDays_congr rebooked.settings).symm
  exact ⟨_, rebooked, settled⟩

omit [Quantity Q] in
/-- The row without its dates, if its operation is one of the order that has not begun. -/
def Store.clearedRow (orderId : String) (r : Row Operation.Column Q) : Row Operation.Column Q :=
  if isUnstarted orderId r then (r.set .scheduledStart .null).set .scheduledEnd .null else r

omit [Quantity Q] in
theorem Store.clearedRow_same (orderId : String) (r : Row Operation.Column Q)
    {c : Operation.Column} (stop : c ≠ .scheduledEnd) (start : c ≠ .scheduledStart) :
    clearedRow orderId r c = r c := by
  unfold clearedRow
  split
  · rw [Row.set_cell, if_neg stop, Row.set_cell, if_neg start]
  · rfl

omit [Quantity Q] in
/-- Only a row that had a start date loses one. -/
theorem Store.clearedRow_scheduledStart {orderId : String} {r : Row Operation.Column Q}
    (h : (isUnstarted orderId r && !(r .scheduledStart).isNull) = false) :
    clearedRow orderId r .scheduledStart = r .scheduledStart := by
  unfold clearedRow
  split
  case isTrue hunstarted =>
    rw [Row.set_cell, if_neg (by decide), Row.set_cell, if_pos rfl]
    rw [hunstarted, Bool.true_and, Bool.not_eq_false'] at h
    exact (Cell.isNull_iff.mp h).symm
  case isFalse => rfl

/-- Dates are taken away at the work centers of the answer. -/
theorem Store.rebooked_clear {orderId : String} {centers : List String}
    (h : s.clearSchedule orderId = .ok (t, centers)) : Rebooked centers s t := by
  obtain ⟨texts, htexts, h⟩ := bind_eq_ok_iff.mp h
  cases h
  have hrows : ∀ r ∈ s.operations,
      RebookedRow (Text.ascending texts) r (clearedRow orderId r) := by
    intro r hr
    refine ⟨clearedRow_same orderId r (by decide) (by decide), fun helsewhere => ⟨?_, ?_⟩⟩
    · have hdated : (isUnstarted orderId r && !(r .scheduledStart).isNull) = false := by
        rw [Bool.eq_false_iff]
        intro hdated
        obtain ⟨id, hid, htext⟩ := forall₂_mem_left (mapM_eq_ok_iff.mp htexts)
          (List.mem_filter.mpr ⟨hr, hdated⟩)
        exact helsewhere id (Text.mem_ascending.mpr hid) (Row.text_eq_ok_iff.mp htext)
      refine Row.booked_congr fun c hc => ?_
      by_cases hstart : c = .scheduledStart
      · rw [hstart]
        exact clearedRow_scheduledStart hdated
      · refine clearedRow_same orderId r ?_ hstart
        rintro rfl
        revert hc
        decide
    · rw [Row.isComplete, clearedRow_same orderId r (by decide) (by decide)]
      rfl
  refine ⟨rfl, rfl, ?_, fun keyed => ⟨keyed.orders, ?_⟩⟩
  · exact ⟨_, [], (List.append_nil _).symm, forall₂_map_self hrows, List.forall_mem_nil _⟩
  · refine keyed.operations.map [.scheduledEnd, .scheduledStart] (by decide) fun r c hc => ?_
    simp only [List.mem_cons, List.not_mem_nil, not_or] at hc
    exact clearedRow_same orderId r hc.1 hc.2.1

theorem Production.exists_rebooked_of_unschedule {clock : Clock} {orderId : String}
    {centers : List String}
    (h : (unschedule clock orderId).run s = (.ok centers, t)) :
    ∃ u, Store.Rebooked centers s u ∧ Store.Settled clock.today centers u t := by
  unfold unschedule at h
  obtain ⟨_, _, hread, hrest⟩ := run_bind_eq_ok_iff.mp h
  cases (run_read_eq_ok_iff.mp hread).2
  obtain ⟨affected, u, hwrite, hlast⟩ := run_bind_eq_ok_iff.mp hrest
  obtain ⟨⟨v, ids⟩, hclear, hv⟩ := bind_eq_ok_iff.mp (run_write_eq_ok_iff.mp hwrite)
  cases hv
  obtain ⟨rfl, settled⟩ := settled_of_run hlast rfl
  exact ⟨u, Store.rebooked_clear hclear, settled⟩

/-! ### Actions -/

section Actions

variable {clock : Clock} {operationId : String} {action : Action} {report : Report Q}
  {outcome : Outcome} {v w : Workset Q}

theorem Production.exists_written_of_answered {answer : ActionAnswer Q}
    (h : (transition clock operationId action report).run s = (.ok answer, t)) :
    ∃ u v w, Written clock operationId action report s u answer.outcome v w ∧
      Store.Settled clock.today answer.outcome.affectedWorkCenters u t := by
  rcases refused_or_written clock operationId action report s with
    ⟨e, hrefused⟩ | ⟨u, outcome, v, w, written⟩
  · rw [hrefused] at h
    cases h
  · obtain ⟨op, hop⟩ := Workset.exists_operation?_of_apply written.applied
    rw [run_of_written written hop, Production.answer] at h
    split at h
    case isTrue hnone =>
      cases h
      exact ⟨t, v, w, written, .none hnone rfl⟩
    case isFalse =>
      obtain ⟨availability, _, hrates, h⟩ := run_bind_eq_ok_iff.mp h
      cases h
      exact ⟨u, v, w, written, .recalculated (run_write_eq_ok_iff.mp hrates)⟩

/-- The row of an operation that the action names, and what becomes of the operation. -/
theorem Store.exists_named_row (keyed : s.Keyed)
    (h : Written clock operationId action report s t outcome v w) {op : Operation Q}
    (hop : op ∈ Production.changedBy outcome w) {r : Row Operation.Column Q}
    (hr : r ∈ s.operations) (hid : r .operationId = .text op.operationId) :
    ∃ a, Operation.Reads r a ∧ a.status ≠ .complete ∧
      (op.status = .complete → a.workCenterId ∈ outcome.affectedWorkCenters) := by
  obtain ⟨-, hlist⟩ := workset_eq_ok_iff.mp h.read
  have distinct := distinct_listOperations keyed hlist
  obtain ⟨hop, hnamed⟩ := mem_changedBy_iff.mp hop
  have pairs := List.Forall₂.mp (fun a b hab hcompleted => And.intro hab hcompleted)
    (Workset.changed_of_apply h.applied).operations (Workset.forall₂_completed h.applied)
  obtain ⟨a, ha, hworked, hcompleted⟩ := forall₂_mem_right pairs hop
  have hsame := Operation.operationId_eq_of_job hworked.job
  have hopen : a.status ≠ .complete :=
    Workset.status_of_named h.applied distinct ha (hsame ▸ hnamed)
  obtain ⟨r', hr', -, hread⟩ := exists_row_of_mem hlist ha
  obtain rfl : r = r' := keyed.operations.eq_of_isText (c := .operationId) (by decide) hr hr' hid
    (hsame ▸ Row.text_eq_ok_iff.mp hread.operationId)
  exact ⟨a, hread, hopen, fun hdone => (hcompleted hdone).resolve_left hopen⟩

theorem Store.nodup_changedBy (keyed : s.Keyed)
    (h : Written clock operationId action report s t outcome v w) :
    ((Production.changedBy outcome w).map (·.operationId)).Nodup := by
  obtain ⟨-, hlist⟩ := workset_eq_ok_iff.mp h.read
  refine List.Nodup.sublist (List.filter_sublist.map _) ?_
  rw [(Workset.changed_of_apply h.applied).operationIds]
  exact distinct_listOperations keyed hlist

/-- A row that is written is complete as before, if it is not at a work center of the answer. -/
theorem Store.isComplete_recordAll (keyed : s.Keyed)
    (h : Written clock operationId action report s t outcome v w) {r : Row Operation.Column Q}
    (hr : r ∈ s.operations)
    (elsewhere : ∀ id ∈ outcome.affectedWorkCenters, r .workCenterId ≠ .text id) :
    (recordAll (Production.changedBy outcome w) r).isComplete = r.isComplete := by
  by_cases hnamed : ∃ op ∈ Production.changedBy outcome w, r .operationId = .text op.operationId
  · obtain ⟨op, hop, hid⟩ := hnamed
    obtain ⟨a, hread, hopen, hcenter⟩ := exists_named_row keyed h hop hr hid
    have hundone : op.status ≠ .complete := fun hdone =>
      elsewhere a.workCenterId (hcenter hdone) (Row.text_eq_ok_iff.mp hread.workCenterId)
    have hbefore : r.isComplete = false := by
      rw [Row.isComplete, Bool.eq_false_iff, ne_eq, Cell.isText_iff]
      exact hread.status_ne_complete hopen
    have hafter : (recordExecution op r).isComplete = false := by
      rw [Row.isComplete, Bool.eq_false_iff, ne_eq, Cell.isText_iff, recordExecution_cell,
        if_pos (by decide), Operation.toRow, Row.ofCells_cell]
      intro hword
      exact hundone (OperationStatus.word_injective (Cell.text.inj hword))
    rw [recordAll_of_mem (nodup_changedBy keyed h) hop hid, hbefore, hafter]
  · rw [recordAll_of_ne fun op hop hid => hnamed ⟨op, hop, hid⟩]

/-- What an action writes moves the hours of the operation that it completes, if any. -/
theorem Store.rebooked_of_written (keyed : s.Keyed)
    (h : Written clock operationId action report s t outcome v w) :
    Rebooked outcome.affectedWorkCenters s t := by
  obtain ⟨ht, -⟩ := applyTransition_eq h.written
  have hrows : ∀ r ∈ s.operations, RebookedRow outcome.affectedWorkCenters r
      (recordAll (Production.changedBy outcome w) r) := by
    intro r hr
    refine ⟨recordAll_same _ r (by decide), fun helsewhere => ⟨?_, ?_⟩⟩
    · refine Row.booked_congr fun c hc => recordAll_same _ r ?_
      revert c
      decide
    · exact isComplete_recordAll keyed h hr helsewhere
  subst ht
  refine ⟨rfl, rfl, ?_, fun keyed => ⟨?_, ?_⟩⟩
  · exact ⟨_, [], (List.append_nil _).symm, forall₂_map_self hrows, List.forall_mem_nil _⟩
  · refine keyed.orders.map [.completedAt, .status] (by decide) fun r c hc => ?_
    simp only [List.mem_cons, List.not_mem_nil, not_or] at hc
    split
    · rw [progressRow_cell, if_neg hc.1, if_neg hc.2.1]
    · rfl
  · exact keyed.operations.map executionColumns (by decide) fun r c hc => recordAll_same _ r hc

end Actions

/-! ### Releases -/

/-- The operations of a release have no dates. -/
theorem scheduledStart_of_mem_firstWave {order : Order Q} {drafts : List (Draft Q)}
    {identify : Draft Q → String} {op : Operation Q}
    (hop : op ∈ (Production.firstWave order drafts identify).operations) :
    op.scheduledStart = none := by
  have hjob : op.job ∈ (Production.firstWave order drafts identify).operations.map Operation.job :=
    List.mem_map_of_mem hop
  rw [Production.firstWave, Workset.map_job_release] at hjob
  obtain ⟨x, hx, hjob⟩ := List.mem_map.mp hjob
  obtain ⟨d, -, rfl⟩ := List.mem_map.mp (List.mem_mergeSort.mp hx)
  exact (congrArg Job.scheduledStart hjob).symm

/-- A release moves no hours. -/
theorem Store.rebooked_release (keyed : s.Keyed) {orderId : String} {order : Order Q}
    {drafts : List (Draft Q)} {identify : Draft Q → String} {releasedAt : Instant}
    (h : s.releaseWithOperations orderId (Production.firstWave order drafts identify).operations
      releasedAt = .ok t) : Rebooked [] s t := by
  obtain ⟨-, ht, htkeyed⟩ := releaseWithOperations_eq keyed h
  refine ⟨by rw [ht], by rw [ht], ?_, fun _ => htkeyed⟩
  refine ⟨s.operations, _, by rw [ht], List.forall₂_same.mpr fun r _ => .refl [] r, ?_⟩
  intro r hr
  obtain ⟨op, hop, rfl⟩ := List.mem_map.mp hr
  rw [Operation.toRow, Row.ofCells_cell, scheduledStart_of_mem_firstWave hop]
  rfl

/-- The order and its operations are read again for the answer. -/
theorem Production.schedule_of_answer {orderId : String} {schedule : Option (ScheduleResult Q)}
    {answer : ReleaseAnswer Q} (h : (do
      let order ← read fun s => s.getOrder orderId
      let operations ← read fun s => s.listOperations orderId
      pure ⟨order, operations, schedule⟩ : Transaction Q (ReleaseAnswer Q)).run s =
        (.ok answer, t)) : answer.schedule = schedule ∧ t = s := by
  obtain ⟨order, _, horder, h1⟩ := run_bind_eq_ok_iff.mp h
  cases (run_read_eq_ok_iff.mp horder).2
  obtain ⟨operations, _, hoperations, h2⟩ := run_bind_eq_ok_iff.mp h1
  cases (run_read_eq_ok_iff.mp hoperations).2
  cases h2
  exact ⟨rfl, rfl⟩

theorem Production.exists_rebooked_of_release {clock : Clock} {identify : Draft Q → String}
    {orderId : String} {answer : ReleaseAnswer Q} (keyed : s.Keyed)
    (h : (release clock identify orderId).run s = (.ok answer, t)) :
    ∃ u, Store.Rebooked [] s u ∧ ((answer.schedule = none ∧ t = u) ∨
      ∃ result, answer.schedule = some result ∧
        (scheduleRun clock.today ⟨none, some orderId⟩ none none).run u = (.ok result, t)) := by
  unfold release at h
  obtain ⟨order, _, hread, h1⟩ := run_bind_eq_ok_iff.mp h
  cases (run_read_eq_ok_iff.mp hread).2
  dsimp only at h1
  split at h1
  case isTrue => cases h1
  case isFalse =>
    obtain ⟨_, _, hcurrent, h2⟩ := run_bind_eq_ok_iff.mp h1
    cases hcurrent
    obtain ⟨drafts, _, hdrafts, h3⟩ := run_bind_eq_ok_iff.mp h2
    cases (run_obey_eq_ok_iff.mp hdrafts).2
    split at h3
    case isTrue => cases h3
    case isFalse =>
      obtain ⟨_, u, hwrite, h4⟩ := run_bind_eq_ok_iff.mp h3
      obtain ⟨u', hreleased, hu⟩ := bind_eq_ok_iff.mp (run_write_eq_ok_iff.mp hwrite)
      cases hu
      refine ⟨u, Store.rebooked_release keyed hreleased, ?_⟩
      obtain ⟨_, _, hcurrent, h5⟩ := run_bind_eq_ok_iff.mp h4
      cases hcurrent
      split at h5
      case isTrue =>
        obtain ⟨result, v, hrun, h6⟩ := run_bind_eq_ok_iff.mp h5
        obtain ⟨_, _, hsome, h7⟩ := run_bind_eq_ok_iff.mp h6
        cases hsome
        obtain ⟨hschedule, ht⟩ := schedule_of_answer h7
        subst ht
        exact Or.inr ⟨result, hschedule, hrun⟩
      case isFalse =>
        obtain ⟨_, _, hnone, h6⟩ := run_bind_eq_ok_iff.mp h5
        cases hnone
        exact Or.inl (schedule_of_answer h6)

end Workshop
