/-
  Workshop/Proofs/Execution/Refusals.lean
  =======================================
  **What a refused action leaves behind.**  An action is written before the availability of
  the work centers concerned is recalculated, and the write stays when that fails.  So a
  refused action has changed nothing, or it is recorded in full and only its answer is lost
  (`transition_refused`).

  A refusal leaves all orders and operations as they were except when the action was
  written, changed a row, and stranded there (`transition_changesNothing_iff`).  An action
  that moves its operation to another state changes a row (`Written.operations_ne`), and one
  row of another order is enough to strand it: its hours count in the same window, and its
  date cannot be read (`Written.stranded`).
-/
import Workshop.Proofs.Execution.Recording

namespace Workshop

variable {Q : Type} [Quantity Q]

open Transaction

/-- How an action comes to be written: the order of its operation is read as the workset
    `v`, the action makes `w` of it, and the store `u` holds what has changed. -/
structure Written (clock : Clock) (operationId : String) (action : Action) (report : Report Q)
    (s u : Store Q) (outcome : Outcome) (v w : Workset Q) : Prop where
  found : ∃ op, s.findOperation operationId = .ok (some op) ∧ op.orderId = v.order.orderId
  read : s.workset v.order.orderId = .ok v
  applied : v.apply operationId action report clock.now = .ok (w, outcome)
  written : s.applyTransition w.order (Production.changedBy outcome w) = .ok u

variable {clock : Clock} {operationId : String} {action : Action} {report : Report Q}
  {s t u : Store Q} {outcome : Outcome} {v w : Workset Q}

/-- What remains to be done when an action has been written. -/
def Production.answer (clock : Clock) (outcome : Outcome) (w : Workset Q) (op : Operation Q) :
    Transaction Q (ActionAnswer Q) := do
  let availability ←
    if outcome.affectedWorkCenters = [] then pure []
    else write fun s => s.recalculate clock.today (some outcome.affectedWorkCenters) none
  pure ⟨op, w.order, outcome, availability⟩

theorem Workset.exists_operation?_of_apply {now : Instant}
    (h : v.apply operationId action report now = .ok (w, outcome)) :
    ∃ op, w.operation? operationId = some op := by
  have located : ∃ op, v.operation? operationId = some op := by
    have hstep : Step v ⟨operationId, action, report, now⟩ w := step_of_accepts ⟨outcome, h⟩
    cases hstep with
    | start located => exact ⟨_, located⟩
    | enter located => exact ⟨_, located⟩
    | finish located => exact ⟨_, located⟩
    | hold located => exact ⟨_, located⟩
    | resume located => exact ⟨_, located⟩
  obtain ⟨op, hop⟩ := located
  have hid : operationId ∈ w.operations.map (·.operationId) := by
    rw [(changed_of_apply h).operationIds, ← operationId_of_located hop]
    exact List.mem_map_of_mem (List.mem_of_find?_eq_some hop)
  obtain ⟨made, hmade, hid⟩ := List.mem_map.mp hid
  apply Option.isSome_iff_exists.mp
  rw [Workset.operation?, List.find?_isSome]
  exact ⟨made, hmade, beq_iff_eq.mpr hid⟩

theorem run_of_written (h : Written clock operationId action report s u outcome v w)
    {op : Operation Q} (hop : w.operation? operationId = some op) :
    (Production.transition clock operationId action report).run s =
      (Production.answer clock outcome w op).run u := by
  obtain ⟨found, hfound, hid⟩ := h.found
  obtain ⟨horder, hops⟩ := Store.workset_eq_ok_iff.mp h.read
  have happlied : (Workset.ofOperations v.order v.operations).apply operationId action report
      clock.now = .ok (w, outcome) := by
    rw [Workset.ofOperations_of_sorted (Store.sorted_listOperations hops)]
    exact h.applied
  have hwrite : (do
      let t ← s.applyTransition w.order (Production.changedBy outcome w)
      Except.ok ((), t)) = .ok ((), u) := bind_eq_ok_iff.mpr ⟨u, h.written, rfl⟩
  unfold Production.transition
  rw [run_bind, run_read_ok hfound]
  dsimp only
  rw [hid, run_bind, run_read_ok (a := v.order) horder]
  dsimp only
  rw [run_bind, run_read_ok (a := v.operations) hops]
  dsimp only
  rw [run_bind, happlied, run_obey_ok]
  dsimp only
  rw [run_bind, run_write_ok hwrite]
  dsimp only
  rw [hop]
  rfl

/-- An action is refused before anything is written, or it is written. -/
theorem refused_or_written (clock : Clock) (operationId : String) (action : Action)
    (report : Report Q) (s : Store Q) :
    (∃ e, (Production.transition clock operationId action report).run s = (.error e, s)) ∨
      ∃ u outcome v w, Written clock operationId action report s u outcome v w := by
  unfold Production.transition
  rcases run_read_bind (fun s => s.findOperation operationId) _ s with h | ⟨found, hfound, h⟩
  · exact Or.inl h
  rw [h]
  cases found with
  | none => exact Or.inl ⟨_, rfl⟩
  | some found =>
    rcases run_read_bind (fun s => s.getOrder found.orderId) _ s with h | ⟨order, horder, h⟩
    · exact Or.inl h
    rw [h]
    rcases run_read_bind (fun s => s.listOperations order.orderId) _ s with h | ⟨ops, hops, h⟩
    · exact Or.inl h
    rw [h]
    rcases run_obey_bind ((Workset.ofOperations order ops).apply operationId action report
      clock.now) _ s with h | ⟨⟨w, outcome⟩, happlied, h⟩
    · exact Or.inl h
    rw [h]
    rcases run_write_bind (fun s => do
      let t ← s.applyTransition w.order (Production.changedBy outcome w)
      Except.ok ((), t)) _ s with ⟨e, -, h⟩ | ⟨_, u, hwrite, -⟩
    · exact Or.inl ⟨_, h⟩
    right
    have hid := Store.orderId_of_getOrder horder
    obtain ⟨u', hwritten, hu⟩ := bind_eq_ok_iff.mp hwrite
    cases hu
    rw [Workset.ofOperations_of_sorted (Store.sorted_listOperations hops)] at happlied
    refine ⟨u, outcome, ⟨order, ops⟩, w, ⟨found, hfound, hid.symm⟩, ?_, happlied, hwritten⟩
    exact Store.workset_eq_ok_iff.mpr ⟨hid.symm ▸ horder, hops⟩

/-- The action was written to `u`, and there the availability could not be recalculated. -/
def Stranded (clock : Clock) (operationId : String) (action : Action) (report : Report Q)
    (s u : Store Q) : Prop :=
  ∃ outcome v w, Written clock operationId action report s u outcome v w ∧
    outcome.affectedWorkCenters ≠ [] ∧
    ∃ e, u.recalculate clock.today (some outcome.affectedWorkCenters) none = .error e

theorem Stranded.refused (h : Stranded clock operationId action report s u) :
    ∃ e, (Production.transition clock operationId action report).run s = (.error e, u) := by
  obtain ⟨outcome, v, w, written, affected, e, hfails⟩ := h
  obtain ⟨op, hop⟩ := Workset.exists_operation?_of_apply written.applied
  refine ⟨.ofStore e, ?_⟩
  rw [run_of_written written hop, Production.answer, if_neg affected, run_bind,
    run_write_error hfails]

/-- A refused action has changed nothing, or it was written and stranded there. -/
theorem transition_refused {e : ExecutionFault}
    (h : (Production.transition clock operationId action report).run s = (.error e, t)) :
    t = s ∨ Stranded clock operationId action report s t := by
  rcases refused_or_written clock operationId action report s with
    ⟨_, hrefused⟩ | ⟨u, outcome, v, w, written⟩
  · rw [hrefused] at h
    cases h
    exact Or.inl rfl
  · right
    obtain ⟨op, hop⟩ := Workset.exists_operation?_of_apply written.applied
    rw [run_of_written written hop, Production.answer] at h
    by_cases affected : outcome.affectedWorkCenters = []
    · rw [if_pos affected] at h
      cases h
    · rw [if_neg affected] at h
      rcases run_write_bind (fun s => s.recalculate clock.today
        (some outcome.affectedWorkCenters) none) _ u with ⟨_, hfails, hrun⟩ | ⟨_, _, -, hrun⟩
      · rw [hrun] at h
        cases h
        exact ⟨outcome, v, w, written, affected, _, hfails⟩
      · rw [hrun] at h
        cases h

/-- **A refused action changes nothing**, in no order and no operation, exactly when no
    action strands that has changed a row. -/
theorem transition_changesNothing_iff (clock : Clock) (operationId : String) (action : Action)
    (report : Report Q) (s : Store Q) :
    (∀ e t, (Production.transition clock operationId action report).run s = (.error e, t) →
      t.orders = s.orders ∧ t.operations = s.operations) ↔
    ¬ ∃ u, Stranded clock operationId action report s u ∧
      (u.orders ≠ s.orders ∨ u.operations ≠ s.operations) := by
  constructor
  · rintro h ⟨u, stranded, changed⟩
    obtain ⟨e, hrefused⟩ := stranded.refused
    obtain ⟨horders, hoperations⟩ := h e u hrefused
    rcases changed with changed | changed
    · exact changed horders
    · exact changed hoperations
  · intro h e t hrefused
    rcases transition_refused hrefused with rfl | stranded
    · exact ⟨rfl, rfl⟩
    · by_contra hchanged
      rw [not_and_or] at hchanged
      exact h ⟨t, stranded, hchanged⟩

/-! ### Rows that an action changes -/

namespace Workset

/-- The outcome says in which state its operation was found, and in which it was left. -/
structure Moves (outcome : Outcome) (v w : Workset Q) : Prop where
  found : ∃ op ∈ v.operations,
    op.operationId = outcome.operationId ∧ op.status = outcome.previousStatus
  left : ∃ op ∈ w.operations,
    op.operationId = outcome.operationId ∧ op.status = outcome.newStatus

omit [Quantity Q] in
theorem moves_of_set {op new : Operation Q} (located : v.operation? outcome.operationId = some op)
    (job : new.job = op.job) (before : op.status = outcome.previousStatus)
    (after : new.status = outcome.newStatus) :
    Moves outcome v (v.setOperation outcome.operationId new) where
  found := ⟨op, List.mem_of_find?_eq_some located, operationId_of_located located, before⟩
  left := by
    obtain ⟨pre, post, -, hset⟩ := exists_split located
    refine ⟨new, ?_, ?_, after⟩
    · simp [hset]
    · exact (Operation.operationId_eq_of_job job).trans (operationId_of_located located)

theorem moves_of_start {now : Instant}
    (h : v.apply operationId .start report now = .ok (w, outcome)) : Moves outcome v w := by
  obtain ⟨op, located, h⟩ := bind_eq_ok_iff.mp h
  obtain ⟨_, -, h⟩ := bind_eq_ok_iff.mp h
  obtain ⟨next, after, h⟩ := bind_eq_ok_iff.mp h
  rw [locate_eq_ok_iff] at located
  rw [after_eq_ok_iff, after?_start_iff] at after
  obtain ⟨-, rfl⟩ := after
  dsimp only at h
  split at h
  · split at h <;> cases h
  · obtain ⟨rfl, rfl⟩ := Prod.mk.inj (Except.ok.inj h)
    have hmoves : Moves ⟨operationId, .start, op.status, .inProgress, [], none, []⟩ v
        (v.setOperation operationId (op.begun report now)) :=
      moves_of_set located (op.begun_job report now) rfl (op.begun_status report now)
    refine ⟨hmoves.found, ?_⟩
    have hleft := hmoves.left
    rw [← underWay_operations] at hleft
    exact hleft

theorem moves_of_complete {now : Instant}
    (h : v.apply operationId .complete report now = .ok (w, outcome)) : Moves outcome v w := by
  obtain ⟨op, located, h⟩ := bind_eq_ok_iff.mp h
  obtain ⟨_, -, h⟩ := bind_eq_ok_iff.mp h
  obtain ⟨quantity, -, h⟩ := bind_eq_ok_iff.mp h
  obtain ⟨next, -, h⟩ := bind_eq_ok_iff.mp h
  rw [locate_eq_ok_iff] at located
  dsimp only at h
  split at h
  · obtain ⟨rfl, rfl⟩ := Prod.mk.inj (Except.ok.inj h)
    exact moves_of_set located (op.enter_job quantity report) rfl (op.enter_status quantity report)
  · obtain ⟨rfl, rfl⟩ := Prod.mk.inj (Except.ok.inj h)
    have hmoves : Moves ⟨operationId, .complete, op.status, .complete, [], none, []⟩ v
        (v.setOperation operationId (op.finished quantity report now)) :=
      moves_of_set located (op.finished_job quantity report now) rfl rfl
    refine ⟨hmoves.found, ?_⟩
    obtain ⟨done, hdone, hid, hs⟩ := hmoves.left
    exact ⟨done, mem_settle hdone hs _ _, hid, hs⟩

theorem moves_of_apply {now : Instant}
    (h : v.apply operationId action report now = .ok (w, outcome)) : Moves outcome v w := by
  cases action with
  | start => exact moves_of_start h
  | complete => exact moves_of_complete h
  | hold =>
    obtain ⟨op, located, h⟩ := bind_eq_ok_iff.mp h
    obtain ⟨next, -, h⟩ := bind_eq_ok_iff.mp h
    rw [locate_eq_ok_iff] at located
    obtain ⟨rfl, rfl⟩ := Prod.mk.inj (Except.ok.inj h)
    exact moves_of_set located (op.put_job next report) rfl (op.put_status next report)
  | resume =>
    obtain ⟨op, located, h⟩ := bind_eq_ok_iff.mp h
    obtain ⟨next, -, h⟩ := bind_eq_ok_iff.mp h
    rw [locate_eq_ok_iff] at located
    obtain ⟨rfl, rfl⟩ := Prod.mk.inj (Except.ok.inj h)
    exact moves_of_set located (op.put_job (v.resumed op) report) rfl
      (op.put_status (v.resumed op) report)

end Workset

/-- An action that leaves its operation in another state changes the row of it. -/
theorem Written.operations_ne (h : Written clock operationId action report s u outcome v w)
    (keyed : s.Keyed) (moved : outcome.previousStatus ≠ outcome.newStatus) :
    u.operations ≠ s.operations := by
  obtain ⟨⟨a, ha, haId, haStatus⟩, b, hb, hbId, hbStatus⟩ := Workset.moves_of_apply h.applied
  have hops := (Store.workset_eq_ok_iff.mp h.read).2
  have hu := (Store.applyTransition_eq h.written).1
  obtain ⟨r, hr, -, hread⟩ := Store.exists_row_of_mem hops ha
  have hdistinct : ((Production.changedBy outcome w).map (·.operationId)).Nodup := by
    apply List.Nodup.sublist (List.filter_sublist.map _)
    rw [(Workset.changed_of_apply h.applied).operationIds]
    exact Store.distinct_listOperations keyed hops
  have hchanged : b ∈ Production.changedBy outcome w := Store.mem_changedBy_iff.mpr
    ⟨hb, Or.inl hbId⟩
  have hrow : Store.recordAll (Production.changedBy outcome w) r = Store.recordExecution b r := by
    apply Store.recordAll_of_mem hdistinct hchanged
    rw [hbId, ← haId]
    exact Row.text_eq_ok_iff.mp hread.operationId
  intro hsame
  rw [hu] at hsame
  have hkept : Store.recordExecution b r = r := by
    rw [← hrow]
    exact List.map_inj_left.mp (hsame.trans (List.map_id _).symm) r hr
  -- the row holds the word of the new state, and it was read as the old one
  have hcell : b.toRow .status = .text b.status.word := Row.ofCells_cell _ _
  have hwritten : Store.recordExecution b r .status = b.toRow .status := by
    rw [Store.recordExecution_cell, if_pos (by decide)]
  have hstatus : r .status = .text b.status.word := by
    rw [← hcell, ← hwritten, hkept]
  obtain ⟨word, hword, hagain⟩ := bind_eq_ok_iff.mp hread.status
  rw [Row.text_eq_ok_iff, hstatus] at hword
  cases hword
  rw [Field.operationStatus_word] at hagain
  exact moved (haStatus.symm.trans ((Except.ok.inj hagain).symm.trans hbStatus))

/-! ### Dates that cannot be read -/

namespace Store

def HasGroup (groups : List (List (Row Operation.Column Q))) (date : String) : Prop :=
  ∃ r rows, (r :: rows) ∈ groups ∧ r .scheduledStart = .text date

/-- A row joins a group with its start date, and no group loses its first row. -/
theorem hasGroup_addToGroup {r : Row Operation.Column Q}
    {groups : List (List (Row Operation.Column Q))} {date : String}
    (h : r .scheduledStart = .text date ∨ HasGroup groups date) :
    HasGroup (addToGroup r groups) date := by
  fun_induction addToGroup r groups with
  | case1 =>
    rcases h with hr | ⟨_, _, hmem, -⟩
    · exact ⟨r, [], List.mem_cons_self, hr⟩
    · cases hmem
  | case2 groups ih =>
    apply ih
    rcases h with hr | ⟨g, gs, hmem, hg⟩
    · exact Or.inl hr
    · rcases List.mem_cons.mp hmem with hmem | hmem
      · cases hmem
      · exact Or.inr ⟨g, gs, hmem, hg⟩
  | case3 g gs groups hagrees =>
    rcases h with hr | ⟨g', gs', hmem, hg⟩
    · rw [Bool.and_eq_true, hr] at hagrees
      exact ⟨g, gs ++ [r], List.mem_cons_self, Cell.eq_of_agrees hagrees.2⟩
    · rcases List.mem_cons.mp hmem with hmem | hmem
      · cases hmem
        exact ⟨g, gs ++ [r], List.mem_cons_self, hg⟩
      · exact ⟨g', gs', List.mem_cons_of_mem _ hmem, hg⟩
  | case4 g gs groups hdiffers ih =>
    rcases h with hr | ⟨g', gs', hmem, hg⟩
    · obtain ⟨g', gs', hmem, hg⟩ := ih (Or.inl hr)
      exact ⟨g', gs', List.mem_cons_of_mem _ hmem, hg⟩
    · rcases List.mem_cons.mp hmem with hmem | hmem
      · cases hmem
        exact ⟨g, gs, List.mem_cons_self, hg⟩
      · obtain ⟨g', gs', hmem, hg⟩ := ih (Or.inr ⟨g', gs', hmem, hg⟩)
        exact ⟨g', gs', List.mem_cons_of_mem _ hmem, hg⟩

theorem hasGroup_foldl {rows : List (Row Operation.Column Q)}
    (groups : List (List (Row Operation.Column Q))) {date : String}
    (h : (∃ r ∈ rows, r .scheduledStart = .text date) ∨ HasGroup groups date) :
    HasGroup (rows.foldl (fun groups r => addToGroup r groups) groups) date := by
  induction rows generalizing groups with
  | nil =>
    rcases h with ⟨_, hr, -⟩ | h
    · cases hr
    · exact h
  | cons r rows ih =>
    apply ih
    rcases h with ⟨r', hr', hdate⟩ | h
    · rcases List.mem_cons.mp hr' with rfl | hr'
      · exact Or.inr (hasGroup_addToGroup (Or.inl hdate))
      · exact Or.inl ⟨r', hr', hdate⟩
    · exact Or.inr (hasGroup_addToGroup (Or.inr h))

theorem readGroup_ne_ok {r : Row Operation.Column Q} {rows : List (Row Operation.Column Q)}
    {date : String} (hdate : r .scheduledStart = .text date) {fault : ReadFault}
    (unreadable : DateText.read date = .error fault) (minHours : Q)
    (entry : Option (LedgerEntry Q)) : readGroup minHours (r :: rows) ≠ .ok entry := by
  intro h
  obtain ⟨read, hread, -⟩ := bind_eq_ok_iff.mp h
  obtain ⟨text, htext, hread⟩ := bind_eq_ok_iff.mp hread
  rw [Row.text?_eq_ok_iff, hdate] at htext
  cases text with
  | none => cases htext
  | some text =>
    cases htext
    rw [Field.date, unreadable] at hread
    cases hread

/-- One row that counts in the window and has no readable date is enough to fail. -/
theorem loadLedgerEntries_ne_ok {s : Store Q} {r : Row Operation.Column Q} {date : String}
    {windowStart windowEnd : Date} (hr : r ∈ s.operations)
    (hdate : r .scheduledStart = .text date) {fault : ReadFault}
    (unreadable : DateText.read date = .error fault)
    (counts : isCommitted windowStart windowEnd r = true) (minHours : Q)
    (entries : List (LedgerEntry Q)) :
    s.loadLedgerEntries windowStart windowEnd minHours ≠ .ok entries := by
  intro h
  obtain ⟨read, hread, -⟩ := bind_eq_ok_iff.mp h
  obtain ⟨g, gs, hmem, hg⟩ := hasGroup_foldl []
    (Or.inl ⟨r, List.mem_filter.mpr ⟨hr, counts⟩, hdate⟩)
  obtain ⟨entry, -, hentry⟩ := forall₂_mem_left (mapM_eq_ok_iff.mp hread)
    (List.mem_mergeSort.mpr hmem)
  exact readGroup_ne_ok hg unreadable minHours entry hentry

theorem recalculate_ne_ok {s : Store Q} {r : Row Operation.Column Q} {date : String}
    {today : Date} (hr : r ∈ s.operations) (hdate : r .scheduledStart = .text date)
    {fault : ReadFault} (unreadable : DateText.read date = .error fault)
    (counts : isCommitted today (today.addDaysClamped (Settings.horizonDays s)) r = true)
    (ids : List String) (answer : List (String × Q) × Store Q) :
    s.recalculate today (some ids) none ≠ .ok answer := by
  intro h
  obtain ⟨centers, -, h⟩ := bind_eq_ok_iff.mp h
  obtain ⟨ledger, hledger, -⟩ := bind_eq_ok_iff.mp h
  obtain ⟨entries, hentries, -⟩ := bind_eq_ok_iff.mp hledger
  exact loadLedgerEntries_ne_ok hr hdate unreadable counts _ entries hentries

end Store

/-- Every action that concerns a work center strands on a row of another order that counts
    in the window and has no readable date. -/
theorem Written.stranded (h : Written clock operationId action report s u outcome v w)
    (keyed : s.Keyed) (affected : outcome.affectedWorkCenters ≠ [])
    {r : Row Operation.Column Q} (hr : r ∈ s.operations)
    (other : r .orderId ≠ .text v.order.orderId) {date : String}
    (hdate : r .scheduledStart = .text date) {fault : ReadFault}
    (unreadable : DateText.read date = .error fault)
    (counts : Store.isCommitted clock.today
      (clock.today.addDaysClamped (Settings.horizonDays s)) r = true) :
    Stranded clock operationId action report s u := by
  have hops := (Store.workset_eq_ok_iff.mp h.read).2
  have hu := (Store.applyTransition_eq h.written).1
  have hrows := Store.forall₂_recordAll keyed hops (Workset.changed_of_apply h.applied)
    (t := u) (by rw [hu])
  have hr : r ∈ u.operations := by
    obtain ⟨r', hr', hsame, -⟩ := forall₂_mem_left hrows hr
    rw [← hsame other]
    exact hr'
  have hsettings : Settings.horizonDays u = Settings.horizonDays s := by
    rw [hu]
    rfl
  rw [← hsettings] at counts
  refine ⟨outcome, v, w, h, affected, ?_⟩
  cases hresult : u.recalculate clock.today (some outcome.affectedWorkCenters) none with
  | error e => exact ⟨e, rfl⟩
  | ok answer => exact absurd hresult (Store.recalculate_ne_ok hr hdate unreadable counts _ _)

/-! ### A start that strands -/

/-- A shaft is ready to be turned. -/
def readyShaft : Operation Float :=
  { lossOperation with status := .ready, actualStart := none }

def strayOrder : Order Float := { lossOrder with orderId := "O2", orderNumber := "MO-O2" }

/-- An operation of another order, with a letter behind its start date. -/
def strayRow : Row Operation.Column Float :=
  Row.set (Operation.toRow { readyShaft with operationId := "O2/10", orderId := "O2" })
    .scheduledStart (.text "0000-03-06x")

def strayStore : Store Float :=
  { (Store.empty : Store Float) with
    orders := [lossOrder.toRow, strayOrder.toRow]
    operations := [readyShaft.toRow, strayRow] }

def startedShaft : Operation Float :=
  { readyShaft with status := .inProgress, actualStart := some lossClock.now }

def startOutcome : Outcome := ⟨"O1/10", .start, .ready, .inProgress, [], none, ["LATHE"]⟩

def strayStoreAfter : Store Float :=
  { strayStore with
    orders := [Store.progressRow lossOrder lossOrder.toRow, strayOrder.toRow]
    operations := [Store.recordExecution startedShaft readyShaft.toRow, strayRow] }

theorem keyed_stray : strayStore.Keyed where
  orders := by
    intro key hkey
    refine List.pairwise_pair.mpr ?_
    revert key
    decide +kernel
  operations := by
    intro key hkey
    refine List.pairwise_pair.mpr ?_
    revert key
    decide +kernel

theorem reads_readyShaft : Operation.Reads readyShaft.toRow readyShaft :=
  ⟨rfl, rfl, rfl, rfl, rfl, rfl, rfl, rfl, rfl, by decide +kernel, by decide +kernel,
    by decide +kernel, by decide +kernel, by decide +kernel, by decide +kernel,
    by decide +kernel, rfl, rfl, rfl, rfl, rfl, rfl, rfl⟩

theorem workset_stray : strayStore.workset "O1" = .ok ⟨lossOrder, [readyShaft]⟩ := by
  refine Store.workset_eq_ok_iff.mpr ⟨?_, ?_⟩
  · exact Store.getOrder_eq_ok_iff.mpr ⟨_, [], rfl, reads_lossOrder⟩
  · have hrows : Store.rowsWith strayStore.operations .orderId "O1" = [readyShaft.toRow] := rfl
    unfold Store.listOperations Store.sortedBy
    rw [hrows, List.mergeSort_of_pairwise (List.pairwise_singleton _ _)]
    exact mapM_eq_ok_iff.mpr (.cons (Operation.ofRow_eq_ok_iff.mpr reads_readyShaft) .nil)

theorem apply_stray :
    Workset.apply ⟨lossOrder, [readyShaft]⟩ "O1/10" .start Report.blank lossClock.now =
      .ok (⟨lossOrder, [startedShaft]⟩, startOutcome) := by
  refine bind_eq_ok_iff.mpr ⟨readyShaft, rfl, bind_eq_ok_iff.mpr ⟨(), rfl, ?_⟩⟩
  refine bind_eq_ok_iff.mpr ⟨.inProgress, rfl, ?_⟩
  rfl

theorem applyTransition_stray :
    strayStore.applyTransition lossOrder [startedShaft] = .ok strayStoreAfter := by
  have hoperation : Table.updateViolation? (Table.hasKey "O1/10")
      (Store.recordExecution startedShaft) [] strayStore.operations = none := by decide +kernel
  have horder : Table.updateViolation? (Table.hasKey "O1") (Store.progressRow lossOrder) []
      strayStore.orders = none := by decide +kernel
  exact Store.applyTransition_singleton hoperation horder rfl

theorem written_stray : Written lossClock "O1/10" .start Report.blank strayStore strayStoreAfter
    startOutcome ⟨lossOrder, [readyShaft]⟩ ⟨lossOrder, [startedShaft]⟩ where
  found := ⟨readyShaft, congrArg (Except.map some)
    (Operation.ofRow_eq_ok_iff.mpr reads_readyShaft), rfl⟩
  read := workset_stray
  applied := apply_stray
  written := applyTransition_stray

theorem stranded_stray :
    Stranded lossClock "O1/10" .start Report.blank strayStore strayStoreAfter := by
  have hread : DateText.read "0000-03-06x" = .error .trailing := by decide +kernel
  have hcounts : Store.isCommitted lossClock.today
      (lossClock.today.addDaysClamped (Settings.horizonDays strayStore)) strayRow = true := by
    decide +kernel
  have hother : strayRow .orderId ≠ .text "O1" := by
    intro h
    have hsame : (Cell.text "O2" : Cell Float) = .text "O1" := h
    exact absurd (Cell.text.inj hsame) (by decide)
  exact written_stray.stranded keyed_stray (List.cons_ne_nil _ _)
    (List.mem_cons_of_mem _ List.mem_cons_self) hother rfl hread hcounts

/-- The start is refused, and the operation has been started. -/
theorem transition_strands :
    strayStore.Keyed ∧
    ¬ ∀ e t, (Production.transition lossClock "O1/10" .start Report.blank).run strayStore =
      (.error e, t) → t.orders = strayStore.orders ∧ t.operations = strayStore.operations := by
  refine ⟨keyed_stray, fun h => ?_⟩
  obtain ⟨e, hrefused⟩ := stranded_stray.refused
  have hrows := (h e strayStoreAfter hrefused).2
  exact written_stray.operations_ne keyed_stray (by decide) hrows

end Workshop
