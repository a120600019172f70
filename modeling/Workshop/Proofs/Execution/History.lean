/-
  Workshop/Proofs/Execution/History.lean
  ======================================
  **What is recorded of an operation.**  The history of a course of events lists the calls
  that were accepted (`Workset.history`).  The record of an operation can be read off the
  entries about it alone (`Operation.RecordedBy`): hours add up from left to right, of the
  pieces the last report counts, of the starts the first, and notes are put below one
  another.

  An accepted call adds one entry, and the record goes along with it, one lemma for each
  action.  Refused calls and releases add none.
-/
import Workshop.Proofs.Execution.Outcomes
import Workshop.Proofs.Execution.Quantities

namespace Workshop

variable {Q : Type}

/-- An accepted call, and the state in which it left the operation. -/
structure Entry (Q : Type) where
  call : Call Q
  status : Option OperationStatus

namespace Entry

/-- The entries about an operation. -/
def about (operationId : String) (entries : List (Entry Q)) : List (Entry Q) :=
  entries.filter (·.call.operationId == operationId)

/-- The reports of pieces made. -/
def reports (entries : List (Entry Q)) : List (Report Q) :=
  (entries.filter (·.call.action == .complete)).map (·.call.report)

/-- The first start. -/
def firstStart (entries : List (Entry Q)) : Option (Entry Q) :=
  entries.find? (·.call.action == .start)

/-- The report that completed the operation. -/
def completion (entries : List (Entry Q)) : Option (Entry Q) :=
  entries.find? fun e => e.call.action == .complete && e.status == some .complete

/-- The notes without the blanks around them, as far as something is left. -/
def lines (entries : List (Entry Q)) : List String :=
  (entries.map fun e => Text.trim (e.call.report.notes.getD "")).filter (· ≠ "")

/-- The notes below one another. -/
def notes (entries : List (Entry Q)) : Option String :=
  if lines entries = [] then none else some ("\n".intercalate (lines entries))

variable [Quantity Q]

/-- The hours of all reports, added in their order; what is not given counts as none. -/
def total (hours : Report Q → Option Q) (entries : List (Entry Q)) : Q :=
  (reports entries).foldl (fun sum r => sum + (hours r).getD Quantity.zero) Quantity.zero

/-- The pieces of the last report that gives them. -/
def latest (pieces : Report Q → Option Q) (entries : List (Entry Q)) : Q :=
  ((reports entries).filterMap pieces).getLast?.getD Quantity.zero

end Entry

namespace Workset

variable [Quantity Q]

/-- The calls that are accepted in a course of events. -/
def history (w : Workset Q) : List (Event Q) → List (Entry Q)
  | [] => []
  | .release :: events => w.releaseActiveWave.1.history events
  | .call c :: events =>
    match w.apply c.operationId c.action c.report c.now with
    | .ok (w', _) => ⟨c, (w'.operation? c.operationId).map (·.status)⟩ :: w'.history events
    | .error _ => w.history events

/-- What holds at first, survives every accepted call together with its entry and survives
    every release holds of the course of events and its history. -/
theorem history_induction {P : Workset Q → List (Entry Q) → Prop} {w : Workset Q}
    {entries : List (Entry Q)} (start : P w entries)
    (step : ∀ {v v' : Workset Q} {c : Call Q} {entries}, P v entries → Step v c v' →
      P v' (entries ++ [⟨c, (v'.operation? c.operationId).map (·.status)⟩]))
    (release : ∀ {v : Workset Q} {entries}, P v entries → P v.releaseActiveWave.1 entries)
    (events : List (Event Q)) : P (w.course events) (entries ++ w.history events) := by
  induction events generalizing w entries with
  | nil => simpa [history, course] using start
  | cons event events ih =>
    cases event with
    | release => exact ih (release start)
    | call c =>
      have hcourse : w.course (.call c :: events) = (w.attempt c).course events := rfl
      cases happly : w.apply c.operationId c.action c.report c.now with
      | error fault => simpa [hcourse, attempt, history, happly] using ih start
      | ok result =>
        have hs : Step w c result.1 := step_of_accepts ⟨result.2, happly⟩
        simpa [hcourse, attempt, history, happly] using ih (step start hs)

end Workset

variable [Quantity Q]

/-- The record of an operation is that of the entries about it. -/
structure Operation.RecordedBy (entries : List (Entry Q)) (op : Operation Q) : Prop where
  setupHours : op.actualSetupHours = Entry.total (·.setupHours) entries
  runHours : op.actualRunHours = Entry.total (·.runHours) entries
  quantityComplete : op.quantityComplete = Entry.latest (·.quantityComplete) entries
  quantityScrapped : op.quantityScrapped = Entry.latest (·.quantityScrapped) entries
  actualStart : op.actualStart = (Entry.firstStart entries).map (·.call.now)
  startedBy : op.startedBy = (Entry.firstStart entries).bind (·.call.report.actor)
  actualEnd : op.actualEnd = (Entry.completion entries).map (·.call.now)
  completedBy : op.completedBy = (Entry.completion entries).bind (·.call.report.actor)
  complete_iff : op.status = .complete ↔ (Entry.completion entries).isSome = true
  notes : op.notes = Entry.notes entries

/-! ### What an entry adds -/

namespace Entry

variable {entries : List (Entry Q)} {e : Entry Q}

theorem total_of_ne (h : e.call.action ≠ .complete) (hours : Report Q → Option Q) :
    total hours (entries ++ [e]) = total hours entries := by
  simp [total, reports, h]

theorem total_of_complete (h : e.call.action = .complete) (hours : Report Q → Option Q) :
    total hours (entries ++ [e]) =
      total hours entries + (hours e.call.report).getD Quantity.zero := by
  simp [total, reports, h]

theorem latest_of_ne (h : e.call.action ≠ .complete) (pieces : Report Q → Option Q) :
    latest pieces (entries ++ [e]) = latest pieces entries := by
  simp [latest, reports, h]

theorem latest_of_complete (h : e.call.action = .complete) (pieces : Report Q → Option Q) :
    latest pieces (entries ++ [e]) = (pieces e.call.report).getD (latest pieces entries) := by
  cases hpieces : pieces e.call.report with
  | none => simp [latest, reports, h, hpieces]
  | some x => simp [latest, reports, h, hpieces]

omit [Quantity Q]

theorem firstStart_of_ne (h : e.call.action ≠ .start) :
    firstStart (entries ++ [e]) = firstStart entries := by
  simp [firstStart, h]

theorem firstStart_of_start (h : e.call.action = .start) :
    firstStart (entries ++ [e]) = (firstStart entries).or (some e) := by
  simp [firstStart, h]

theorem completion_of_not (h : ¬ (e.call.action = .complete ∧ e.status = some .complete)) :
    completion (entries ++ [e]) = completion entries := by
  simp [completion, h]

theorem completion_of_complete (none : completion entries = none)
    (h : e.call.action = .complete) (done : e.status = some .complete) :
    completion (entries ++ [e]) = some e := by
  rw [completion] at none ⊢
  simp [List.find?_append, none, h, done]

theorem lines_append : lines (entries ++ [e]) =
    lines entries ++ [Text.trim (e.call.report.notes.getD "")].filter (· ≠ "") := by
  simp [lines]

end Entry

theorem intercalate_ne_empty {sep : String} {xs : List String} (hxs : xs ≠ [])
    (h : ∀ x ∈ xs, x ≠ "") : sep.intercalate xs ≠ "" := by
  cases xs with
  | nil => exact absurd rfl hxs
  | cons x xs =>
    have hx := h x List.mem_cons_self
    cases xs with
    | nil => simpa using hx
    | cons y ys => simp [hx]

namespace Operation

variable {entries : List (Entry Q)} {e : Entry Q} {op : Operation Q}

omit [Quantity Q] in
/-- The notes of a call are put below those of the calls before it. -/
theorem addNotes_of_notes (h : op.notes = Entry.notes entries) (e : Entry Q) :
    op.addNotes e.call.report.notes = { op with notes := Entry.notes (entries ++ [e]) } := by
  unfold Entry.notes at h ⊢
  rw [Entry.lines_append]
  unfold addNotes
  by_cases hblank : Text.trim (e.call.report.notes.getD "") = ""
  · simp [hblank, ← h]
  · by_cases hfirst : Entry.lines entries = []
    · rw [if_pos hfirst] at h
      simp [hblank, hfirst, h]
    · rw [if_neg hfirst] at h
      have hne : "\n".intercalate (Entry.lines entries) ≠ "" := by
        refine intercalate_ne_empty hfirst fun line hline => ?_
        simpa using (List.mem_filter.mp hline).2
      simp [hblank, hfirst, h, hne, String.intercalate_append_of_ne_nil]

omit [Quantity Q] in
theorem begun_eq (op : Operation Q) (report : Report Q) (now : Instant) :
    op.begun report now = { op with
      status := .inProgress
      actualStart := op.actualStart.or (some now)
      startedBy := if op.actualStart.isNone then report.actor else op.startedBy
      }.addNotes report.notes := by
  unfold begun
  cases h : op.actualStart with
  | none => rfl
  | some time => simp

namespace RecordedBy

theorem of_addNotes (h : op.notes = Entry.notes entries)
    (noted : RecordedBy (entries ++ [e]) { op with notes := Entry.notes (entries ++ [e]) }) :
    RecordedBy (entries ++ [e]) (op.addNotes e.call.report.notes) := by
  rw [addNotes_of_notes h e]
  exact noted

theorem completion_eq_none (h : op.RecordedBy entries) (undone : op.status ≠ .complete) :
    Entry.completion entries = none := by
  rw [← Option.not_isSome_iff_eq_none, ← h.complete_iff]
  exact undone

/-- Of holds and resumptions only the notes are kept. -/
theorem put (h : op.RecordedBy entries) (undone : op.status ≠ .complete)
    {status : OperationStatus} (open_ : status ≠ .complete) (start : e.call.action ≠ .start)
    (complete : e.call.action ≠ .complete) :
    (op.put status e.call.report).RecordedBy (entries ++ [e]) := by
  have none := h.completion_eq_none undone
  have same : Entry.completion (entries ++ [e]) = Entry.completion entries :=
    Entry.completion_of_not fun h => complete h.1
  refine of_addNotes h.notes ?_
  constructor
  case setupHours => rw [Entry.total_of_ne complete, ← h.setupHours]
  case runHours => rw [Entry.total_of_ne complete, ← h.runHours]
  case quantityComplete => rw [Entry.latest_of_ne complete, ← h.quantityComplete]
  case quantityScrapped => rw [Entry.latest_of_ne complete, ← h.quantityScrapped]
  case actualStart => rw [Entry.firstStart_of_ne start, ← h.actualStart]
  case startedBy => rw [Entry.firstStart_of_ne start, ← h.startedBy]
  case actualEnd => rw [same, ← h.actualEnd]
  case completedBy => rw [same, ← h.completedBy]
  case complete_iff => simpa [same, none] using open_
  case notes => rfl

/-- The first start is kept. -/
theorem begun (h : op.RecordedBy entries) (undone : op.status ≠ .complete)
    (start : e.call.action = .start) :
    (op.begun e.call.report e.call.now).RecordedBy (entries ++ [e]) := by
  have none := h.completion_eq_none undone
  have complete : e.call.action ≠ .complete := by simp [start]
  have same : Entry.completion (entries ++ [e]) = Entry.completion entries :=
    Entry.completion_of_not fun h => complete h.1
  rw [begun_eq]
  refine of_addNotes h.notes ?_
  constructor
  case setupHours => rw [Entry.total_of_ne complete, ← h.setupHours]
  case runHours => rw [Entry.total_of_ne complete, ← h.runHours]
  case quantityComplete => rw [Entry.latest_of_ne complete, ← h.quantityComplete]
  case quantityScrapped => rw [Entry.latest_of_ne complete, ← h.quantityScrapped]
  case actualStart =>
    rw [Entry.firstStart_of_start start, h.actualStart]
    cases Entry.firstStart entries <;> rfl
  case startedBy =>
    rw [Entry.firstStart_of_start start, h.actualStart, h.startedBy]
    cases Entry.firstStart entries <;> rfl
  case actualEnd => rw [same, ← h.actualEnd]
  case completedBy => rw [same, ← h.completedBy]
  case complete_iff => simp [same, none]
  case notes => rfl

/-- Hours are added, and pieces replace those reported before. -/
theorem enter (h : op.RecordedBy entries) (undone : op.status ≠ .complete) {quantity : Q}
    (complete : e.call.action = .complete) (part : e.status ≠ some .complete)
    (made : e.call.report.quantityComplete = some quantity) :
    (Workset.enter op quantity e.call.report).RecordedBy (entries ++ [e]) := by
  have none := h.completion_eq_none undone
  have start : e.call.action ≠ .start := by simp [complete]
  have same : Entry.completion (entries ++ [e]) = Entry.completion entries :=
    Entry.completion_of_not fun h => part h.2
  refine of_addNotes h.notes ?_
  constructor
  case setupHours => rw [Entry.total_of_complete complete, ← h.setupHours]
  case runHours => rw [Entry.total_of_complete complete, ← h.runHours]
  case quantityComplete => simp [Entry.latest_of_complete complete, made]
  case quantityScrapped => rw [Entry.latest_of_complete complete, ← h.quantityScrapped]
  case actualStart => rw [Entry.firstStart_of_ne start, ← h.actualStart]
  case startedBy => rw [Entry.firstStart_of_ne start, ← h.startedBy]
  case actualEnd => rw [same, ← h.actualEnd]
  case completedBy => rw [same, ← h.completedBy]
  case complete_iff => simpa [same, none] using undone
  case notes => rfl

/-- The report that completes an operation gives its end as well. -/
theorem finished (h : op.RecordedBy entries) (undone : op.status ≠ .complete) {quantity : Q}
    (complete : e.call.action = .complete) (whole : e.status = some .complete)
    (made : e.call.report.quantityComplete = some quantity) :
    (op.finished quantity e.call.report e.call.now).RecordedBy (entries ++ [e]) := by
  have none := h.completion_eq_none undone
  have start : e.call.action ≠ .start := by simp [complete]
  have last := Entry.completion_of_complete none complete whole
  unfold Operation.finished Workset.enter
  rw [addNotes_of_notes (by exact h.notes) e]
  constructor
  case setupHours => rw [Entry.total_of_complete complete, ← h.setupHours]
  case runHours => rw [Entry.total_of_complete complete, ← h.runHours]
  case quantityComplete => simp [Entry.latest_of_complete complete, made]
  case quantityScrapped => rw [Entry.latest_of_complete complete, ← h.quantityScrapped]
  case actualStart => rw [Entry.firstStart_of_ne start, ← h.actualStart]
  case startedBy => rw [Entry.firstStart_of_ne start, ← h.startedBy]
  case actualEnd => rw [last]; rfl
  case completedBy => rw [last]; rfl
  case complete_iff => simp [last]
  case notes => rfl

theorem released (h : op.RecordedBy entries) (key : String) :
    (op.released key).RecordedBy entries := by
  unfold Operation.released
  split
  · rename_i waits
    have pending : op.status = .pending := by
      simp only [Workset.awaits, Bool.and_eq_true, beq_iff_eq] at waits
      exact waits.2
    have none := h.completion_eq_none (by simp [pending])
    exact { h with complete_iff := by simp [none] }
  · exact h

end RecordedBy

/-- An operation on which nothing has been reported has the record of no entries. -/
theorem recordedBy_toOperation (d : Draft Q) (orderId operationId : String) :
    (d.toOperation orderId operationId).RecordedBy [] where
  setupHours := rfl
  runHours := rfl
  quantityComplete := rfl
  quantityScrapped := rfl
  actualStart := rfl
  startedBy := rfl
  actualEnd := rfl
  completedBy := rfl
  complete_iff := by simp [Draft.toOperation, Entry.completion]
  notes := rfl

end Operation

/-! ### Along a course of events -/

namespace Workset

open Operation

/-- Every operation has the record of the entries about it. -/
def Recorded (w : Workset Q) (entries : List (Entry Q)) : Prop :=
  ∀ op ∈ w.operations, op.RecordedBy (Entry.about op.operationId entries)

variable {w w' : Workset Q} {entries : List (Entry Q)}

theorem Recorded.release (h : Recorded w entries) : Recorded w.releaseActiveWave.1 entries := by
  cases hkey : w.waves.activeWave with
  | none => rwa [release_eq_self hkey]
  | some key =>
    intro op hop
    rw [release_operations hkey] at hop
    obtain ⟨x, hx, rfl⟩ := List.mem_map.mp hop
    rw [operationId_eq_of_job (x.released_job key)]
    exact (h x hx).released key

theorem Recorded.settle (h : Recorded w entries) (key : String) (now : Instant) :
    Recorded (w.settle key now).1 entries := by
  rcases w.settle_cases key now with ⟨-, heq⟩ | ⟨-, -, heq⟩ | ⟨-, heq⟩
  · rw [heq]
    exact h
  · rw [heq]
    exact h.release
  · rwa [heq]

/-- The entry of a call concerns only the operation that the call is about. -/
theorem Recorded.set (h : Recorded w entries) (distinct : w.DistinctIds) {e : Entry Q}
    {id : String} {op new : Operation Q} (located : w.operation? id = some op)
    (names : e.call.operationId = id) (job : new.job = op.job)
    (recorded : ∀ {es}, op.RecordedBy es → new.RecordedBy (es ++ [e])) :
    Recorded (w.setOperation id new) (entries ++ [e]) := by
  have hid := operationId_of_located located
  obtain ⟨pre, post, hops, hset⟩ := exists_split located
  have about_self : Entry.about op.operationId (entries ++ [e]) =
      Entry.about op.operationId entries ++ [e] := by
    simp [Entry.about, names, hid]
  intro x hx
  rw [hset] at hx
  rcases mem_middle_iff.mp hx with rfl | hother
  · rw [operationId_eq_of_job job, about_self]
    exact recorded (h op (by simp [hops]))
  · have hmem : x ∈ w.operations := by
      rw [hops]
      exact mem_middle_iff.mpr (Or.inr hother)
    have hne : e.call.operationId ≠ x.operationId := by
      rw [names, ← hid]
      exact (distinct.ne_of_other hops x hother).symm
    have about_other : Entry.about x.operationId (entries ++ [e]) =
        Entry.about x.operationId entries := by
      simp [Entry.about, hne]
    rw [about_other]
    exact h x hmem

omit [Quantity Q] in
theorem status_of_mem (distinct : w.DistinctIds) {id : String} {op new : Operation Q}
    (located : w'.operation? id = some op) (job : new.job = op.job) (hnew : new ∈ w.operations) :
    (w.operation? id).map (·.status) = some new.status := by
  have hid : new.operationId = id :=
    (operationId_eq_of_job job).trans (operationId_of_located located)
  rw [← hid, operation?_of_mem distinct hnew]
  rfl

theorem Step.recorded {c : Call Q} (hs : Step w c w') (distinct : w.DistinctIds)
    (h : Recorded w entries) :
    Recorded w' (entries ++ [⟨c, (w'.operation? c.operationId).map (·.status)⟩]) := by
  have distinct' := distinct.of_map_job hs.map_job
  generalize hstatus : (w'.operation? c.operationId).map (·.status) = status
  cases hs with
  | @start id report now op located active waits wave =>
    let e : Entry Q := ⟨⟨id, .start, report, now⟩, status⟩
    have undone : op.status ≠ .complete := by rcases waits with hs | hs <;> simp [hs]
    have hset : Recorded (w.setOperation id (op.begun report now)) (entries ++ [e]) :=
      h.set distinct located rfl (op.begun_job report now) fun hop => hop.begun (e := e) undone rfl
    intro x hx
    rw [underWay_operations] at hx
    exact hset x hx
  | @enter id report now op quantity located active checked busy part =>
    let e : Entry Q := ⟨⟨id, .complete, report, now⟩, status⟩
    obtain ⟨made, -⟩ := checkReport_eq_ok_iff.mp checked
    obtain ⟨pre, post, -, hset⟩ := exists_split located
    have hmem : Workset.enter op quantity report ∈
        (w.setOperation id (Workset.enter op quantity report)).operations := by simp [hset]
    rw [status_of_mem distinct' located (op.enter_job quantity report) hmem] at hstatus
    refine h.set distinct located rfl (op.enter_job quantity report) fun hop =>
      hop.enter (e := e) (by simp [busy]) rfl ?_ made
    simp [e, ← hstatus, busy]
  | @finish id report now op quantity located active checked busy whole =>
    let e : Entry Q := ⟨⟨id, .complete, report, now⟩, status⟩
    obtain ⟨made, -⟩ := checkReport_eq_ok_iff.mp checked
    obtain ⟨pre, post, -, hset⟩ := exists_split located
    have hmem : op.finished quantity report now ∈
        (w.setOperation id (op.finished quantity report now)).operations := by simp [hset]
    rw [status_of_mem distinct' located (op.finished_job quantity report now)
      (mem_settle hmem rfl op.groupKey now)] at hstatus
    exact (h.set distinct located rfl (op.finished_job quantity report now) fun hop =>
      hop.finished (e := e) (by simp [busy]) rfl hstatus.symm made).settle _ _
  | @hold id report now op located open_ =>
    let e : Entry Q := ⟨⟨id, .hold, report, now⟩, status⟩
    have undone : op.status ≠ .complete := by rcases open_ with hs | hs | hs <;> simp [hs]
    exact h.set distinct located rfl (op.put_job .onHold report) fun hop =>
      hop.put (e := e) undone (by simp) (by simp [e]) (by simp [e])
  | @resume id report now op located held =>
    let e : Entry Q := ⟨⟨id, .resume, report, now⟩, status⟩
    exact h.set distinct located rfl (op.put_job _ report) fun hop =>
      hop.put (e := e) (by simp [held]) (w.resumed_ne_complete op) (by simp [e]) (by simp [e])

/-- **The record of an operation is that of the accepted calls about it**, in their order;
    what was refused, and what was about other operations, has no part in it. -/
theorem course_recordedBy {w : Workset Q} (distinct : w.DistinctIds)
    (planned : ∀ op ∈ w.operations, ∃ d orderId operationId,
      op = Draft.toOperation d orderId operationId) (events : List (Event Q)) :
    ∀ op ∈ (w.course events).operations,
      op.RecordedBy (Entry.about op.operationId (w.history events)) := by
  have start : Recorded w [] := by
    intro op hop
    obtain ⟨d, orderId, operationId, rfl⟩ := planned op hop
    exact recordedBy_toOperation d orderId operationId
  have hcourse : (w.course events).DistinctIds ∧
      Recorded (w.course events) ([] ++ w.history events) := by
    refine history_induction (P := fun v entries => v.DistinctIds ∧ Recorded v entries)
      ⟨distinct, start⟩ ?_ ?_ events
    · rintro v v' c entries ⟨hv, h⟩ hs
      exact ⟨hv.of_map_job hs.map_job, hs.recorded hv h⟩
    · rintro v entries ⟨hv, h⟩
      exact ⟨hv.of_map_job v.map_job_release, h.release⟩
  exact hcourse.2

end Workset

/-- A call on a bracket operation at a second of the first day. -/
def bracketCall (second : Fin 86400) (operationId : String) (action : Action)
    (report : Report Float) : Workset.Event Float :=
  .call ⟨operationId, action, report, ⟨.first, second.val, 0, second.isLt, Nat.succ_pos _,
    fun h => absurd h (Nat.not_succ_le_zero _)⟩⟩

/-- The first operation is worked off in two reports with a pause between them; a report of
    too many pieces, one on an operation that waits and a late start are refused. -/
def bracketCourse : List (Workset.Event Float) :=
  [.release,
    bracketCall 28800 "B1/10" .start ⟨some "ada", none, none, none, none, some "set up "⟩,
    bracketCall 28900 "B1/10" .complete ⟨some "ada", some 5, none, some 9, none, some "typo"⟩,
    bracketCall 29000 "B1/10" .complete ⟨some "ada", some 1, some 1, some 2, none, some " one "⟩,
    bracketCall 29100 "B1/10" .hold ⟨some "ada", none, none, none, none, some "  "⟩,
    bracketCall 29200 "B1/40" .complete ⟨some "bo", some 4, none, none, none, none⟩,
    bracketCall 29300 "B1/10" .resume .blank,
    bracketCall 29400 "B1/10" .complete ⟨some "bo", some 4, none, some 1, some 3, some "rest"⟩,
    bracketCall 29500 "B1/10" .start ⟨some "bo", none, none, none, none, none⟩]

theorem course_recordedBy_bracket :
    (Workset.mk bracketOrder bracketOperations).DistinctIds ∧
      (∀ op ∈ bracketOperations, ∃ d orderId operationId,
        op = Draft.toOperation d orderId operationId) ∧
      ∀ op ∈ ((Workset.mk bracketOrder bracketOperations).course bracketCourse).operations,
        op.RecordedBy (Entry.about op.operationId
          ((Workset.mk bracketOrder bracketOperations).history bracketCourse)) := by
  have distinct : (Workset.mk bracketOrder bracketOperations).DistinctIds := by
    unfold Workset.DistinctIds
    decide
  have planned : ∀ op ∈ bracketOperations, ∃ d orderId operationId,
      op = Draft.toOperation d orderId operationId := by
    intro op hop
    obtain ⟨p, -, rfl⟩ := List.mem_map.mp hop
    exact ⟨_, _, _, rfl⟩
  exact ⟨distinct, planned, Workset.course_recordedBy distinct planned bracketCourse⟩

end Workshop
