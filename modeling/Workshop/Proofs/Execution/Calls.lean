/-
  Workshop/Proofs/Execution/Calls.lean
  ====================================
  **Calls, steps and runs.**  A call asks for an action on an operation of a workset.
  `Workset.run` carries out calls one after the other and passes over those that are
  refused.  `Workset.Step` says, action by action, what an accepted call needs and what
  it leaves behind; it is exactly what `Workset.apply` does (`step_of_accepts`,
  `accepts_of_step`).

  Whatever steps preserve holds throughout a run (`run_induction`).  No step changes
  what an operation is: its plan, its identifier and its dates stay (`map_job_run`).
-/
import Workshop.Workset
import Mathlib.Data.List.Nodup

namespace Workshop

/-- A computation that may fail and goes on has two results that follow each other. -/
theorem bind_eq_ok_iff {ε α β : Type} {x : Except ε α} {f : α → Except ε β} {b : β} :
    (x >>= f) = .ok b ↔ ∃ a, x = .ok a ∧ f a = .ok b := by
  cases x with
  | error e => simp [bind, Except.bind]
  | ok a => simp [bind, Except.bind]

theorem bind_eq_error_iff {ε α β : Type} {x : Except ε α} {f : α → Except ε β} {e : ε} :
    (x >>= f) = .error e ↔ x = .error e ∨ ∃ a, x = .ok a ∧ f a = .error e := by
  cases x with
  | error e' => simp [bind, Except.bind]
  | ok a => simp [bind, Except.bind]

variable {Q : Type}

/-! ### What an action makes of an operation -/

/-- The wave that a draft will belong to. -/
def Draft.groupKey (d : Draft Q) : String :=
  match d.operationGroup with
  | some group => group
  | none => "#" ++ toString d.sequence

/-- What an operation is, whatever has been done on it: its identifiers, its plan and its
    dates. -/
structure Job (Q : Type) where
  operationId : String
  orderId : String
  plan : Draft Q
  scheduledStart : Option Date
  scheduledEnd : Option Date

namespace Operation

/-- What was planned for an operation before its execution. -/
def plan (op : Operation Q) : Draft Q where
  sequence := op.sequence
  componentPartId := op.componentPartId
  operationGroup := op.operationGroup
  workCenterId := op.workCenterId
  name := op.name
  description := op.description
  isInspection := op.isInspection
  setupHours := op.setupHours
  runHours := op.runHours

/-- Everything about an operation but the record of its execution. -/
def job (op : Operation Q) : Job Q :=
  ⟨op.operationId, op.orderId, op.plan, op.scheduledStart, op.scheduledEnd⟩

theorem sequence_eq_of_job {a b : Operation Q} (h : a.job = b.job) : a.sequence = b.sequence :=
  congrArg (·.plan.sequence) h

theorem groupKey_eq_of_job {a b : Operation Q} (h : a.job = b.job) : a.groupKey = b.groupKey :=
  congrArg (·.plan.groupKey) h

/-- The operation after a start; only the first start is recorded. -/
def begun (op : Operation Q) (report : Report Q) (now : Instant) : Operation Q :=
  (if op.actualStart.isNone then
    { op with status := .inProgress, actualStart := some now, startedBy := report.actor }
  else { op with status := .inProgress }).addNotes report.notes

/-- The operation after a report that completes it. -/
def finished [Quantity Q] (op : Operation Q) (quantity : Q) (report : Report Q) (now : Instant) :
    Operation Q :=
  { Workset.enter op quantity report with
    status := .complete, actualEnd := some now, completedBy := report.actor }

/-- The operation in another state, with the notes of a report. -/
def put (op : Operation Q) (status : OperationStatus) (report : Report Q) : Operation Q :=
  { op with status := status }.addNotes report.notes

theorem addNotes_eq (op : Operation Q) (notes : Option String) :
    ∃ text, op.addNotes notes = { op with notes := text } := by
  simp only [addNotes]
  split
  · exact ⟨op.notes, rfl⟩
  · cases op.notes with
    | none => exact ⟨_, rfl⟩
    | some existing =>
      simp only
      split
      · exact ⟨_, rfl⟩
      · exact ⟨_, rfl⟩

@[simp] theorem addNotes_status (op : Operation Q) (notes : Option String) :
    (op.addNotes notes).status = op.status := by
  obtain ⟨text, h⟩ := op.addNotes_eq notes
  rw [h]

@[simp] theorem addNotes_actualStart (op : Operation Q) (notes : Option String) :
    (op.addNotes notes).actualStart = op.actualStart := by
  obtain ⟨text, h⟩ := op.addNotes_eq notes
  rw [h]

@[simp] theorem addNotes_job (op : Operation Q) (notes : Option String) :
    (op.addNotes notes).job = op.job := by
  obtain ⟨text, h⟩ := op.addNotes_eq notes
  rw [h]
  rfl

@[simp] theorem begun_status (op : Operation Q) (report : Report Q) (now : Instant) :
    (op.begun report now).status = .inProgress := by
  unfold begun
  split <;> simp

theorem begun_hasStarted (op : Operation Q) (report : Report Q) (now : Instant) :
    (op.begun report now).hasStarted = true := by
  unfold begun hasStarted
  cases h : op.actualStart with
  | none => simp
  | some t => simp

@[simp] theorem begun_job (op : Operation Q) (report : Report Q) (now : Instant) :
    (op.begun report now).job = op.job := by
  unfold begun
  rw [addNotes_job]
  split <;> rfl

@[simp] theorem put_status (op : Operation Q) (status : OperationStatus) (report : Report Q) :
    (op.put status report).status = status := by
  simp [put]

@[simp] theorem put_actualStart (op : Operation Q) (status : OperationStatus)
    (report : Report Q) : (op.put status report).actualStart = op.actualStart := by
  simp [put]

@[simp] theorem put_job (op : Operation Q) (status : OperationStatus) (report : Report Q) :
    (op.put status report).job = op.job := by
  unfold put
  rw [addNotes_job]
  rfl

variable [Quantity Q]

@[simp] theorem enter_status (op : Operation Q) (quantity : Q) (report : Report Q) :
    (Workset.enter op quantity report).status = op.status := by
  simp [Workset.enter]

@[simp] theorem enter_actualStart (op : Operation Q) (quantity : Q) (report : Report Q) :
    (Workset.enter op quantity report).actualStart = op.actualStart := by
  simp [Workset.enter]

@[simp] theorem enter_job (op : Operation Q) (quantity : Q) (report : Report Q) :
    (Workset.enter op quantity report).job = op.job := by
  unfold Workset.enter
  rw [addNotes_job]
  rfl

@[simp] theorem finished_status (op : Operation Q) (quantity : Q) (report : Report Q)
    (now : Instant) : (op.finished quantity report now).status = .complete := rfl

@[simp] theorem finished_actualStart (op : Operation Q) (quantity : Q) (report : Report Q)
    (now : Instant) : (op.finished quantity report now).actualStart = op.actualStart := by
  simp [finished]

@[simp] theorem finished_job (op : Operation Q) (quantity : Q) (report : Report Q)
    (now : Instant) : (op.finished quantity report now).job = op.job := by
  have h := enter_job op quantity report
  unfold finished
  generalize Workset.enter op quantity report = entered at h
  exact h

end Operation

/-! ### Calls -/

/-- A report with nothing on it. -/
def Report.blank : Report Q := ⟨none, none, none, none, none, none⟩

/-- A request to carry out an action on an operation. -/
structure Call (Q : Type) where
  operationId : String
  action : Action
  report : Report Q
  now : Instant

namespace Workset

theorem locate_eq_ok_iff {w : Workset Q} {id : String} {op : Operation Q} :
    w.locate id = .ok op ↔ w.operation? id = some op := by
  unfold locate
  split <;> simp_all

theorem ensureActive_eq_ok_iff {w : Workset Q} :
    w.ensureActive = .ok () ↔ w.order.status.isSchedulable = true := by
  unfold ensureActive
  split <;> simp_all

theorem after_eq_ok_iff {s t : OperationStatus} {a : Action} :
    (s.after a : Except (Fault Q) OperationStatus) = .ok t ↔ s.after? a = some t := by
  unfold OperationStatus.after
  split <;> simp_all

theorem after?_start_iff {s t : OperationStatus} :
    s.after? .start = some t ↔ (s = .ready ∨ s = .inProgress) ∧ t = .inProgress := by
  cases s <;> simp [OperationStatus.after?, eq_comm]

theorem after?_complete_iff {s t : OperationStatus} :
    s.after? .complete = some t ↔ s = .inProgress ∧ t = .complete := by
  cases s <;> simp [OperationStatus.after?, eq_comm]

theorem after?_hold_iff {s t : OperationStatus} :
    s.after? .hold = some t ↔
      (s = .pending ∨ s = .ready ∨ s = .inProgress) ∧ t = .onHold := by
  cases s <;> simp [OperationStatus.after?, eq_comm]

theorem after?_resume_iff {s t : OperationStatus} :
    s.after? .resume = some t ↔ s = .onHold ∧ t = .ready := by
  cases s <;> simp [OperationStatus.after?, eq_comm]

@[simp] theorem resumed_ne_complete (w : Workset Q) (op : Operation Q) :
    w.resumed op ≠ .complete := by
  unfold resumed
  split
  · simp
  · split <;> simp

/-- The workset with its order in progress, if it was only released. -/
def underWay (w : Workset Q) : Workset Q :=
  if w.order.status == .released then { w with order := { w.order with status := .inProgress } }
  else w

/-! ### What a change of one operation leaves alone -/

theorem replaceFirst_middle {pre post : List (Operation Q)} {op new : Operation Q}
    (h : ∀ x ∈ pre, x.operationId ≠ op.operationId) :
    replaceFirst op.operationId new (pre ++ op :: post) = pre ++ new :: post := by
  induction pre with
  | nil => simp [replaceFirst]
  | cons x xs ih =>
    have hx := h x List.mem_cons_self
    simpa [replaceFirst, hx] using ih fun y hy => h y (List.mem_cons_of_mem x hy)

/-- An operation that is found stands somewhere in the list, and what is put in its
    place stands there. -/
theorem exists_split {w : Workset Q} {id : String} {op : Operation Q}
    (h : w.operation? id = some op) :
    ∃ pre post, w.operations = pre ++ op :: post ∧
      ∀ new, (w.setOperation id new).operations = pre ++ new :: post := by
  obtain ⟨hid, pre, post, heq, hpre⟩ := List.find?_eq_some_iff_append.mp h
  have hop : op.operationId = id := by simpa using hid
  subst hop
  refine ⟨pre, post, heq, fun new => ?_⟩
  unfold setOperation
  simp only [heq]
  exact replaceFirst_middle fun x hx => by simpa using hpre x hx

theorem map_job_setOperation {w : Workset Q} {id : String} {op new : Operation Q}
    (h : w.operation? id = some op) (hnew : new.job = op.job) :
    (w.setOperation id new).operations.map Operation.job = w.operations.map Operation.job := by
  obtain ⟨pre, post, hops, hset⟩ := exists_split h
  rw [hops, hset]
  simp [hnew]

theorem map_job_release (w : Workset Q) :
    w.releaseActiveWave.1.operations.map Operation.job = w.operations.map Operation.job := by
  unfold releaseActiveWave
  split
  · rfl
  · simp only [List.map_map]
    refine List.map_congr_left fun op _ => ?_
    simp only [Function.comp_apply]
    split <;> rfl

/-- Settling either leaves the operations alone or releases the active wave. -/
theorem settle_operations (w : Workset Q) (key : String) (now : Instant) :
    (w.settle key now).1.operations = w.operations ∨
      (w.settle key now).1.operations = w.releaseActiveWave.1.operations := by
  unfold settle
  simp only
  split
  · exact Or.inl rfl
  · split
    · exact Or.inr rfl
    · exact Or.inl rfl

@[simp] theorem underWay_operations (w : Workset Q) : w.underWay.operations = w.operations := by
  unfold underWay
  split <;> rfl

/-! ### Steps -/

variable [Quantity Q]

/-- What an accepted call does to a workset, and under which conditions. -/
inductive Step (w : Workset Q) : Call Q → Workset Q → Prop
  | start {id : String} {report : Report Q} {now : Instant} {op : Operation Q}
      (located : w.operation? id = some op)
      (active : w.order.status.isSchedulable = true)
      (open_ : op.status = .ready ∨ op.status = .inProgress)
      (wave : w.waves.activeWave = some op.groupKey) :
      Step w ⟨id, .start, report, now⟩ (w.setOperation id (op.begun report now)).underWay
  | enter {id : String} {report : Report Q} {now : Instant} {op : Operation Q} {quantity : Q}
      (located : w.operation? id = some op)
      (active : w.order.status.isSchedulable = true)
      (checked : w.checkReport report = .ok quantity)
      (busy : op.status = .inProgress)
      (part : quantity < w.order.quantityOrdered) :
      Step w ⟨id, .complete, report, now⟩
        (w.setOperation id (Workset.enter op quantity report))
  | finish {id : String} {report : Report Q} {now : Instant} {op : Operation Q} {quantity : Q}
      (located : w.operation? id = some op)
      (active : w.order.status.isSchedulable = true)
      (checked : w.checkReport report = .ok quantity)
      (busy : op.status = .inProgress)
      (whole : ¬ quantity < w.order.quantityOrdered) :
      Step w ⟨id, .complete, report, now⟩
        ((w.setOperation id (op.finished quantity report now)).settle op.groupKey now).1
  | hold {id : String} {report : Report Q} {now : Instant} {op : Operation Q}
      (located : w.operation? id = some op)
      (open_ : op.status = .pending ∨ op.status = .ready ∨ op.status = .inProgress) :
      Step w ⟨id, .hold, report, now⟩ (w.setOperation id (op.put .onHold report))
  | resume {id : String} {report : Report Q} {now : Instant} {op : Operation Q}
      (located : w.operation? id = some op)
      (held : op.status = .onHold) :
      Step w ⟨id, .resume, report, now⟩ (w.setOperation id (op.put (w.resumed op) report))

/-- The call is accepted and leaves this workset behind. -/
def Accepts (w : Workset Q) (c : Call Q) (w' : Workset Q) : Prop :=
  ∃ outcome, w.apply c.operationId c.action c.report c.now = .ok (w', outcome)

theorem step_of_start {w w' : Workset Q} {id : String} {report : Report Q} {now : Instant}
    {outcome : Outcome} (h : w.start id report now = .ok (w', outcome)) :
    Step w ⟨id, .start, report, now⟩ w' := by
  unfold start at h
  obtain ⟨op, located, h⟩ := bind_eq_ok_iff.mp h
  obtain ⟨_, active, h⟩ := bind_eq_ok_iff.mp h
  obtain ⟨next, after, h⟩ := bind_eq_ok_iff.mp h
  rw [locate_eq_ok_iff] at located
  rw [ensureActive_eq_ok_iff] at active
  rw [after_eq_ok_iff, after?_start_iff] at after
  obtain ⟨waits, rfl⟩ := after
  simp only at h
  split at h
  · split at h <;> cases h
  · rename_i wave
    rw [not_not] at wave
    obtain ⟨rfl, -⟩ := Prod.mk.inj (Except.ok.inj h)
    exact .start located active waits wave

theorem step_of_complete {w w' : Workset Q} {id : String} {report : Report Q} {now : Instant}
    {outcome : Outcome} (h : w.complete id report now = .ok (w', outcome)) :
    Step w ⟨id, .complete, report, now⟩ w' := by
  unfold complete at h
  obtain ⟨op, located, h⟩ := bind_eq_ok_iff.mp h
  obtain ⟨_, active, h⟩ := bind_eq_ok_iff.mp h
  obtain ⟨quantity, checked, h⟩ := bind_eq_ok_iff.mp h
  obtain ⟨next, after, h⟩ := bind_eq_ok_iff.mp h
  rw [locate_eq_ok_iff] at located
  rw [ensureActive_eq_ok_iff] at active
  rw [after_eq_ok_iff, after?_complete_iff] at after
  simp only at h
  split at h
  · rename_i part
    obtain ⟨rfl, -⟩ := Prod.mk.inj (Except.ok.inj h)
    exact .enter located active checked after.1 part
  · rename_i whole
    obtain ⟨rfl, -⟩ := Prod.mk.inj (Except.ok.inj h)
    exact .finish located active checked after.1 whole

theorem step_of_hold {w w' : Workset Q} {id : String} {report : Report Q} {now : Instant}
    {outcome : Outcome} (h : w.hold id report = .ok (w', outcome)) :
    Step w ⟨id, .hold, report, now⟩ w' := by
  unfold hold at h
  obtain ⟨op, located, h⟩ := bind_eq_ok_iff.mp h
  obtain ⟨next, after, h⟩ := bind_eq_ok_iff.mp h
  rw [locate_eq_ok_iff] at located
  rw [after_eq_ok_iff, after?_hold_iff] at after
  obtain ⟨open_, rfl⟩ := after
  obtain ⟨rfl, -⟩ := Prod.mk.inj (Except.ok.inj h)
  exact .hold located open_

theorem step_of_resume {w w' : Workset Q} {id : String} {report : Report Q} {now : Instant}
    {outcome : Outcome} (h : w.resume id report = .ok (w', outcome)) :
    Step w ⟨id, .resume, report, now⟩ w' := by
  unfold resume at h
  obtain ⟨op, located, h⟩ := bind_eq_ok_iff.mp h
  obtain ⟨next, after, h⟩ := bind_eq_ok_iff.mp h
  rw [locate_eq_ok_iff] at located
  rw [after_eq_ok_iff, after?_resume_iff] at after
  obtain ⟨rfl, -⟩ := Prod.mk.inj (Except.ok.inj h)
  exact .resume located after.1

/-- An accepted call does what its step says. -/
theorem step_of_accepts {w w' : Workset Q} {c : Call Q} (h : w.Accepts c w') : Step w c w' := by
  obtain ⟨id, action, report, now⟩ := c
  obtain ⟨outcome, h⟩ := h
  cases action with
  | start => exact step_of_start h
  | complete => exact step_of_complete h
  | hold => exact step_of_hold h
  | resume => exact step_of_resume h

/-- A step is the work of an accepted call. -/
theorem accepts_of_step {w w' : Workset Q} {c : Call Q} (h : Step w c w') : w.Accepts c w' := by
  cases h with
  | start located active waits wave =>
    have hl := locate_eq_ok_iff.mpr located
    have ha := ensureActive_eq_ok_iff.mpr active
    have hn := after_eq_ok_iff (Q := Q).mpr (after?_start_iff.mpr ⟨waits, rfl⟩)
    simp only [Accepts, apply, start, hl, ha, hn, bind, Except.bind]
    rw [if_neg (not_not.mpr wave)]
    exact ⟨_, rfl⟩
  | enter located active checked busy part =>
    have hl := locate_eq_ok_iff.mpr located
    have ha := ensureActive_eq_ok_iff.mpr active
    have hn := after_eq_ok_iff (Q := Q).mpr (after?_complete_iff.mpr ⟨busy, rfl⟩)
    simp only [Accepts, apply, complete, hl, ha, checked, hn, bind, Except.bind]
    rw [if_pos part]
    exact ⟨_, rfl⟩
  | finish located active checked busy whole =>
    have hl := locate_eq_ok_iff.mpr located
    have ha := ensureActive_eq_ok_iff.mpr active
    have hn := after_eq_ok_iff (Q := Q).mpr (after?_complete_iff.mpr ⟨busy, rfl⟩)
    simp only [Accepts, apply, complete, hl, ha, checked, hn, bind, Except.bind]
    rw [if_neg whole]
    exact ⟨_, rfl⟩
  | hold located open_ =>
    have hl := locate_eq_ok_iff.mpr located
    have hn := after_eq_ok_iff (Q := Q).mpr (after?_hold_iff.mpr ⟨open_, rfl⟩)
    simp only [Accepts, apply, hold, hl, hn, bind, Except.bind]
    exact ⟨_, rfl⟩
  | resume located held =>
    have hl := locate_eq_ok_iff.mpr located
    have hn := after_eq_ok_iff (Q := Q).mpr (after?_resume_iff.mpr ⟨held, rfl⟩)
    simp only [Accepts, apply, resume, hl, hn, bind, Except.bind]
    exact ⟨_, rfl⟩

/-! ### Runs -/

/-- The workset after a call.  A refusal comes without a workset, and then the old one is
    kept. -/
def attempt (w : Workset Q) (c : Call Q) : Workset Q :=
  match w.apply c.operationId c.action c.report c.now with
  | .ok (w', _) => w'
  | .error _ => w

/-- The workset after calls carried out in turn. -/
def run (w : Workset Q) (calls : List (Call Q)) : Workset Q := calls.foldl attempt w

@[simp] theorem run_nil (w : Workset Q) : w.run [] = w := rfl

@[simp] theorem run_cons (w : Workset Q) (c : Call Q) (calls : List (Call Q)) :
    w.run (c :: calls) = (w.attempt c).run calls := rfl

theorem run_append (w : Workset Q) (first second : List (Call Q)) :
    w.run (first ++ second) = (w.run first).run second := List.foldl_append

theorem attempt_of_step {w w' : Workset Q} {c : Call Q} (h : Step w c w') : w.attempt c = w' := by
  obtain ⟨outcome, h⟩ := accepts_of_step h
  unfold attempt
  rw [h]

theorem run_pair_of_steps {w w1 w2 : Workset Q} {c1 c2 : Call Q} (first : Step w c1 w1)
    (second : Step w1 c2 w2) : w.run [c1, c2] = w2 := by
  rw [run_cons, attempt_of_step first, run_cons, attempt_of_step second, run_nil]

theorem attempt_eq_or_step (w : Workset Q) (c : Call Q) :
    w.attempt c = w ∨ Step w c (w.attempt c) := by
  unfold attempt
  split
  · rename_i w' outcome h
    exact Or.inr (step_of_accepts ⟨outcome, h⟩)
  · exact Or.inl rfl

/-- What every step preserves holds after every run. -/
theorem run_induction {P : Workset Q → Prop} {w : Workset Q} (start : P w)
    (step : ∀ {v v' : Workset Q} {c : Call Q}, P v → Step v c v' → P v')
    (calls : List (Call Q)) : P (w.run calls) := by
  induction calls generalizing w with
  | nil => exact start
  | cons c calls ih =>
    rw [run_cons]
    apply ih
    rcases attempt_eq_or_step w c with h | h
    · rw [h]; exact start
    · exact step start h

/-! ### What a run leaves alone -/

theorem Step.map_job {w w' : Workset Q} {c : Call Q} (h : Step w c w') :
    w'.operations.map Operation.job = w.operations.map Operation.job := by
  cases h with
  | start located active waits wave =>
    rw [underWay_operations, map_job_setOperation located (Operation.begun_job _ _ _)]
  | enter located active checked busy part =>
    exact map_job_setOperation located (Operation.enter_job _ _ _)
  | @finish id report now op quantity located active checked busy whole =>
    have hset := map_job_setOperation located (op.finished_job quantity report now)
    rcases settle_operations (w.setOperation id (op.finished quantity report now))
      op.groupKey now with h | h
    · rw [h, hset]
    · rw [h, map_job_release, hset]
  | hold located open_ => exact map_job_setOperation located (Operation.put_job _ _ _)
  | resume located held => exact map_job_setOperation located (Operation.put_job _ _ _)

/-- Whatever is done on operations, they remain the same operations. -/
theorem map_job_run (w : Workset Q) (calls : List (Call Q)) :
    (w.run calls).operations.map Operation.job = w.operations.map Operation.job :=
  run_induction (P := fun v => v.operations.map Operation.job = w.operations.map Operation.job)
    rfl (fun ih h => h.map_job.trans ih) calls

end Workset

end Workshop
