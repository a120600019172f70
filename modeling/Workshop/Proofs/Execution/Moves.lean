/-
  Workshop/Proofs/Execution/Moves.lean
  ====================================
  **One operation moves, the others stay.**  Every step of a run moves one operation and
  nothing else (`Step.moved`).  `Moved` keeps of that move only what the order of waves
  depends on: what the operation is does not change, and what becomes open to it was open
  to it before or belongs to the active wave.

  When a move completes the operation, the workset is settled: all operations are
  complete, or the wave is and the active one is released, or neither (`settle_cases`).

  A course of events mixes calls with releases of the active wave, and what both preserve
  holds throughout (`course_induction`).
-/
import Workshop.Proofs.Execution.ActiveWave
import Workshop.Proofs.Execution.Calls

namespace Workshop

variable {Q : Type}

/-- The operation may be worked on, is being worked on or has been worked on. -/
def Operation.Admitted (op : Operation Q) : Prop :=
  op.status = .ready ∨ op.status = .inProgress ∨ op.status = .complete ∨ op.hasStarted = true

/-- One operation has moved on: what it is stays, and what becomes open to it is owed to
    what was open to it before or to the active wave. -/
structure Moved (w : Workset Q) (a b : Operation Q) : Prop where
  job : b.job = a.job
  not_complete : a.status ≠ .complete
  admitted : b.Admitted → a.Admitted ∨ w.waves.activeWave = some a.groupKey
  waits : b.status = .pending → w.waves.activeWave ≠ some a.groupKey
  begun : b.status = .inProgress → b.hasStarted = true ∨ a.status = .inProgress ∧
    b.hasStarted = a.hasStarted

/-! ### Release and settlement -/

/-- The operation after the release of a wave. -/
def Operation.released (key : String) (op : Operation Q) : Operation Q :=
  if Workset.awaits key op then { op with status := .ready } else op

@[simp] theorem Operation.released_job (key : String) (op : Operation Q) :
    (op.released key).job = op.job := by
  unfold Operation.released
  split <;> rfl

theorem map_released_of_complete {ops : List (Operation Q)}
    (h : ∀ op ∈ ops, op.status = .complete) (key : String) :
    ops.map (Operation.released key) = ops := by
  rw [List.map_congr_left fun op hop => ?_, List.map_id]
  simp [Operation.released, Workset.awaits, h op hop]

namespace Workset

theorem release_operations {w : Workset Q} {key : String}
    (h : w.waves.activeWave = some key) :
    w.releaseActiveWave.1.operations = w.operations.map (Operation.released key) := by
  unfold releaseActiveWave
  rw [h]
  rfl

theorem release_eq_self {w : Workset Q} (h : w.waves.activeWave = none) :
    w.releaseActiveWave.1 = w := by
  unfold releaseActiveWave
  rw [h]

@[simp] theorem release_order (w : Workset Q) : w.releaseActiveWave.1.order = w.order := by
  unfold releaseActiveWave
  split <;> rfl

/-- An operation after a release is as it was, or it waited in the active wave. -/
theorem mem_release {w : Workset Q} {key : String} (h : w.waves.activeWave = some key)
    {op : Operation Q} (hop : op ∈ w.releaseActiveWave.1.operations) :
    (op ∈ w.operations ∧ ¬ (op.groupKey = key ∧ op.status = .pending)) ∨
      ∃ x ∈ w.operations, x.groupKey = key ∧ x.status = .pending ∧
        op = { x with status := .ready } := by
  rw [release_operations h] at hop
  obtain ⟨x, hx, rfl⟩ := List.mem_map.mp hop
  unfold Operation.released
  by_cases ha : awaits key x = true
  · rw [if_pos ha]
    have hxa : x.groupKey = key ∧ x.status = .pending := by simpa [awaits] using ha
    exact Or.inr ⟨x, hx, hxa.1, hxa.2, rfl⟩
  · rw [if_neg ha]
    exact Or.inl ⟨hx, by simpa [awaits] using ha⟩

theorem exists_mem_release {w : Workset Q} {op : Operation Q} (hop : op ∈ w.operations) :
    ∃ x ∈ w.releaseActiveWave.1.operations, x.job = op.job ∧
      (op.status ≠ .complete → x.status ≠ .complete) := by
  cases hkey : w.waves.activeWave with
  | none =>
    rw [release_eq_self hkey]
    exact ⟨op, hop, rfl, id⟩
  | some key =>
    rw [release_operations hkey]
    refine ⟨op.released key, List.mem_map_of_mem hop, op.released_job key, ?_⟩
    unfold Operation.released
    split
    · simp
    · exact id

/-- Settling closes the order, releases the active wave or changes nothing. -/
theorem settle_cases (v : Workset Q) (key : String) (now : Instant) :
    ((∀ op ∈ v.operations, op.status = .complete) ∧
      (v.settle key now).1 =
        { v with order := { v.order with status := .complete, completedAt := some now } }) ∨
    ((∃ op ∈ v.operations, op.status ≠ .complete) ∧
      (∀ op ∈ v.operations, op.groupKey = key → op.status = .complete) ∧
      (v.settle key now).1 = v.releaseActiveWave.1) ∨
    ((∃ op ∈ v.operations, op.groupKey = key ∧ op.status ≠ .complete) ∧
      (v.settle key now).1 = v) := by
  unfold settle
  by_cases hall : v.waves.allComplete = true
  · left
    simp only [if_pos hall, and_true]
    exact WaveIndex.allComplete_iff.mp hall
  · right
    have hopen : ∃ op ∈ v.operations, op.status ≠ .complete := by
      by_contra hno
      simp only [not_exists, not_and, not_not, ne_eq] at hno
      exact hall (WaveIndex.allComplete_iff.mpr hno)
    by_cases hwave : v.waves.isWaveComplete key = true
    · left
      simp only [if_neg hall, if_pos hwave, and_true]
      exact ⟨hopen, WaveIndex.isWaveComplete_iff.mp hwave⟩
    · right
      simp only [if_neg hall, if_neg hwave, and_true]
      by_contra hno
      simp only [not_exists, not_and, not_not, ne_eq] at hno
      exact hwave (WaveIndex.isWaveComplete_iff.mpr hno)

/-- What is complete stays as it is when the workset is settled. -/
theorem mem_settle {w : Workset Q} {op : Operation Q} (hop : op ∈ w.operations)
    (hs : op.status = .complete) (key : String) (now : Instant) :
    op ∈ (w.settle key now).1.operations := by
  rcases w.settle_cases key now with ⟨-, h⟩ | ⟨-, -, h⟩ | ⟨-, h⟩
  · rw [h]
    exact hop
  · rw [h]
    cases hkey : w.waves.activeWave with
    | none =>
      rw [release_eq_self hkey]
      exact hop
    | some wave =>
      rw [release_operations hkey]
      refine List.mem_map.mpr ⟨op, hop, ?_⟩
      simp [Operation.released, awaits, hs]
  · rw [h]
    exact hop

/-! ### What a step does to one operation -/

theorem moved_begun {w : Workset Q} {op : Operation Q} (report : Report Q) (now : Instant)
    (waits : op.status = .ready ∨ op.status = .inProgress) :
    Moved w op (op.begun report now) where
  job := op.begun_job report now
  not_complete := by rcases waits with h | h <;> simp [h]
  admitted := fun _ => Or.inl (by rcases waits with h | h <;> simp [Operation.Admitted, h])
  waits := by simp
  begun := fun _ => Or.inl (op.begun_hasStarted report now)

theorem moved_held {w : Workset Q} {op : Operation Q} (report : Report Q)
    (open_ : op.status = .pending ∨ op.status = .ready ∨ op.status = .inProgress) :
    Moved w op (op.put .onHold report) where
  job := op.put_job .onHold report
  not_complete := by rcases open_ with h | h | h <;> simp [h]
  admitted := by
    intro h
    have hs : op.hasStarted = true := by simpa [Operation.Admitted, Operation.hasStarted] using h
    exact Or.inl (Or.inr (Or.inr (Or.inr hs)))
  waits := by simp
  begun := by simp

theorem moved_resumed {w : Workset Q} {op : Operation Q} (report : Report Q)
    (held : op.status = .onHold) : Moved w op (op.put (w.resumed op) report) where
  job := op.put_job _ report
  not_complete := by simp [held]
  admitted := by
    intro h
    by_cases hs : op.hasStarted = true
    · exact Or.inl (Or.inr (Or.inr (Or.inr hs)))
    · by_cases ha : w.waves.activeWave = some op.groupKey
      · exact Or.inr ha
      · simp [Operation.Admitted, Operation.hasStarted, resumed, ha] at h hs
        simp [hs] at h
  waits := by
    intro h
    simp only [Operation.put_status, resumed] at h
    split at h
    · cases h
    · split at h
      · cases h
      · assumption
  begun := by
    intro h
    left
    simp only [Operation.put_status, resumed] at h
    split at h
    · rename_i hs
      simpa [Operation.hasStarted] using hs
    · split at h <;> cases h

variable [Quantity Q]

theorem moved_enter {w : Workset Q} {op : Operation Q} (quantity : Q) (report : Report Q)
    (busy : op.status = .inProgress) : Moved w op (enter op quantity report) where
  job := op.enter_job quantity report
  not_complete := by simp [busy]
  admitted := fun _ => Or.inl (by simp [Operation.Admitted, busy])
  waits := by simp [busy]
  begun := fun _ => Or.inr ⟨busy, by simp [Operation.hasStarted]⟩

theorem moved_finished {w : Workset Q} {op : Operation Q} (quantity : Q) (report : Report Q)
    (now : Instant) (busy : op.status = .inProgress) :
    Moved w op (op.finished quantity report now) where
  job := op.finished_job quantity report now
  not_complete := by simp [busy]
  admitted := fun _ => Or.inl (by simp [Operation.Admitted, busy])
  waits := by simp
  begun := by simp

/-- A step moves one operation on.  When that completes it, the workset is settled. -/
theorem Step.moved {w w' : Workset Q} {c : Call Q} (h : Step w c w') :
    ∃ pre a b post, w.operations = pre ++ a :: post ∧ Moved w a b ∧
      ((b.status ≠ .complete ∧ w'.operations = pre ++ b :: post) ∨
        ∃ v : Workset Q, v.operations = pre ++ b :: post ∧ v.order = w.order ∧
          b.status = .complete ∧ w' = (v.settle a.groupKey c.now).1) := by
  cases h with
  | start located active waits wave =>
    obtain ⟨pre, post, hops, hset⟩ := exists_split located
    exact ⟨pre, _, _, post, hops, moved_begun _ _ waits, Or.inl ⟨by simp, by
      rw [underWay_operations, hset]⟩⟩
  | enter located active checked busy part =>
    obtain ⟨pre, post, hops, hset⟩ := exists_split located
    exact ⟨pre, _, _, post, hops, moved_enter _ _ busy, Or.inl ⟨by simp [busy], hset _⟩⟩
  | finish located active checked busy whole =>
    obtain ⟨pre, post, hops, hset⟩ := exists_split located
    exact ⟨pre, _, _, post, hops, moved_finished _ _ _ busy, Or.inr ⟨_, hset _, rfl, rfl, rfl⟩⟩
  | hold located open_ =>
    obtain ⟨pre, post, hops, hset⟩ := exists_split located
    exact ⟨pre, _, _, post, hops, moved_held _ open_, Or.inl ⟨by simp, hset _⟩⟩
  | resume located held =>
    obtain ⟨pre, post, hops, hset⟩ := exists_split located
    exact ⟨pre, _, _, post, hops, moved_resumed _ held, Or.inl ⟨by simp, hset _⟩⟩

/-! ### Courses of events -/

/-- What may happen to a workset: a call, or the release of its active wave. -/
inductive Event (Q : Type) where
  | call (c : Call Q)
  | release

/-- The workset after an event. -/
def undergo (w : Workset Q) : Event Q → Workset Q
  | .call c => w.attempt c
  | .release => w.releaseActiveWave.1

/-- The workset after events, one after the other. -/
def course (w : Workset Q) (events : List (Event Q)) : Workset Q := events.foldl undergo w

/-- What steps and releases preserve holds after every course of events. -/
theorem course_induction {P : Workset Q → Prop} {w : Workset Q} (start : P w)
    (step : ∀ {v v' : Workset Q} {c : Call Q}, P v → Step v c v' → P v')
    (release : ∀ {v : Workset Q}, P v → P v.releaseActiveWave.1) (events : List (Event Q)) :
    P (w.course events) := by
  induction events generalizing w with
  | nil => exact start
  | cons e events ih =>
    refine ih ?_
    cases e with
    | call c =>
      rcases attempt_eq_or_step w c with h | h
      · rw [undergo, h]
        exact start
      · exact step start h
    | release => exact release start

end Workset

end Workshop
