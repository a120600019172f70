/-
  Workshop/Proofs/Execution/Lifecycle.lean
  ========================================
  **The life of an order.**  The state of an order is written by the first start and by
  the last completion, and never read off its operations.  It agrees with them all the
  same (`Workset.Agrees`): the order is released while nothing has begun, and complete as
  soon as every operation is.

  Most events leave the order alone and keep when each operation began and whether it is
  complete (`Operation.Quiet`); a start and a completion are taken one by one.  The waves
  may be in any disorder.
-/
import Workshop.Proofs.Execution.Outcomes
import Workshop.Proofs.Execution.WaveOrder

namespace Workshop

variable {Q : Type}

theorem forall_iff_of_forall₂ {α : Type} {P : α → Prop} {xs ys : List α}
    (h : List.Forall₂ (fun x y => P y ↔ P x) xs ys) : (∀ y ∈ ys, P y) ↔ ∀ x ∈ xs, P x := by
  induction h with
  | nil => simp
  | cons hxy _ ih => simp only [List.forall_mem_cons, hxy, ih]

namespace Operation

/-- Neither the beginning nor the completion of the operation has changed. -/
structure Quiet (a b : Operation Q) : Prop where
  actualStart : b.actualStart = a.actualStart
  complete : b.status = .complete ↔ a.status = .complete

theorem Quiet.refl (a : Operation Q) : Quiet a a := ⟨rfl, Iff.rfl⟩

theorem Quiet.of_open {a b : Operation Q} (actualStart : b.actualStart = a.actualStart)
    (ha : a.status ≠ .complete) (hb : b.status ≠ .complete) : Quiet a b :=
  ⟨actualStart, iff_of_false hb ha⟩

theorem quiet_released (key : String) (op : Operation Q) : Quiet op (op.released key) := by
  unfold released
  by_cases h : Workset.awaits key op = true
  · rw [if_pos h]
    have waits : op.status = .pending := by
      simp only [Workset.awaits, Bool.and_eq_true, beq_iff_eq] at h
      exact h.2
    exact .of_open rfl (by simp [waits]) (by simp)
  · rw [if_neg h]
    exact .refl op

/-- The operation stays the same one, and once complete it stays as it is. -/
structure Lasts (a b : Operation Q) : Prop where
  operationId : b.operationId = a.operationId
  complete : a.status = .complete → b = a

theorem Lasts.refl (a : Operation Q) : Lasts a a := ⟨rfl, fun _ => rfl⟩

theorem Lasts.trans {a b c : Operation Q} (h : Lasts a b) (h' : Lasts b c) : Lasts a c := by
  refine ⟨h'.operationId.trans h.operationId, fun complete => ?_⟩
  have hb := h.complete complete
  subst hb
  exact h'.complete complete

theorem Lasts.of_job {a b : Operation Q} (job : b.job = a.job) (ha : a.status ≠ .complete) :
    Lasts a b := ⟨operationId_eq_of_job job, fun h => absurd h ha⟩

theorem lasts_released (key : String) (op : Operation Q) : Lasts op (op.released key) := by
  refine ⟨operationId_eq_of_job (op.released_job key), fun complete => ?_⟩
  simp [released, Workset.awaits, complete]

end Operation

namespace Workset

open Operation

/-- The state of the order agrees with its operations. -/
structure Agrees (w : Workset Q) : Prop where
  /-- The order is released, in progress or complete. -/
  status : w.order.status = .released ∨ w.order.status = .inProgress ∨
    w.order.status = .complete
  /-- It is released as long as nothing has begun. -/
  released_iff : w.order.status = .released ↔ ∀ op ∈ w.operations, op.actualStart = none
  /-- It is complete when every operation is. -/
  complete_iff : w.order.status = .complete ↔ ∀ op ∈ w.operations, op.status = .complete
  /-- The time of its completion is known when it is complete. -/
  completedAt_iff : w.order.status = .complete ↔ w.order.completedAt.isSome = true

/-- An order in progress: something has begun, and something is still to be done. -/
theorem agrees_of_inProgress {w : Workset Q} (status : w.order.status = .inProgress)
    (completedAt : w.order.completedAt = none) {a b : Operation Q} (ha : a ∈ w.operations)
    (begun : a.hasStarted = true) (hb : b ∈ w.operations) (undone : b.status ≠ .complete) :
    Agrees w where
  status := Or.inr (Or.inl status)
  released_iff := by
    refine iff_of_false (by simp [status]) fun h => ?_
    simp [hasStarted, h a ha] at begun
  complete_iff := iff_of_false (by simp [status]) fun h => undone (h b hb)
  completedAt_iff := by simp [status, completedAt]

namespace Agrees

variable {w w' : Workset Q}

theorem of_quiet (h : Agrees w) (order : w'.order = w.order)
    (quiet : List.Forall₂ Quiet w.operations w'.operations) : Agrees w' := by
  have begun : (∀ op ∈ w'.operations, op.actualStart = none) ↔
      ∀ op ∈ w.operations, op.actualStart = none :=
    forall_iff_of_forall₂ (quiet.imp fun a b hab => by rw [hab.actualStart])
  have done : (∀ op ∈ w'.operations, op.status = .complete) ↔
      ∀ op ∈ w.operations, op.status = .complete :=
    forall_iff_of_forall₂ (quiet.imp fun a b hab => hab.complete)
  constructor
  case status =>
    rw [order]
    exact h.status
  case released_iff => rw [order, begun, h.released_iff]
  case complete_iff => rw [order, done, h.complete_iff]
  case completedAt_iff => rw [order, h.completedAt_iff]

theorem completedAt_of_schedulable (h : Agrees w)
    (active : w.order.status.isSchedulable = true) : w.order.completedAt = none := by
  rw [← Option.not_isSome_iff_eq_none, ← h.completedAt_iff]
  intro complete
  simp [complete, OrderStatus.isSchedulable] at active

theorem inProgress_of_begun (h : Agrees w) (active : w.order.status.isSchedulable = true)
    {op : Operation Q} (hop : op ∈ w.operations) (begun : op.hasStarted = true) :
    w.order.status = .inProgress := by
  rcases h.status with released | inProgress | complete
  · rw [h.released_iff] at released
    simp [hasStarted, released op hop] at begun
  · exact inProgress
  · simp [complete, OrderStatus.isSchedulable] at active

theorem set (h : Agrees w) {id : String} {op new : Operation Q}
    (located : w.operation? id = some op) (quiet : Quiet op new) :
    Agrees (w.setOperation id new) :=
  h.of_quiet rfl (forall₂_setOperation located Quiet.refl quiet)

theorem release (h : Agrees w) : Agrees w.releaseActiveWave.1 := by
  cases hkey : w.waves.activeWave with
  | none => rwa [release_eq_self hkey]
  | some key =>
    refine h.of_quiet (release_order w) ?_
    rw [release_operations hkey]
    exact forall₂_map_self fun op _ => quiet_released key op

/-- The start of an operation puts the order in progress. -/
theorem start (h : Agrees w) {id : String} {op : Operation Q} (report : Report Q) (now : Instant)
    (located : w.operation? id = some op) (active : w.order.status.isSchedulable = true) :
    Agrees (w.setOperation id (op.begun report now)).underWay := by
  obtain ⟨pre, post, -, hset⟩ := exists_split located
  have hmem : op.begun report now ∈
      (w.setOperation id (op.begun report now)).underWay.operations := by
    rw [underWay_operations, hset]
    simp
  refine agrees_of_inProgress ?_ ?_ hmem (op.begun_hasStarted report now) hmem (by simp)
  · unfold underWay
    split
    · rfl
    · rename_i other
      revert active other
      simp only [setOperation]
      cases w.order.status <;> simp [OrderStatus.isSchedulable]
  · have completedAt := h.completedAt_of_schedulable active
    unfold underWay
    split
    · exact completedAt
    · exact completedAt

/-- The completion of an operation completes the order if it was the last one. -/
theorem finish (h : Agrees w) {id : String} {op done : Operation Q} (key : String) (now : Instant)
    (located : w.operation? id = some op) (active : w.order.status.isSchedulable = true)
    (begun : op.hasStarted = true) (same : done.actualStart = op.actualStart) :
    Agrees ((w.setOperation id done).settle key now).1 := by
  obtain ⟨pre, post, hops, hset⟩ := exists_split located
  have hop : op ∈ w.operations := by simp [hops]
  have hdone : done ∈ (w.setOperation id done).operations := by simp [hset]
  have started : done.hasStarted = true := by rwa [hasStarted, same]
  -- the order is in progress as long as something is left to do
  have goesOn : ∀ x ∈ (w.setOperation id done).operations, x.status ≠ .complete →
      Agrees (w.setOperation id done) := fun x hx hxc =>
    agrees_of_inProgress (h.inProgress_of_begun active hop begun)
      (h.completedAt_of_schedulable active) hdone started hx hxc
  rcases (w.setOperation id done).settle_cases key now with
    ⟨hall, heq⟩ | ⟨⟨x, hx, hxc⟩, -, heq⟩ | ⟨⟨x, hx, -, hxc⟩, heq⟩
  · rw [heq]
    constructor
    case status => exact Or.inr (Or.inr rfl)
    case released_iff =>
      refine iff_of_false (by simp) fun hnone => ?_
      simp [hasStarted, hnone done hdone] at started
    case complete_iff => exact iff_of_true rfl hall
    case completedAt_iff => simp
  · rw [heq]
    exact (goesOn x hx hxc).release
  · rw [heq]
    exact goesOn x hx hxc

end Agrees

theorem agrees_of_fresh {w : Workset Q} (fresh : Fresh w.operations) (nonempty : w.operations ≠ [])
    (released : w.order.status = .released) (unfinished : w.order.completedAt = none) :
    Agrees w where
  status := Or.inl released
  released_iff := iff_of_true released fresh.unbegun
  complete_iff := by
    obtain ⟨op, hop⟩ := List.exists_mem_of_ne_nil _ nonempty
    refine iff_of_false (by simp [released]) fun h => ?_
    have := h op hop
    simp [fresh.waiting op hop] at this
  completedAt_iff := by simp [released, unfinished]

/-! ### What is complete stays -/

theorem lasts_release (w : Workset Q) :
    List.Forall₂ Lasts w.operations w.releaseActiveWave.1.operations := by
  cases hkey : w.waves.activeWave with
  | none =>
    rw [release_eq_self hkey]
    exact List.forall₂_same.mpr fun op _ => .refl op
  | some key =>
    rw [release_operations hkey]
    exact forall₂_map_self fun op _ => lasts_released key op

theorem lasts_settle (w : Workset Q) (key : String) (now : Instant) :
    List.Forall₂ Lasts w.operations (w.settle key now).1.operations := by
  rcases w.settle_operations key now with h | h
  · rw [h]
    exact List.forall₂_same.mpr fun op _ => .refl op
  · rw [h]
    exact w.lasts_release

/-! ### Along a course of events -/

variable [Quantity Q]

theorem Step.agrees {w w' : Workset Q} {c : Call Q} (h : Step w c w')
    (progress : ProgressBegun w.operations) (agrees : Agrees w) : Agrees w' := by
  cases h with
  | start located active waits wave => exact agrees.start _ _ located active
  | enter located active checked busy part =>
    exact agrees.set located (.of_open (by simp) (by simp [busy]) (by simp [busy]))
  | finish located active checked busy whole =>
    obtain ⟨pre, post, hops, -⟩ := exists_split located
    have begun := progress _ (by simp [hops]) busy
    exact agrees.finish _ _ located active begun (by simp)
  | hold located open_ =>
    refine agrees.set located (.of_open (by simp) ?_ (by simp))
    rcases open_ with h | h | h <;> simp [h]
  | resume located held =>
    exact agrees.set located (.of_open (by simp) (by simp [held]) (by simp))

theorem Step.lasts {w w' : Workset Q} {c : Call Q} (h : Step w c w') :
    List.Forall₂ Lasts w.operations w'.operations := by
  obtain ⟨pre, a, b, post, hops, hm, hw'⟩ := h.moved
  have same (ops : List (Operation Q)) : List.Forall₂ Lasts ops ops :=
    List.forall₂_same.mpr fun op _ => .refl op
  have moved : List.Forall₂ Lasts w.operations (pre ++ b :: post) := by
    rw [hops]
    exact List.rel_append (same pre) (.cons (.of_job hm.job hm.not_complete) (same post))
  rcases hw' with ⟨-, hw'⟩ | ⟨v, hv, -, -, rfl⟩
  · rwa [hw']
  · rw [← hv] at moved
    exact forall₂_trans (fun _ _ _ => .trans) moved (v.lasts_settle a.groupKey c.now)

theorem lasts_course (w : Workset Q) (events : List (Event Q)) :
    List.Forall₂ Lasts w.operations (w.course events).operations := by
  refine course_induction (P := fun v => List.Forall₂ Lasts w.operations v.operations)
    (List.forall₂_same.mpr fun op _ => .refl op) ?_ ?_ events
  · intro v v' c h hs
    exact forall₂_trans (fun _ _ _ => .trans) h hs.lasts
  · intro v h
    exact forall₂_trans (fun _ _ _ => .trans) h v.lasts_release

/-! ### The life of an order -/

/-- A complete order accepts nothing more. -/
theorem Agrees.not_step {w w' : Workset Q} {c : Call Q} (h : Agrees w)
    (complete : w.order.status = .complete) : ¬ Step w c w' := by
  intro hs
  obtain ⟨pre, a, b, post, hops, hm, -⟩ := hs.moved
  exact hm.not_complete (h.complete_iff.mp complete a (by simp [hops]))

/-- A state in the life of an order. -/
structure InLife (w : Workset Q) : Prop where
  /-- The state of the order agrees with its operations. -/
  agrees : Agrees w
  /-- Operations stay the same ones, and what is complete never changes again. -/
  lasts : ∀ events, List.Forall₂ Lasts w.operations (w.course events).operations
  /-- When the order is complete every action is refused. -/
  closed : w.order.status = .complete → ∀ id action report now,
    ∃ fault, w.apply id action report now = .error fault
  /-- What is refused changes nothing.  This is so by construction: `Workset.apply` has no
      workset to give with a refusal, and `Workset.attempt` keeps the one there was. -/
  refused : ∀ c fault, w.apply c.operationId c.action c.report c.now = .error fault →
    w.undergo (.call c) = w

theorem Agrees.inLife {w : Workset Q} (h : Agrees w) : InLife w where
  agrees := h
  lasts := w.lasts_course
  closed := by
    intro complete id action report now
    cases happly : w.apply id action report now with
    | error fault => exact ⟨fault, rfl⟩
    | ok result =>
      have hs : Step w ⟨id, action, report, now⟩ result.1 := step_of_accepts ⟨result.2, happly⟩
      exact absurd hs (h.not_step complete)
  refused := by
    intro c fault happly
    simp [undergo, attempt, happly]

/-- **The state of an order follows its operations** through every course of actions and
    releases, in whatever order its waves are.  That refused actions change nothing is built
    into `Workset.attempt`; what is proved by going through the course is the rest. -/
theorem course_inLife {w : Workset Q} (fresh : Fresh w.operations) (nonempty : w.operations ≠ [])
    (released : w.order.status = .released) (unfinished : w.order.completedAt = none)
    (events : List (Event Q)) : InLife (w.releaseActiveWave.1.course events) := by
  have begun : ProgressBegun w.operations := by
    intro op hop hs
    rw [fresh.waiting op hop] at hs
    cases hs
  have agrees := agrees_of_fresh fresh nonempty released unfinished
  have hcourse : Agrees (w.releaseActiveWave.1.course events) ∧
      ProgressBegun (w.releaseActiveWave.1.course events).operations := by
    refine course_induction (P := fun v => Agrees v ∧ ProgressBegun v.operations)
      ⟨agrees.release, progressBegun_release begun⟩ ?_ ?_ events
    · rintro v v' c ⟨ha, hp⟩ hs
      exact ⟨hs.agrees hp ha, hs.progressBegun hp⟩
    · rintro v ⟨ha, hp⟩
      exact ⟨ha.release, progressBegun_release hp⟩
  exact hcourse.1.inLife

end Workset

theorem course_inLife_bracket :
    Fresh bracketOperations ∧ bracketOperations ≠ [] ∧ bracketOrder.status = .released ∧
      bracketOrder.completedAt = none ∧
      Workset.InLife ((Workset.mk bracketOrder bracketOperations).releaseActiveWave.1.course
        [.call ⟨"B1/10", .start, .blank, .midnight .first⟩,
          .call ⟨"B1/40", .hold, .blank, .midnight .first⟩, .release,
          .call ⟨"B1/10", .complete, ⟨none, some 4, none, none, none, none⟩, .midnight .first⟩,
          .call ⟨"B1/10", .start, .blank, .midnight .first⟩]) := by
  have fresh : Fresh bracketOperations := ⟨by decide, by decide⟩
  have nonempty : bracketOperations ≠ [] := by
    intro h
    cases h
  exact ⟨fresh, nonempty, rfl, rfl,
    Workset.course_inLife (w := ⟨bracketOrder, bracketOperations⟩) fresh nonempty rfl rfl _⟩

end Workshop
