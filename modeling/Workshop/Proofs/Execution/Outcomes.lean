/-
  Workshop/Proofs/Execution/Outcomes.lean
  =======================================
  **An outcome names all that has changed.**  An action changes the operation that it is
  about and those that its outcome names as released, and no other; of the order it changes
  the state and the time of completion (`Workset.changed_of_apply`).  The times that it
  enters are those of its clock.  What it completes was done at one of the work centers
  that the outcome calls affected (`Workset.forall₂_completed`).
-/
import Workshop.Proofs.Execution.Moves
import Workshop.Proofs.Schedule.Answers
import Workshop.Proofs.Store.Keys

namespace Workshop

variable {Q : Type}

/-- What an action may make of an operation: the same one, worked on if it is named. -/
structure Operation.Worked (now : Instant) (named : String → Prop) (a b : Operation Q) :
    Prop where
  job : b.job = a.job
  unnamed : ¬ named a.operationId → b = a
  actualStart : b.actualStart = a.actualStart ∨ b.actualStart = some now
  actualEnd : b.actualEnd = a.actualEnd ∨ b.actualEnd = some now

/-- The outcome names an operation: the one that the action was about, or one released. -/
def Outcome.Names (outcome : Outcome) (operationId : String) : Prop :=
  operationId = outcome.operationId ∨ operationId ∈ outcome.releasedOperationIds

namespace Operation

variable {now : Instant} {named : String → Prop} {a b c : Operation Q}

theorem operationId_eq_of_job (h : a.job = b.job) : a.operationId = b.operationId :=
  congrArg (·.operationId) h

theorem Worked.refl (a : Operation Q) : Worked now named a a :=
  ⟨rfl, fun _ => rfl, Or.inl rfl, Or.inl rfl⟩

theorem Worked.trans {other : String → Prop} (h : Worked now named a b)
    (h' : Worked now other b c) :
    Worked now (fun id => named id ∨ other id) a c where
  job := h'.job.trans h.job
  unnamed := by
    intro hnot
    rw [not_or, ← operationId_eq_of_job h.job] at hnot
    have hb : b = a := h.unnamed (operationId_eq_of_job h.job ▸ hnot.1)
    exact (h'.unnamed hnot.2).trans hb
  actualStart := by
    rcases h'.actualStart with heq | heq
    · rw [heq]
      exact h.actualStart
    · exact Or.inr heq
  actualEnd := by
    rcases h'.actualEnd with heq | heq
    · rw [heq]
      exact h.actualEnd
    · exact Or.inr heq

theorem worked_begun (op : Operation Q) (report : Report Q) (now : Instant) :
    Worked now (· = op.operationId) op (op.begun report now) where
  job := op.begun_job report now
  unnamed := fun h => absurd rfl h
  actualStart := by
    unfold begun
    rw [addNotes_actualStart]
    split
    · exact Or.inr rfl
    · exact Or.inl rfl
  actualEnd := by
    unfold begun
    split
    · obtain ⟨text, h⟩ := addNotes_eq { op with
        status := .inProgress, actualStart := some now, startedBy := report.actor } report.notes
      rw [h]
      exact Or.inl rfl
    · obtain ⟨text, h⟩ := addNotes_eq { op with status := .inProgress } report.notes
      rw [h]
      exact Or.inl rfl

theorem worked_put (op : Operation Q) (status : OperationStatus) (report : Report Q)
    (now : Instant) : Worked now (· = op.operationId) op (op.put status report) := by
  unfold put
  obtain ⟨text, h⟩ := addNotes_eq { op with status := status } report.notes
  rw [h]
  exact ⟨rfl, fun h => absurd rfl h, Or.inl rfl, Or.inl rfl⟩

variable [Quantity Q]

theorem worked_enter (op : Operation Q) (quantity : Q) (report : Report Q) (now : Instant) :
    Worked now (· = op.operationId) op (Workset.enter op quantity report) where
  job := op.enter_job quantity report
  unnamed := fun h => absurd rfl h
  actualStart := Or.inl (op.enter_actualStart quantity report)
  actualEnd := by
    left
    unfold Workset.enter
    obtain ⟨text, h⟩ := addNotes_eq _ report.notes
    rw [h]

theorem worked_finished (op : Operation Q) (quantity : Q) (report : Report Q) (now : Instant) :
    Worked now (· = op.operationId) op (op.finished quantity report now) where
  job := op.finished_job quantity report now
  unnamed := fun h => absurd rfl h
  actualStart := Or.inl (op.finished_actualStart quantity report now)
  actualEnd := Or.inr rfl

end Operation

namespace Workset

open Operation

theorem forall₂_setOperation {R : Operation Q → Operation Q → Prop} {w : Workset Q}
    {id : String} {op new : Operation Q} (located : w.operation? id = some op)
    (refl : ∀ a, R a a) (h : R op new) :
    List.Forall₂ R w.operations (w.setOperation id new).operations := by
  obtain ⟨pre, post, hops, hset⟩ := exists_split located
  rw [hops, hset]
  have hsame : ∀ ops : List (Operation Q), List.Forall₂ R ops ops :=
    fun ops => List.forall₂_same.mpr fun a _ => refl a
  exact List.rel_append (hsame pre) (.cons h (hsame post))

/-- The operations that a release makes ready are those that it names. -/
theorem forall₂_release (w : Workset Q) (now : Instant) :
    List.Forall₂ (Worked now (· ∈ w.releaseActiveWave.2)) w.operations
      w.releaseActiveWave.1.operations := by
  unfold releaseActiveWave
  split
  · exact List.forall₂_same.mpr fun a _ => .refl a
  · refine forall₂_map_self fun a ha => ?_
    split
    · rename_i hwaits
      refine ⟨rfl, fun hnot => absurd ?_ hnot, Or.inl rfl, Or.inl rfl⟩
      exact List.mem_map_of_mem (List.mem_filter.mpr ⟨ha, hwaits⟩)
    · exact .refl a

theorem forall₂_settle (w : Workset Q) (key : String) (now : Instant) :
    List.Forall₂ (Worked now (· ∈ (w.settle key now).2.1)) w.operations
      (w.settle key now).1.operations := by
  have hsame : ∀ ops : List (Operation Q),
      List.Forall₂ (Worked now (· ∈ ([] : List String))) ops ops :=
    fun ops => List.forall₂_same.mpr fun a _ => .refl a
  unfold settle
  dsimp only
  split
  · exact hsame _
  · split
    · exact w.forall₂_release now
    · exact hsame _

/-- What an action changes, and what its outcome says of it. -/
structure Changed (now : Instant) (outcome : Outcome) (w w' : Workset Q) : Prop where
  operations : List.Forall₂ (Worked now outcome.Names) w.operations w'.operations
  order : w'.order =
    { w.order with status := w'.order.status, completedAt := w'.order.completedAt }
  completedAt : w'.order.completedAt = w.order.completedAt ∨ w'.order.completedAt = some now

theorem Changed.operationIds {now : Instant} {outcome : Outcome} {w w' : Workset Q}
    (h : Changed now outcome w w') :
    w'.operations.map (·.operationId) = w.operations.map (·.operationId) := by
  rw [← List.forall₂_eq_eq_eq, List.forall₂_map_left_iff, List.forall₂_map_right_iff]
  exact h.operations.flip.imp fun b a hworked => operationId_eq_of_job hworked.job

theorem operationId_of_located {w : Workset Q} {id : String} {op : Operation Q}
    (located : w.operation? id = some op) : op.operationId = id := by
  simpa using List.find?_some located

/-- An action that works on one operation alone. -/
theorem changed_of_set {w : Workset Q} {id : String} {op new : Operation Q} {now : Instant}
    {outcome : Outcome} (located : w.operation? id = some op)
    (worked : Worked now (· = op.operationId) op new) (names : outcome.operationId = id) :
    Changed now outcome w (w.setOperation id new) where
  operations := by
    refine forall₂_setOperation located (fun a => .refl a) ?_
    rw [operationId_of_located located] at worked
    refine ⟨worked.job, fun hnot => worked.unnamed ?_, worked.actualStart, worked.actualEnd⟩
    exact fun h => hnot (Or.inl (h.trans names.symm))
  order := rfl
  completedAt := Or.inl rfl

theorem changed_underWay {w w' : Workset Q} {now : Instant} {outcome : Outcome}
    (h : Changed now outcome w w') : Changed now outcome w w'.underWay := by
  unfold underWay
  split
  · refine ⟨h.operations, ?_, h.completedAt⟩
    dsimp only
    rw [h.order]
  · exact h

theorem changed_settle {w v : Workset Q} {key : String} {now : Instant} {outcome : Outcome}
    {named : String → Prop} (operations : List.Forall₂ (Worked now named) w.operations v.operations)
    (order : v.order = w.order) (names : ∀ id, named id → id = outcome.operationId)
    (released : outcome.releasedOperationIds = (v.settle key now).2.1) :
    Changed now outcome w (v.settle key now).1 where
  operations := by
    refine forall₂_trans ?_ operations (v.forall₂_settle key now)
    intro a b c hab hbc
    have h := hab.trans hbc
    refine ⟨h.job, fun hnot => h.unnamed fun hnamed => hnot ?_, h.actualStart, h.actualEnd⟩
    rcases hnamed with hnamed | hnamed
    · exact Or.inl (names _ hnamed)
    · exact Or.inr (released ▸ hnamed)
  order := by
    rcases v.settle_cases key now with ⟨-, h⟩ | ⟨-, -, h⟩ | ⟨-, h⟩
    · rw [h, order]
    · rw [h, release_order, order]
    · rw [h, order]
  completedAt := by
    rcases v.settle_cases key now with ⟨-, h⟩ | ⟨-, -, h⟩ | ⟨-, h⟩
    · rw [h]
      exact Or.inr rfl
    · rw [h, release_order, order]
      exact Or.inl rfl
    · rw [h, order]
      exact Or.inl rfl

/-- How an accepted action goes: it works on one operation that it does not complete, or it
    completes one and settles the workset. -/
inductive Acted (w : Workset Q) (id : String) (now : Instant) : Workset Q → Outcome → Prop
  | alone {op new : Operation Q} {w' : Workset Q} {outcome : Outcome}
      (located : w.operation? id = some op)
      (worked : Worked now (· = op.operationId) op new)
      (before : op.status ≠ .complete) (after : new.status ≠ .complete)
      (result : w' = w.setOperation id new ∨ w' = (w.setOperation id new).underWay)
      (names : outcome.operationId = id) (released : outcome.releasedOperationIds = []) :
      Acted w id now w' outcome
  | finished {op done : Operation Q} {outcome : Outcome}
      (located : w.operation? id = some op)
      (worked : Worked now (· = op.operationId) op done)
      (before : op.status ≠ .complete) (after : done.status = .complete)
      (names : outcome.operationId = id)
      (released : outcome.releasedOperationIds =
        ((w.setOperation id done).settle op.groupKey now).2.1)
      (centers : op.workCenterId ∈ outcome.affectedWorkCenters) :
      Acted w id now ((w.setOperation id done).settle op.groupKey now).1 outcome

theorem acted_of_start {w w' : Workset Q} {id : String} {report : Report Q} {now : Instant}
    {outcome : Outcome} (h : w.start id report now = .ok (w', outcome)) :
    Acted w id now w' outcome := by
  obtain ⟨op, located, h⟩ := bind_eq_ok_iff.mp h
  obtain ⟨_, -, h⟩ := bind_eq_ok_iff.mp h
  obtain ⟨next, after, h⟩ := bind_eq_ok_iff.mp h
  rw [locate_eq_ok_iff] at located
  rw [after_eq_ok_iff, after?_start_iff] at after
  obtain ⟨waits, rfl⟩ := after
  dsimp only at h
  split at h
  · split at h <;> cases h
  · obtain ⟨rfl, rfl⟩ := Prod.mk.inj (Except.ok.inj h)
    refine .alone located (op.worked_begun report now) ?_ (by simp) (Or.inr rfl) rfl rfl
    rcases waits with h | h <;> simp [h]

theorem acted_of_hold {w w' : Workset Q} {id : String} {report : Report Q} {now : Instant}
    {outcome : Outcome} (h : w.hold id report = .ok (w', outcome)) :
    Acted w id now w' outcome := by
  obtain ⟨op, located, h⟩ := bind_eq_ok_iff.mp h
  obtain ⟨next, after, h⟩ := bind_eq_ok_iff.mp h
  rw [locate_eq_ok_iff] at located
  rw [after_eq_ok_iff, after?_hold_iff] at after
  obtain ⟨open_, rfl⟩ := after
  obtain ⟨rfl, rfl⟩ := Prod.mk.inj (Except.ok.inj h)
  refine .alone located (op.worked_put .onHold report now) ?_ (by simp) (Or.inl rfl) rfl rfl
  rcases open_ with h | h | h <;> simp [h]

theorem acted_of_resume {w w' : Workset Q} {id : String} {report : Report Q} {now : Instant}
    {outcome : Outcome} (h : w.resume id report = .ok (w', outcome)) :
    Acted w id now w' outcome := by
  obtain ⟨op, located, h⟩ := bind_eq_ok_iff.mp h
  obtain ⟨next, after, h⟩ := bind_eq_ok_iff.mp h
  rw [locate_eq_ok_iff] at located
  rw [after_eq_ok_iff, after?_resume_iff] at after
  obtain ⟨rfl, rfl⟩ := Prod.mk.inj (Except.ok.inj h)
  exact .alone located (op.worked_put (w.resumed op) report now) (by simp [after.1]) (by simp)
    (Or.inl rfl) rfl rfl

theorem mem_release_names {w : Workset Q} {id : String} (h : id ∈ w.releaseActiveWave.2) :
    ∃ op ∈ w.operations, op.operationId = id ∧ op.status = .pending := by
  unfold releaseActiveWave at h
  split at h
  · cases h
  · obtain ⟨op, hop, rfl⟩ := List.mem_map.mp h
    rw [List.mem_filter, awaits, Bool.and_eq_true, beq_iff_eq, beq_iff_eq] at hop
    exact ⟨op, hop.1, rfl, hop.2.2⟩

/-- The operations that a settlement names waited before. -/
theorem mem_settle_names {w : Workset Q} {key id : String} {now : Instant}
    (h : id ∈ (w.settle key now).2.1) :
    ∃ op ∈ w.operations, op.operationId = id ∧ op.status = .pending := by
  unfold settle at h
  dsimp only at h
  split at h
  · cases h
  · split at h
    · exact mem_release_names h
    · cases h

/-- What is complete after a settlement was so before. -/
theorem forall₂_settle_complete (w : Workset Q) (key : String) (now : Instant) :
    List.Forall₂ (fun a b => b.status = .complete → a.status = .complete) w.operations
      (w.settle key now).1.operations := by
  have hsame : List.Forall₂ (fun a b : Operation Q => b.status = .complete → a.status = .complete)
      w.operations w.operations := List.forall₂_same.mpr fun _ _ h => h
  rcases w.settle_operations key now with h | h
  · rw [h]
    exact hsame
  · rw [h]
    cases hkey : w.waves.activeWave with
    | none =>
      rw [release_eq_self hkey]
      exact hsame
    | some wave =>
      rw [release_operations hkey]
      refine forall₂_map_self fun a _ hb => ?_
      unfold Operation.released at hb
      split at hb
      · cases hb
      · exact hb

variable [Quantity Q]

theorem acted_of_complete {w w' : Workset Q} {id : String} {report : Report Q}
    {now : Instant} {outcome : Outcome} (h : w.complete id report now = .ok (w', outcome)) :
    Acted w id now w' outcome := by
  obtain ⟨op, located, h⟩ := bind_eq_ok_iff.mp h
  obtain ⟨_, -, h⟩ := bind_eq_ok_iff.mp h
  obtain ⟨quantity, -, h⟩ := bind_eq_ok_iff.mp h
  obtain ⟨next, after, h⟩ := bind_eq_ok_iff.mp h
  rw [locate_eq_ok_iff] at located
  rw [after_eq_ok_iff, after?_complete_iff] at after
  have busy : op.status ≠ .complete := by simp [after.1]
  dsimp only at h
  split at h
  · obtain ⟨rfl, rfl⟩ := Prod.mk.inj (Except.ok.inj h)
    exact .alone located (op.worked_enter quantity report now) busy (by simp [after.1])
      (Or.inl rfl) rfl rfl
  · obtain ⟨rfl, rfl⟩ := Prod.mk.inj (Except.ok.inj h)
    exact .finished located (op.worked_finished quantity report now) busy rfl rfl rfl
      (Text.mem_ascending.mpr List.mem_cons_self)

theorem acted_of_apply {w w' : Workset Q} {id : String} {action : Action}
    {report : Report Q} {now : Instant} {outcome : Outcome}
    (h : w.apply id action report now = .ok (w', outcome)) : Acted w id now w' outcome := by
  cases action with
  | start => exact acted_of_start h
  | complete => exact acted_of_complete h
  | hold => exact acted_of_hold h
  | resume => exact acted_of_resume h

theorem changed_of_apply {w w' : Workset Q} {id : String} {action : Action}
    {report : Report Q} {now : Instant} {outcome : Outcome}
    (h : w.apply id action report now = .ok (w', outcome)) : Changed now outcome w w' := by
  cases acted_of_apply h with
  | alone located worked before after result names released =>
    have hchanged := changed_of_set located worked names
    rcases result with rfl | rfl
    · exact hchanged
    · exact changed_underWay hchanged
  | @finished op done _ located worked before after names released centers =>
    refine changed_settle (v := w.setOperation id done) ?_ rfl (fun _ h => h) released
    refine forall₂_setOperation located (fun a => .refl a) ?_
    rw [names, ← operationId_of_located located]
    exact worked

/-! ### Operations that become complete -/

/-- No operation that an outcome names was complete before. -/
theorem status_of_named {w w' : Workset Q} {id : String} {action : Action}
    {report : Report Q} {now : Instant} {outcome : Outcome}
    (h : w.apply id action report now = .ok (w', outcome))
    (distinct : (w.operations.map (·.operationId)).Nodup) {a : Operation Q}
    (ha : a ∈ w.operations) (named : outcome.Names a.operationId) : a.status ≠ .complete := by
  have same : ∀ b ∈ w.operations, a.operationId = b.operationId → a = b :=
    fun _ hb => List.inj_on_of_nodup_map distinct ha hb
  have acted : ∀ {op}, w.operation? id = some op → op.status ≠ .complete →
      a.operationId = id → a.status ≠ .complete := by
    intro op located before hid
    obtain rfl := same op (List.mem_of_find?_eq_some located)
      (hid.trans (operationId_of_located located).symm)
    exact before
  cases acted_of_apply h with
  | alone located worked before after result names released =>
    rcases named with hid | hid
    · exact acted located before (hid.trans names)
    · rw [released] at hid
      cases hid
  | @finished op done _ located worked before after names released centers =>
    rcases named with hid | hid
    · exact acted located before (hid.trans names)
    · rw [released] at hid
      obtain ⟨x, hx, hxid, hpending⟩ := mem_settle_names hid
      obtain ⟨pre, post, hops, hset⟩ := exists_split located
      have hold : x ∈ w.operations := by
        rw [hset] at hx
        rcases List.mem_append.mp hx with hx | hx
        · exact hops ▸ List.mem_append_left _ hx
        · rcases List.mem_cons.mp hx with rfl | hx
          · rw [after] at hpending
            cases hpending
          · exact hops ▸ List.mem_append_right _ (List.mem_cons_of_mem _ hx)
      rw [same x hold hxid.symm, hpending]
      nofun

/-- An operation that an action completes is one at an affected work center. -/
theorem forall₂_completed {w w' : Workset Q} {id : String} {action : Action}
    {report : Report Q} {now : Instant} {outcome : Outcome}
    (h : w.apply id action report now = .ok (w', outcome)) :
    List.Forall₂ (fun a b => b.status = .complete →
      a.status = .complete ∨ a.workCenterId ∈ outcome.affectedWorkCenters)
      w.operations w'.operations := by
  cases acted_of_apply h with
  | @alone op new _ _ located worked before after result names released =>
    have hset : List.Forall₂ (fun a b => b.status = .complete →
        a.status = .complete ∨ a.workCenterId ∈ outcome.affectedWorkCenters)
        w.operations (w.setOperation id new).operations :=
      forall₂_setOperation located (fun a ha => Or.inl ha) fun hnew => absurd hnew after
    rcases result with rfl | rfl
    · exact hset
    · rw [underWay_operations]
      exact hset
  | @finished op done _ located worked before after names released centers =>
    have hset : List.Forall₂ (fun a b => b.status = .complete →
        a.status = .complete ∨ a.workCenterId ∈ outcome.affectedWorkCenters)
        w.operations (w.setOperation id done).operations :=
      forall₂_setOperation located (fun a ha => Or.inl ha) fun _ => Or.inr centers
    refine forall₂_trans ?_ hset (forall₂_settle_complete _ op.groupKey now)
    exact fun a b c hab hbc hc => hab (hbc hc)

end Workset

end Workshop
