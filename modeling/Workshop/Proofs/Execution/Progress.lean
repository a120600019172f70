/-
  Workshop/Proofs/Execution/Progress.lean
  =======================================
  **Whether production can always go on.**  While an order is not complete and nothing is
  on hold, something ought to be open: a ready operation that may start, or one in
  progress that may be completed with the ordered quantity (`CanAdvance`).

  Where the operations of a wave follow one another, the order of waves always leaves
  something open (`neverWedges_of_wavesContiguous`).  The operations of a released order
  are those of its drafts (`releasedWorkset`), and a ready one can be worked off by two
  calls (`Lined.work`).
-/
import Workshop.Execution.Production
import Workshop.Proofs.Execution.WaveOrder
import Workshop.Proofs.Explosion.Shape
import Workshop.Proofs.Quantity.Ordered

namespace Workshop

variable {Q : Type}

/-- A report that a quantity has been made, and nothing else. -/
def Report.made (quantity : Q) : Report Q := ⟨none, some quantity, none, none, none, none⟩

namespace Workset

/-! ### Identifiers -/

/-- The identifiers of the operations are distinct. -/
def DistinctIds (w : Workset Q) : Prop := (w.operations.map (·.operationId)).Nodup

theorem DistinctIds.of_map_job {w w' : Workset Q} (distinct : w.DistinctIds)
    (h : w'.operations.map Operation.job = w.operations.map Operation.job) :
    w'.DistinctIds := by
  have ids (v : Workset Q) : v.operations.map (·.operationId) =
      (v.operations.map Operation.job).map (·.operationId) := by
    rw [List.map_map]
    rfl
  unfold DistinctIds
  rw [ids w', h, ← ids w]
  exact distinct

theorem DistinctIds.ne_of_other {w : Workset Q} (distinct : w.DistinctIds)
    {pre post : List (Operation Q)} {op : Operation Q} (hops : w.operations = pre ++ op :: post) :
    ∀ x ∈ pre ++ post, x.operationId ≠ op.operationId := by
  intro x hx heq
  unfold DistinctIds at distinct
  rw [hops, List.map_append, List.map_cons, List.nodup_middle, List.nodup_cons,
    ← List.map_append] at distinct
  exact distinct.1 (heq ▸ List.mem_map_of_mem hx)

theorem DistinctIds.ne_of_middle {w : Workset Q} (distinct : w.DistinctIds)
    {pre post : List (Operation Q)} {op : Operation Q} (hops : w.operations = pre ++ op :: post) :
    ∀ x ∈ pre, x.operationId ≠ op.operationId :=
  fun x hx => distinct.ne_of_other hops x (List.mem_append_left post hx)

theorem operation?_middle {w : Workset Q} (distinct : w.DistinctIds)
    {pre post : List (Operation Q)} {op : Operation Q} (hops : w.operations = pre ++ op :: post) :
    w.operation? op.operationId = some op := by
  unfold operation?
  rw [hops, List.find?_append, List.find?_cons_of_pos (by simp)]
  have hpre : pre.find? (·.operationId == op.operationId) = none := by
    rw [List.find?_eq_none]
    intro x hx
    simpa using distinct.ne_of_middle hops x hx
  rw [hpre]
  rfl

theorem operation?_of_mem {w : Workset Q} (distinct : w.DistinctIds) {op : Operation Q}
    (hop : op ∈ w.operations) : w.operation? op.operationId = some op := by
  obtain ⟨pre, post, hops⟩ := List.append_of_mem hop
  exact operation?_middle distinct hops

theorem setOperation_middle {w : Workset Q} (distinct : w.DistinctIds)
    {pre post : List (Operation Q)} {op : Operation Q} (hops : w.operations = pre ++ op :: post)
    (new : Operation Q) :
    (w.setOperation op.operationId new).operations = pre ++ new :: post := by
  unfold setOperation
  simp only [hops]
  exact replaceFirst_middle (distinct.ne_of_middle hops)

/-! ### The order along a run -/

/-- The order is complete, or it is being worked on and something is left to do. -/
def Running (w : Workset Q) : Prop :=
  w.order.status = .complete ∨
    w.order.status.isSchedulable = true ∧ ∃ op ∈ w.operations, op.status ≠ .complete

@[simp] theorem setOperation_order (w : Workset Q) (id : String) (new : Operation Q) :
    (w.setOperation id new).order = w.order := rfl

@[simp] theorem underWay_quantityOrdered (w : Workset Q) :
    w.underWay.order.quantityOrdered = w.order.quantityOrdered := by
  unfold underWay
  split <;> rfl

theorem underWay_isSchedulable {w : Workset Q} (active : w.order.status.isSchedulable = true) :
    w.underWay.order.status.isSchedulable = true := by
  unfold underWay
  split
  · rfl
  · exact active

theorem settle_quantityOrdered (w : Workset Q) (key : String) (now : Instant) :
    (w.settle key now).1.order.quantityOrdered = w.order.quantityOrdered := by
  rcases w.settle_cases key now with ⟨-, h⟩ | ⟨-, -, h⟩ | ⟨-, h⟩ <;> simp [h]

theorem running_settle {w : Workset Q} (active : w.order.status.isSchedulable = true)
    (key : String) (now : Instant) : (w.settle key now).1.Running := by
  rcases w.settle_cases key now with ⟨-, h⟩ | ⟨⟨op, hop, hc⟩, -, h⟩ | ⟨⟨op, hop, -, hc⟩, h⟩
  · rw [h]
    exact Or.inl rfl
  · rw [h]
    obtain ⟨x, hx, -, hxc⟩ := exists_mem_release hop
    exact Or.inr ⟨by rwa [release_order], x, hx, hxc hc⟩
  · rw [h]
    exact Or.inr ⟨active, op, hop, hc⟩

/-- A change of one operation that does not complete it leaves something to do. -/
theorem running_setOperation {w : Workset Q} (running : w.Running) {id : String}
    {op new : Operation Q} (located : w.operation? id = some op) (hc : new.status ≠ .complete) :
    (w.setOperation id new).Running := by
  obtain ⟨pre, post, hops, hset⟩ := exists_split located
  rcases running with h | ⟨active, -⟩
  · exact Or.inl h
  · refine Or.inr ⟨active, new, ?_, hc⟩
    rw [hset]
    simp

variable [Quantity Q]

/-- The order is for a finite, positive quantity. -/
def PositiveOrder (w : Workset Q) : Prop :=
  Quantity.isFinite w.order.quantityOrdered = true ∧ ¬ w.order.quantityOrdered ≤ Quantity.zero

theorem PositiveOrder.of_eq {w w' : Workset Q} (positive : w.PositiveOrder)
    (h : w'.order.quantityOrdered = w.order.quantityOrdered) : w'.PositiveOrder := by
  unfold PositiveOrder
  rw [h]
  exact positive

theorem Step.quantityOrdered {w w' : Workset Q} {c : Call Q} (h : Step w c w') :
    w'.order.quantityOrdered = w.order.quantityOrdered := by
  cases h with
  | start located active waits wave => rw [underWay_quantityOrdered, setOperation_order]
  | enter located active checked busy part => rfl
  | finish located active checked busy whole => rw [settle_quantityOrdered, setOperation_order]
  | hold located open_ => rfl
  | resume located held => rfl

theorem Step.running {w w' : Workset Q} {c : Call Q} (h : Step w c w') (running : w.Running) :
    w'.Running := by
  cases h with
  | @start id report now op located active waits wave =>
    have hr : (w.setOperation id (op.begun report now)).Running :=
      running_setOperation running located (by simp)
    rcases hr with hr | ⟨-, x, hx, hc⟩
    · rw [setOperation_order] at hr
      rw [hr] at active
      cases active
    · refine Or.inr ⟨underWay_isSchedulable active, x, ?_, hc⟩
      rwa [underWay_operations]
  | enter located active checked busy part =>
    exact running_setOperation running located (by simp [busy])
  | finish located active checked busy whole =>
    apply running_settle
    exact active
  | hold located open_ => exact running_setOperation running located (by simp)
  | resume located held => exact running_setOperation running located (by simp)

theorem quantityOrdered_run (w : Workset Q) (calls : List (Call Q)) :
    (w.run calls).order.quantityOrdered = w.order.quantityOrdered :=
  run_induction (P := fun v => v.order.quantityOrdered = w.order.quantityOrdered) rfl
    (fun ih h => h.quantityOrdered.trans ih) calls

theorem running_run {w : Workset Q} (running : w.Running) (calls : List (Call Q)) :
    (w.run calls).Running :=
  run_induction (P := Running) running (fun ih h => h.running ih) calls

/-! ### Operations in line -/

variable {w : Workset Q} {done rest : List (Operation Q)} {a : Operation Q}

/-- An order that is being worked on: what is done is complete, and what remains stands in
    the order of the sequence numbers. -/
structure Lined (w : Workset Q) (done rest : List (Operation Q)) : Prop where
  operations : w.operations = done ++ rest
  done_complete : ∀ op ∈ done, op.status = .complete
  sorted : rest.Pairwise fun x y => x.sequence < y.sequence
  distinct : w.DistinctIds
  positive : w.PositiveOrder
  active : w.order.status.isSchedulable = true

namespace Lined

theorem mem (h : Lined w done rest) {op : Operation Q} (hop : op ∈ rest) : op ∈ w.operations := by
  rw [h.operations]
  exact List.mem_append_right _ hop

theorem activeWave (h : Lined w done (a :: rest)) (hc : a.status ≠ .complete) :
    w.waves.activeWave = some a.groupKey := by
  unfold waves
  rw [h.operations]
  exact WaveIndex.activeWave_of_sorted h.done_complete hc h.sorted

/-- What remains may change, as long as the jobs are the same. -/
theorem replace {v : Workset Q} {rest' : List (Operation Q)} (h : Lined w done rest)
    (hops : v.operations = done ++ rest')
    (hjob : rest'.map Operation.job = rest.map Operation.job) (horder : v.order = w.order) :
    Lined v done rest' := by
  constructor
  case operations => exact hops
  case done_complete => exact h.done_complete
  case sorted =>
    have sequences (ops : List (Operation Q)) : ops.map (·.sequence) =
        (ops.map Operation.job).map (·.plan.sequence) := by
      rw [List.map_map]
      rfl
    have hsorted := List.pairwise_map.mpr h.sorted
    rw [sequences, ← hjob, ← sequences] at hsorted
    exact List.pairwise_map.mp hsorted
  case distinct => exact h.distinct.of_map_job (by simp [hops, h.operations, hjob])
  case positive => exact h.positive.of_eq (by rw [horder])
  case active => rw [horder]; exact h.active

theorem release (h : Lined w done rest) {key : String} (hkey : w.waves.activeWave = some key) :
    Lined w.releaseActiveWave.1 done (rest.map (Operation.released key)) := by
  refine h.replace ?_ (by simp) (release_order w)
  rw [release_operations hkey, h.operations, List.map_append,
    map_released_of_complete h.done_complete]

end Lined

/-! ### Calls that move production on -/

/-- Some operation may go on: a ready one is allowed to start, or one in progress is
    allowed to be completed with the ordered quantity. -/
def CanAdvance (w : Workset Q) : Prop :=
  ∃ op ∈ w.operations, ∃ (report : Report Q) (now : Instant) (w' : Workset Q),
    (op.status = .ready ∧ w.Accepts ⟨op.operationId, .start, report, now⟩ w') ∨
    (op.status = .inProgress ∧ report.quantityComplete = some w.order.quantityOrdered ∧
      w.Accepts ⟨op.operationId, .complete, report, now⟩ w')

/-- No run leads to a state in which production is stuck. -/
def NeverWedges (w : Workset Q) : Prop :=
  ∀ calls : List (Call Q), (w.run calls).order.status ≠ .complete →
    (∀ op ∈ (w.run calls).operations, op.status ≠ .onHold) → (w.run calls).CanAdvance

theorem NeverWedges.run {w : Workset Q} (h : w.NeverWedges) (calls : List (Call Q)) :
    (w.run calls).NeverWedges := by
  intro more
  rw [← run_append]
  exact h (calls ++ more)

variable [Quantity.Ordered Q]

theorem checkReport_made {w : Workset Q} (positive : w.PositiveOrder) :
    w.checkReport (.made w.order.quantityOrdered) = .ok w.order.quantityOrdered := by
  have hfin : ¬ Quantity.isFinite w.order.quantityOrdered = false := by simp [positive.1]
  have hneg := Quantity.not_lt_of_not_le positive.2
  have hself := Quantity.Ordered.lt_irrefl w.order.quantityOrdered
  simp only [checkReport, Report.made, validateQuantity, validateReported, if_neg hfin,
    if_neg hneg, if_neg hself]
  rfl

/-- A ready operation at the head of the line can be worked off by a start and a
    completion. -/
theorem Lined.work {done rest : List (Operation Q)} {a : Operation Q}
    (h : Lined w done (a :: rest)) (ready : a.status = .ready) :
    ∃ (calls : List (Call Q)) (v : Workset Q) (a' : Operation Q),
      w.run calls = (v.settle a.groupKey (.midnight .first)).1 ∧ Lined v (done ++ [a']) rest := by
  let now : Instant := .midnight .first
  let begun := a.begun .blank now
  have first : w.Step ⟨a.operationId, .start, .blank, now⟩
      (w.setOperation a.operationId begun).underWay :=
    .start (operation?_middle h.distinct h.operations) h.active (Or.inl ready)
      (h.activeWave (by simp [ready]))
  generalize hw1 : (w.setOperation a.operationId begun).underWay = w1 at first
  have hops1 : w1.operations = done ++ begun :: rest := by
    rw [← hw1, underWay_operations]
    exact setOperation_middle h.distinct h.operations begun
  have distinct1 := h.distinct.of_map_job first.map_job
  have positive1 := h.positive.of_eq first.quantityOrdered
  have active1 : w1.order.status.isSchedulable = true := by
    rw [← hw1]
    exact underWay_isSchedulable h.active
  have located1 := operation?_middle distinct1 hops1
  let finished := begun.finished w1.order.quantityOrdered (.made w1.order.quantityOrdered) now
  have second : w1.Step ⟨begun.operationId, .complete, .made w1.order.quantityOrdered, now⟩
      ((w1.setOperation begun.operationId finished).settle begun.groupKey now).1 :=
    .finish located1 active1 (checkReport_made positive1) (a.begun_status .blank now)
      (Quantity.Ordered.lt_irrefl _)
  have hrun := run_pair_of_steps first second
  rw [Operation.groupKey_eq_of_job (a.begun_job .blank now)] at hrun
  refine ⟨_, w1.setOperation begun.operationId finished, finished, hrun, ?_⟩
  constructor
  case operations => rw [setOperation_middle distinct1 hops1 finished, List.append_assoc]; rfl
  case done_complete =>
    intro op hop
    rcases List.mem_append.mp hop with hop | hop
    · exact h.done_complete op hop
    · rw [List.mem_singleton.mp hop]
      rfl
  case sorted => exact h.sorted.of_cons
  case distinct =>
    exact distinct1.of_map_job (map_job_setOperation located1 (begun.finished_job _ _ now))
  case positive => exact positive1
  case active => exact active1

theorem canAdvance_of_inWaveOrder {w : Workset Q} (distinct : w.DistinctIds)
    (positive : w.PositiveOrder) (running : w.Running) (inOrder : InWaveOrder w)
    (unfinished : w.order.status ≠ .complete)
    (unheld : ∀ op ∈ w.operations, op.status ≠ .onHold) : w.CanAdvance := by
  rcases running with h | ⟨active, x, hx, hxc⟩
  · exact absurd h unfinished
  obtain ⟨key, hkey⟩ := WaveIndex.exists_activeWave hx hxc
  obtain ⟨op, hop, hk, hc⟩ := inOrder.undone key hkey
  subst hk
  have located := operation?_of_mem distinct hop
  refine ⟨op, hop, .made w.order.quantityOrdered, .midnight .first, ?_⟩
  rcases inOrder.active op hop hkey with h | h | h | h
  · exact ⟨_, Or.inl ⟨h, accepts_of_step (.start located active (Or.inl h) hkey)⟩⟩
  · exact ⟨_, Or.inr ⟨h, rfl, accepts_of_step (.finish located active (checkReport_made positive)
      h (Quantity.Ordered.lt_irrefl _))⟩⟩
  · exact absurd h (unheld op hop)
  · exact absurd h hc

theorem neverWedges_of_wavesContiguous {v : Workset Q} (fresh : Fresh v.operations)
    (apart : WavesApart (plans v.operations)) (contiguous : WavesContiguous (plans v.operations))
    (distinct : v.DistinctIds) (positive : v.PositiveOrder)
    (active : v.order.status.isSchedulable = true) (nonempty : v.operations ≠ []) :
    v.releaseActiveWave.1.NeverWedges := by
  intro calls
  have hjob := (v.releaseActiveWave.1.map_job_run calls).trans v.map_job_release
  have hquantity : (v.releaseActiveWave.1.run calls).order.quantityOrdered =
      v.order.quantityOrdered := by
    rw [quantityOrdered_run, release_order]
  have running : v.releaseActiveWave.1.Running := by
    obtain ⟨op, hop⟩ := List.exists_mem_of_ne_nil _ nonempty
    obtain ⟨x, hx, -, hxc⟩ := exists_mem_release hop
    refine Or.inr ⟨by rwa [release_order], x, hx, hxc ?_⟩
    simp [fresh.waiting op hop]
  exact canAdvance_of_inWaveOrder (distinct.of_map_job hjob) (positive.of_eq hquantity)
    (running_run running calls) (inWaveOrder_of_fresh fresh apart contiguous calls)

end Workset

/-! ### Released orders -/

variable [Quantity Q]

/-- A released order with the operations of its drafts, before the first wave is
    released. -/
def releasedWorkset (order : Order Q) (drafts : List (Draft Q)) (identify : Draft Q → String) :
    Workset Q :=
  ⟨{ order with status := .released },
    drafts.map fun d => d.toOperation order.orderId (identify d)⟩

theorem firstWave_eq (order : Order Q) {drafts : List (Draft Q)} (identify : Draft Q → String)
    (sorted : drafts.Pairwise fun a b => a.sequence < b.sequence) :
    Production.firstWave { order with status := .released } drafts identify =
      (releasedWorkset order drafts identify).releaseActiveWave.1 := by
  unfold Production.firstWave Workset.ofOperations releasedWorkset
  simp only
  rw [List.mergeSort_of_pairwise]
  refine List.pairwise_map.mpr (sorted.imp fun h => ?_)
  exact decide_eq_true (Int.le_of_lt h)

theorem plans_releasedWorkset (order : Order Q) (drafts : List (Draft Q))
    (identify : Draft Q → String) :
    plans (releasedWorkset order drafts identify).operations = drafts := by
  unfold plans releasedWorkset
  rw [List.map_map]
  exact List.map_id drafts

theorem fresh_releasedWorkset (order : Order Q) (drafts : List (Draft Q))
    (identify : Draft Q → String) : Fresh (releasedWorkset order drafts identify).operations := by
  constructor <;> simp [releasedWorkset, Draft.toOperation]

theorem distinctIds_releasedWorkset (order : Order Q) {drafts : List (Draft Q)}
    {identify : Draft Q → String} (distinct : (drafts.map identify).Nodup) :
    (releasedWorkset order drafts identify).DistinctIds := by
  unfold Workset.DistinctIds releasedWorkset
  rw [List.map_map]
  exact distinct

/-- All operations of a released order remain to be done. -/
theorem lined_releasedWorkset {settings : ExplosionSettings} {source : MasterSource Q}
    {order : Order Q} {drafts : List (Draft Q)} {identify : Draft Q → String}
    (exploded : explode settings source order = .ok drafts)
    (distinct : (drafts.map identify).Nodup) :
    (releasedWorkset order drafts identify).Lined []
      (releasedWorkset order drafts identify).operations := by
  constructor
  case operations => rfl
  case done_complete => simp
  case sorted => exact List.pairwise_map.mpr (explode_sorted exploded)
  case distinct => exact distinctIds_releasedWorkset order distinct
  case positive => exact explode_quantity exploded
  case active => rfl

end Workshop
