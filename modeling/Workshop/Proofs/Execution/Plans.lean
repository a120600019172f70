/-
  Workshop/Proofs/Execution/Plans.lean
  ====================================
  **Plans and their writes.**  A run that reads a store which keeps its keys names each of
  its candidates once, and places only operations without dates of the orders that it is
  about (`Store.plans_of_planSchedule`).  Its write keeps the placements for which a row is
  open and rejects the others (`Store.mem_commit_iff`).

  Whatever else happens in a scheduling run, orders stay as they are, and so do the
  operations of orders that it is not about (`ScheduleRan.rows`).
-/
import Workshop.Proofs.Execution.Transactions
import Workshop.Proofs.Schedule.Answers
import Workshop.Proofs.Schedule.Replay
import Workshop.Proofs.Store.GuardedDates
import Workshop.Proofs.Store.Reading

namespace Workshop

variable {Q : Type}

/-! ### What a write does -/

namespace Store

variable {s : Store Q} {plan : ScheduleResult Q}

theorem commit_fst (s : Store Q) (plan : ScheduleResult Q) :
    (s.commitSchedule plan).1 =
      { s with operations := s.operations.map (s.placeRow plan.scheduled) } :=
  s.writeSchedule_fst plan.scheduled

/-- The operations whose placements come too late. -/
def rejected (s : Store Q) (plan : ScheduleResult Q) : List String :=
  (plan.scheduled.filter fun p => !s.operations.any (s.isOpen p.operationId)).map (·.operationId)

theorem commit_snd (distinct : (plan.scheduled.map (·.operationId)).Nodup) :
    (s.commitSchedule plan).2 = plan.withLost (rejected s plan) :=
  congrArg plan.withLost (s.writeSchedule_snd plan.scheduled distinct)

theorem mem_rejected_iff {p : Placement Q} (hp : p ∈ plan.scheduled) :
    p.operationId ∈ rejected s plan ↔ ∀ r ∈ s.operations, s.isOpen p.operationId r = false := by
  rw [rejected, List.mem_map]
  constructor
  · rintro ⟨q, hq, hid⟩ r hr
    rw [List.mem_filter, Bool.not_eq_true', List.any_eq_false] at hq
    rw [← hid]
    exact Bool.not_eq_true _ ▸ hq.2 r hr
  · intro h
    refine ⟨p, List.mem_filter.mpr ⟨hp, ?_⟩, rfl⟩
    rw [Bool.not_eq_true', List.any_eq_false]
    intro r hr
    rw [h r hr]
    exact Bool.false_ne_true

/-- The answer keeps a placement for which a row was open. -/
theorem mem_commit_iff (distinct : (plan.scheduled.map (·.operationId)).Nodup)
    {p : Placement Q} : p ∈ (s.commitSchedule plan).2.scheduled ↔
      p ∈ plan.scheduled ∧ ∃ r ∈ s.operations, s.isOpen p.operationId r = true := by
  rw [commit_snd distinct, ScheduleResult.withLost_scheduled, List.mem_filter]
  refine and_congr_right fun hp => ?_
  rw [Bool.not_eq_true', ← Bool.not_eq_true, List.contains_iff_mem, mem_rejected_iff hp]
  simp only [not_forall, exists_prop, Bool.not_eq_false]

end Store

variable [Quantity Q]

/-! ### Plans -/

/-- The candidates of a run that reads the store. -/
def Store.candidates (s : Store Q) (request : ScheduleRequest Q) :
    Except StoreFault (List (Candidate Q)) := do
  let active ← s.listActiveOrders request.orderFilter
  .ok (Candidate.select request (active.map fun p => Workset.ofOperations p.1 p.2))

/-- The row is of an order that the run is about. -/
def ScheduleRequest.IncludesRow (request : ScheduleRequest Q) (r : Row Operation.Column Q) :
    Prop :=
  ∃ orderId, r .orderId = .text orderId ∧ request.includesOrder orderId = true

/-- What the plan of a run is worth, whatever becomes of it. -/
structure Store.Plans (s : Store Q) (request : ScheduleRequest Q) (plan : ScheduleResult Q) :
    Prop where
  named : ∃ cs, s.candidates request = .ok cs ∧
    plan.named.Perm (cs.map (·.operation.operationId))
  workCenters : plan.affectedWorkCenters = Placement.workCenters plan.scheduled
  distinct : plan.named.Nodup
  rows : ∀ p ∈ plan.scheduled, ∃ r ∈ s.operations,
    r .operationId = .text p.operationId ∧ r .scheduledStart = .null ∧ request.IncludesRow r

theorem Store.distinct_candidates {s : Store Q} (keyed : s.Keyed) {request : ScheduleRequest Q}
    {cs : List (Candidate Q)} (h : s.candidates request = .ok cs) :
    (cs.map (·.operation.operationId)).Nodup := by
  obtain ⟨active, hactive, h⟩ := bind_eq_ok_iff.mp h
  cases h
  apply Candidate.nodup_select
  have hperm : ((active.map fun p => Workset.ofOperations p.1 p.2).flatMap (·.operations)).Perm
      (active.flatMap (·.2)) := by
    rw [List.flatMap_map]
    exact List.Perm.flatMap_left active fun p _ => List.mergeSort_perm p.2 _
  exact (hperm.map _).nodup_iff.mpr (distinct_listActiveOrders keyed hactive)

/-- A candidate is read from a row of an order that the run is about. -/
theorem Store.reads_of_candidate {s : Store Q} {request : ScheduleRequest Q}
    {cs : List (Candidate Q)} (h : s.candidates request = .ok cs) {c : Candidate Q}
    (hc : c ∈ cs) : ∃ r ∈ s.operations, Operation.Reads r c.operation ∧
      Candidate.isEligible request c.operation = true ∧ request.IncludesRow r := by
  obtain ⟨active, hactive, h⟩ := bind_eq_ok_iff.mp h
  cases h
  obtain ⟨w, hw, hcw, hfollows⟩ := Candidate.exists_of_mem_select hc
  obtain ⟨p, hp, rfl⟩ := List.mem_map.mp hw
  have hop : c.operation ∈ p.2 := List.mem_mergeSort.mp hfollows.mem
  obtain ⟨orders, -, hactive⟩ := bind_eq_ok_iff.mp hactive
  obtain ⟨o, -, hlist⟩ := forall₂_mem_right (mapM_eq_ok_iff.mp hactive) hp
  obtain ⟨ops, hops, hlist⟩ := bind_eq_ok_iff.mp hlist
  cases hlist
  obtain ⟨r, hr, horder, hread⟩ := exists_row_of_mem hops hop
  have hincluded : request.includesOrder o.orderId = true := by
    unfold Candidate.ofWorkset at hcw
    split at hcw
    case isTrue h => exact (Bool.and_eq_true_iff.mp h).2
    case isFalse => cases hcw
  have heligible := (Candidate.mem_ofWorkset hcw).2.2.2.1
  exact ⟨r, hr, hread, heligible, o.orderId, horder, hincluded⟩

/-- The row of a candidate has no dates. -/
theorem Store.row_of_candidate {s : Store Q} {request : ScheduleRequest Q}
    {cs : List (Candidate Q)} (h : s.candidates request = .ok cs) {c : Candidate Q}
    (hc : c ∈ cs) : ∃ r ∈ s.operations, r .operationId = .text c.operation.operationId ∧
      r .scheduledStart = .null ∧ request.IncludesRow r := by
  obtain ⟨r, hr, hread, heligible, hincluded⟩ := reads_of_candidate h hc
  have hnone : c.operation.scheduledStart = none := by
    simp only [Candidate.isEligible, Bool.and_eq_true, Option.isNone_iff_eq_none] at heligible
    exact heligible.1.2
  refine ⟨r, hr, Row.text_eq_ok_iff.mp hread.operationId, ?_, hincluded⟩
  have hstart := hread.scheduledStart
  rw [hnone] at hstart
  exact Row.eq_null_of_date hstart

theorem Store.plans_of_planSchedule {s : Store Q} (keyed : s.Keyed)
    {request : ScheduleRequest Q} {plan : ScheduleResult Q} {ledger : Ledger Q}
    (h : s.planSchedule request = .ok (plan, ledger)) : s.Plans request plan := by
  obtain ⟨centers, -, h⟩ := bind_eq_ok_iff.mp h
  obtain ⟨before, -, h⟩ := bind_eq_ok_iff.mp h
  obtain ⟨active, hactive, h⟩ := bind_eq_ok_iff.mp h
  have hplan : (schedule request _ _ before).1 = plan := congrArg Prod.fst (Except.ok.inj h)
  have hcandidates : s.candidates request =
      .ok (Candidate.select request (active.map fun p => Workset.ofOperations p.1 p.2)) :=
    bind_eq_ok_iff.mpr ⟨active, hactive, rfl⟩
  have hnamed := named_schedule request (active.map fun p => Workset.ofOperations p.1 p.2)
    (WorkCenters.ofList (centers.filter fun wc => request.includesWorkCenter wc.workCenterId))
    before
  rw [hplan] at hnamed
  refine ⟨⟨_, hcandidates, hnamed⟩, ?_, ?_, ?_⟩
  · rw [← hplan]
    rfl
  · exact hnamed.nodup_iff.mpr (distinct_candidates keyed hcandidates)
  · intro p hp
    have hid : p.operationId ∈ plan.named := List.mem_append_left _ (List.mem_map_of_mem hp)
    obtain ⟨c, hc, hcid⟩ := List.mem_map.mp (hnamed.mem_iff.mp hid)
    rw [← hcid]
    exact row_of_candidate hcandidates hc

/-- A run that plans replays its candidates on the ledger that it has built. -/
theorem Store.replay_of_planSchedule [Quantity.Ordered Q] {s : Store Q} (keyed : s.Keyed)
    {request : ScheduleRequest Q} {plan : ScheduleResult Q} {ledger : Ledger Q}
    (h : s.planSchedule request = .ok (plan, ledger)) :
    ∃ centers before cs, s.buildLedger request.today request.windowEnd request.minOperationHours
        request.includesWorkCenter = .ok before ∧
      s.candidates request = .ok cs ∧
      FirstFit.Replay request (WorkCenters.ofList centers) before cs plan.scheduled ∧
      ledger = before.bookAll plan.scheduled := by
  obtain ⟨centers, -, h⟩ := bind_eq_ok_iff.mp h
  obtain ⟨before, hbefore, h⟩ := bind_eq_ok_iff.mp h
  obtain ⟨active, hactive, h⟩ := bind_eq_ok_iff.mp h
  have hcandidates : s.candidates request =
      .ok (Candidate.select request (active.map fun p => Workset.ofOperations p.1 p.2)) :=
    bind_eq_ok_iff.mpr ⟨active, hactive, rfl⟩
  have htracks : FirstFit.Tracks request (WorkCenters.ofList
      (centers.filter fun wc => request.includesWorkCenter wc.workCenterId)) before _ _ :=
    FirstFit.tracks_foldl (distinct_candidates keyed hcandidates)
  cases h
  exact ⟨_, before, _, hbefore, hcandidates, htracks.replay, htracks.ledger_eq⟩

/-- The row of an operation that waits for dates, which a placement would give it. -/
structure Placement.IsOf (request : ScheduleRequest Q) (p : Placement Q)
    (r : Row Operation.Column Q) (op : Operation Q) : Prop where
  reads : Operation.Reads r op
  schedulable : op.status.isSchedulable = true
  operationId : r .operationId = .text p.operationId
  workCenterId : r .workCenterId = .text p.workCenterId
  start : r .scheduledStart = .null
  hours : p.hours = op.hoursNeeded request.minOperationHours

/-- A run places operations that it has read, at their work centers. -/
theorem Store.exists_row_of_placed [Quantity.Ordered Q] {s : Store Q} (keyed : s.Keyed)
    {request : ScheduleRequest Q} {plan : ScheduleResult Q} {ledger : Ledger Q}
    (h : s.planSchedule request = .ok (plan, ledger)) {p : Placement Q}
    (hp : p ∈ plan.scheduled) : ∃ r op, r ∈ s.operations ∧ p.IsOf request r op := by
  obtain ⟨centers, before, cs, -, hcandidates, hreplay, -⟩ := replay_of_planSchedule keyed h
  obtain ⟨c, hc, wc, l, earliest, known, fits⟩ := hreplay.exists_fits hp
  obtain ⟨r, hr, hreads, heligible, -⟩ := reads_of_candidate hcandidates hc
  simp only [Candidate.isEligible, Bool.and_eq_true, Option.isNone_iff_eq_none] at heligible
  have hcenter : p.workCenterId = c.operation.workCenterId :=
    fits.workCenterId.trans (keyed_ofList _ _ _ known)
  refine ⟨r, c.operation, hr, hreads, heligible.1.1, ?_, ?_, ?_, fits.hours⟩
  · rw [fits.operationId]
    exact Row.text_eq_ok_iff.mp hreads.operationId
  · rw [hcenter]
    exact Row.text_eq_ok_iff.mp hreads.workCenterId
  · have hstart := hreads.scheduledStart
    rw [heligible.1.2] at hstart
    exact Row.eq_null_of_date hstart

theorem Store.Plans.distinct_scheduled {s : Store Q} {request : ScheduleRequest Q}
    {plan : ScheduleResult Q} (h : s.Plans request plan) :
    (plan.scheduled.map (·.operationId)).Nodup := h.distinct.of_append_left

/-- A write changes no operation of an order that the run is not about. -/
theorem Store.Plans.placeRow_eq_self {s : Store Q} (keyed : s.Keyed)
    {request : ScheduleRequest Q} {plan : ScheduleResult Q} (h : s.Plans request plan)
    {r : Row Operation.Column Q} (hr : r ∈ s.operations) (other : ¬ request.IncludesRow r) :
    s.placeRow plan.scheduled r = r := by
  rcases s.placeRow_eq_or plan.scheduled r with hsame | ⟨p, hp, hopen⟩
  · exact hsame
  · obtain ⟨t, ht, hid, -, hincluded⟩ := h.rows p hp
    have heq : r = t := keyed.operations.eq_of_isText (c := .operationId) (by decide) hr ht
      (isOpen_iff.mp hopen).1 hid
    rw [heq] at other
    exact absurd hincluded other

/-- What a scheduling run leaves alone, however it ends. -/
theorem ScheduleRan.rows {s t : Store Q} {request : ScheduleRequest Q}
    {answer : Except ExecutionFault (ScheduleResult Q)} (keyed : s.Keyed)
    (h : ScheduleRan s request answer t) :
    t.orders = s.orders ∧ ∃ change, t.operations = s.operations.map change ∧
      ∀ r ∈ s.operations, Store.LaterRow r (change r) ∧
        (¬ request.IncludesRow r → change r = r) := by
  have hwritten : ∀ plan ledger, s.planSchedule request = .ok (plan, ledger) →
      (s.commitSchedule plan).1.orders = s.orders ∧ ∃ change,
        (s.commitSchedule plan).1.operations = s.operations.map change ∧
          ∀ r ∈ s.operations, Store.LaterRow r (change r) ∧
            (¬ request.IncludesRow r → change r = r) := by
    intro plan ledger reads
    rw [Store.commit_fst]
    refine ⟨rfl, _, rfl, fun r hr => ⟨Store.laterRow_placeRow s plan.scheduled r, ?_⟩⟩
    exact (Store.plans_of_planSchedule keyed reads).placeRow_eq_self keyed hr
  cases h with
  | unread =>
    exact ⟨rfl, id, (List.map_id _).symm, fun r _ => ⟨.refl r, fun _ => rfl⟩⟩
  | answered reads => exact hwritten _ _ reads
  | recalculated reads writes =>
    rw [Store.recalculate_eq writes]
    exact hwritten _ _ reads
  | stale reads => exact hwritten _ _ reads

end Workshop
