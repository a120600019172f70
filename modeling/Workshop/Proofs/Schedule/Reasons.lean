/-
  Workshop/Proofs/Schedule/Reasons.lean
  =====================================
  **One verdict for each candidate, with its reason.**  The answer of a run has one place
  for every operation that the request is about, and for nothing else: a placement or a
  conflict.  Both lists are in the order of turns (`ScheduleResult.Lists`).

  Why an operation is reported can be told from the whole answer, although it was decided
  at its turn (`ScheduleResult.Rules`):

  * it waits when the operation directly before it is not complete and has no end in the
    answer, or none that leaves another day in the calendar.  That end is settled when its
    turn comes (`FirstFit.endOf_append_later`);
  * otherwise its work center may be unknown;
  * otherwise it is placed, unless no day of the window has room for it in the ledger that
    the placements of earlier turns have left.

  A run adds to its two lists at the end, and at most one entry for each candidate
  (`FirstFit.exists_adds`).
-/
import Workshop.Proofs.Schedule.Answers
import Workshop.Proofs.Schedule.OtherOrders
import Mathlib.Data.Int.ConditionallyCompleteOrder
import Mathlib.Data.Prod.Lex
import Mathlib.Data.String.Basic
import Mathlib.Order.ConditionallyCompleteLattice.Basic

namespace Workshop

variable {Q : Type}

/-! ### The operations that a request is about -/

/-- The operation waits for a date, and the request is about it. -/
structure Workset.IsCandidate (w : Workset Q) (r : ScheduleRequest Q) (op : Operation Q) :
    Prop where
  mem : op ∈ w.operations
  active : w.order.status = .released ∨ w.order.status = .inProgress
  order : ∀ id, r.orderFilter = some id → id = w.order.orderId
  waiting : op.status = .pending ∨ op.status = .ready
  undated : op.scheduledStart = none
  workCenter : ∀ ids, r.workCenterFilter = some ids → op.workCenterId ∈ ids

theorem ScheduleRequest.includesOrder_iff {r : ScheduleRequest Q} {orderId : String} :
    r.includesOrder orderId = true ↔ ∀ id, r.orderFilter = some id → id = orderId := by
  unfold includesOrder
  cases r.orderFilter <;> simp

theorem ScheduleRequest.includesWorkCenter_iff {r : ScheduleRequest Q} {workCenterId : String} :
    r.includesWorkCenter workCenterId = true ↔
      ∀ ids, r.workCenterFilter = some ids → workCenterId ∈ ids := by
  unfold includesWorkCenter
  cases r.workCenterFilter <;> simp

theorem Workset.isCandidate_iff {w : Workset Q} {r : ScheduleRequest Q} {op : Operation Q} :
    w.IsCandidate r op ↔ op ∈ w.operations ∧
      (w.order.status.isSchedulable && r.includesOrder w.order.orderId) = true ∧
        Candidate.isEligible r op = true := by
  simp only [Candidate.isEligible, Bool.and_eq_true, Option.isNone_iff_eq_none,
    OrderStatus.isSchedulable_iff, OperationStatus.isSchedulable_iff,
    ScheduleRequest.includesOrder_iff, ScheduleRequest.includesWorkCenter_iff]
  constructor
  · intro h
    exact ⟨h.mem, ⟨h.active, h.order⟩, ⟨h.waiting, h.undated⟩, h.workCenter⟩
  · rintro ⟨mem, ⟨active, order⟩, ⟨waiting, undated⟩, workCenter⟩
    exact ⟨mem, active, order, waiting, undated, workCenter⟩

/-- Due dates as numbers, and no due date above all of them. -/
def Candidate.dueKey : Option Date → WithTop ℤ
  | some d => d.day
  | none => ⊤

/-- When an operation has its turn: by priority, due date with none last, part if setups
    are to be saved, sequence number and order. -/
def Workset.turnKey (optimizeSetup : Bool) (w : Workset Q) (op : Operation Q) :
    ℤ ×ₗ WithTop ℤ ×ₗ String ×ₗ ℤ ×ₗ String :=
  toLex (w.order.priority, toLex (Candidate.dueKey w.order.dueDate,
    toLex (if optimizeSetup then w.order.partId else "",
      toLex (op.sequence, w.order.orderId))))

namespace Candidate

variable {r : ScheduleRequest Q} {worksets : List (Workset Q)} {w : Workset Q}

/-- The candidates of an order are the operations that the request is about. -/
theorem exists_mem_ofWorkset_iff {op : Operation Q} :
    (∃ c ∈ ofWorkset r w, c.operation = op) ↔ w.IsCandidate r op := by
  rw [Workset.isCandidate_iff]
  constructor
  · rintro ⟨c, hc, rfl⟩
    obtain ⟨-, -, -, heligible, hpair⟩ := mem_ofWorkset hc
    refine ⟨(follows_of_mem_withPredecessors hpair).mem, ?_, heligible⟩
    by_contra hclosed
    unfold ofWorkset at hc
    rw [if_neg hclosed] at hc
    cases hc
  · rintro ⟨hop, hopen, heligible⟩
    rw [← Workset.mem_inSequence, ← map_fst_withPredecessors none w.inSequence] at hop
    obtain ⟨p, hp, rfl⟩ := List.mem_map.mp hop
    unfold ofWorkset
    rw [if_pos hopen]
    exact ⟨_, List.mem_map_of_mem (List.mem_filter.mpr ⟨hp, heligible⟩), rfl⟩

theorem exists_mem_select {op : Operation Q} (hw : w ∈ worksets) (h : w.IsCandidate r op) :
    ∃ c ∈ select r worksets, c ∈ ofWorkset r w ∧ c.operation = op := by
  obtain ⟨c, hc, hop⟩ := exists_mem_ofWorkset_iff.mpr h
  refine ⟨c, ?_, hc, hop⟩
  rw [select, List.mem_mergeSort]
  exact List.mem_flatMap.mpr ⟨w, hw, hc⟩

/-! ### The order of turns as an order of keys -/

theorem toLex_le_of_then {α β : Type} [LinearOrder α] [LE β] {a a' : α} {b b' : β}
    {o : Ordering} (h : (compare a a').then o ≠ .gt) (hrest : o ≠ .gt → b ≤ b') :
    toLex (a, b) ≤ toLex (a', b') := by
  rw [Prod.Lex.toLex_le_toLex]
  cases hcompare : compare a a' with
  | lt => exact Or.inl (compare_lt_iff_lt.mp hcompare)
  | eq =>
    rw [hcompare] at h
    exact Or.inr ⟨compare_eq_iff_eq.mp hcompare, hrest h⟩
  | gt =>
    rw [hcompare] at h
    exact absurd rfl h

theorem compareDue_eq (a b : Option Date) : compareDue a b = compare (dueKey a) (dueKey b) := by
  cases a with
  | none =>
    cases b with
    | none => exact (compare_eq_iff_eq.mpr rfl).symm
    | some e => exact (compare_gt_iff_gt.mpr (WithTop.coe_lt_top e.day)).symm
  | some d =>
    cases b with
    | none => exact (compare_lt_iff_lt.mpr (WithTop.coe_lt_top d.day)).symm
    | some e =>
      change compare d.day e.day = compare (d.day : WithTop ℤ) (e.day : WithTop ℤ)
      rcases lt_trichotomy d.day e.day with h | h | h
      · rw [compare_lt_iff_lt.mpr h, compare_lt_iff_lt.mpr (WithTop.coe_lt_coe.mpr h)]
      · rw [h, compare_eq_iff_eq.mpr rfl, compare_eq_iff_eq.mpr rfl]
      · rw [compare_gt_iff_gt.mpr h, compare_gt_iff_gt.mpr (WithTop.coe_lt_coe.mpr h)]

/-- Candidates whose turns are in order have keys in order. -/
theorem turnKey_le {optimizeSetup : Bool} {v : Workset Q} {c d : Candidate Q}
    (named : v.Named) (named' : w.Named) (hc : c ∈ ofWorkset r v) (hd : d ∈ ofWorkset r w)
    (h : (compareTurn optimizeSetup c d != .gt) = true) :
    v.turnKey optimizeSetup c.operation ≤ w.turnKey optimizeSetup d.operation := by
  obtain ⟨hpriority, hdue, hpart, -, -⟩ := mem_ofWorkset hc
  obtain ⟨hpriority', hdue', hpart', -, -⟩ := mem_ofWorkset hd
  have hparts : (if optimizeSetup then compare v.order.partId w.order.partId else .eq) =
      compare (if optimizeSetup then v.order.partId else "")
        (if optimizeSetup then w.order.partId else "") := by
    cases optimizeSetup <;> rfl
  rw [bne_iff_ne, compareTurn, hpriority, hpriority', hdue, hdue', hpart, hpart', hparts,
    compareDue_eq, orderId_of_mem_ofWorkset named hc, orderId_of_mem_ofWorkset named' hd] at h
  apply toLex_le_of_then h
  intro h
  apply toLex_le_of_then h
  intro h
  apply toLex_le_of_then h
  intro h
  apply toLex_le_of_then h
  intro h
  exact compare_le_iff_le.mp h

/-- The turns of two operations, told by their identifiers, are in this order. -/
def InTurn (r : ScheduleRequest Q) (worksets : List (Workset Q)) (first second : String) :
    Prop :=
  ∀ v ∈ worksets, ∀ a ∈ v.operations, a.operationId = first →
    ∀ w ∈ worksets, ∀ b ∈ w.operations, b.operationId = second →
      v.turnKey r.optimizeSetup a ≤ w.turnKey r.optimizeSetup b

theorem eq_of_operationId_eq {v : Workset Q} {c : Candidate Q} {op : Operation Q}
    (distinct : ((worksets.flatMap (·.operations)).map (·.operationId)).Nodup)
    (hv : v ∈ worksets) (hc : c ∈ ofWorkset r v) (hw : w ∈ worksets) (hop : op ∈ w.operations)
    (hid : op.operationId = c.operation.operationId) : op = c.operation ∧ w = v := by
  have hmem := (follows_of_mem_withPredecessors (mem_ofWorkset hc).2.2.2.2).mem
  obtain rfl : op = c.operation := List.inj_on_of_nodup_map distinct
    (List.mem_flatMap.mpr ⟨w, hw, hop⟩) (List.mem_flatMap.mpr ⟨v, hv, hmem⟩) hid
  exact ⟨rfl, Workset.eq_of_mem_operations distinct hw hv hop hmem⟩

theorem inTurn_self
    (distinct : ((worksets.flatMap (·.operations)).map (·.operationId)).Nodup) (id : String) :
    InTurn r worksets id id := by
  intro v hv a ha hid w hw b hb hid'
  obtain rfl : a = b := List.inj_on_of_nodup_map distinct (List.mem_flatMap.mpr ⟨v, hv, ha⟩)
    (List.mem_flatMap.mpr ⟨w, hw, hb⟩) (hid.trans hid'.symm)
  obtain rfl := Workset.eq_of_mem_operations distinct hv hw ha hb
  exact le_refl _

/-- The candidates of a run come in the order of their turns. -/
theorem pairwise_inTurn
    (distinct : ((worksets.flatMap (·.operations)).map (·.operationId)).Nodup)
    (named : ∀ w ∈ worksets, w.Named) :
    ((select r worksets).map (·.operation.operationId)).Pairwise (InTurn r worksets) := by
  have hsorted := List.pairwise_mergeSort (compareTurn_trans r.optimizeSetup)
    (compareTurn_total _) (worksets.flatMap (ofWorkset r))
  rw [List.pairwise_map]
  refine List.Pairwise.imp_of_mem ?_ hsorted
  intro c d hc hd hturn v hv a ha hac w hw b hb hbd
  obtain ⟨v', hv', hcv, -⟩ := exists_of_mem_select hc
  obtain ⟨w', hw', hdw, -⟩ := exists_of_mem_select hd
  obtain ⟨rfl, rfl⟩ := eq_of_operationId_eq distinct hv' hcv hv ha hac
  obtain ⟨rfl, rfl⟩ := eq_of_operationId_eq distinct hw' hdw hw hb hbd
  exact turnKey_le (named v hv) (named w hw) hcv hdw hturn

end Candidate

/-! ### What candidates add to the answer -/

/-- The placement is about the operation. -/
structure Placement.IsAbout (p : Placement Q) (op : Operation Q) : Prop where
  operationId : p.operationId = op.operationId
  orderId : p.orderId = op.orderId
  sequence : p.sequence = op.sequence
  workCenterId : p.workCenterId = op.workCenterId

/-- The conflict is about the operation. -/
structure Conflict.IsAbout (x : Conflict) (op : Operation Q) : Prop where
  operationId : x.operationId = op.operationId
  orderId : x.orderId = op.orderId
  sequence : x.sequence = op.sequence
  workCenterId : x.workCenterId = op.workCenterId

theorem Conflict.isAbout_about (op : Operation Q) (reason : ConflictReason) (detail : String) :
    (about op reason detail).IsAbout op := ⟨rfl, rfl, rfl, rfl⟩

variable [Quantity Q]

namespace FirstFit

open Candidate (InTurn)

/-- What the candidates of a list add to an answer: for each of them at most one placement
    and at most one conflict, in the order of the list. -/
structure Adds (cs : List (Candidate Q)) (s t : State Q) (placed : List (Placement Q))
    (reported : List Conflict) : Prop where
  scheduled : t.scheduled = s.scheduled ++ placed
  conflicts : t.conflicts = s.conflicts ++ reported
  placed : List.SublistForall₂ (fun p c => p.IsAbout c.operation) placed cs
  reported : List.SublistForall₂ (fun x c => x.IsAbout c.operation) reported cs

variable {r : ScheduleRequest Q} {centers : WorkCenters Q} {s t : State Q}

theorem FirstFits.isAbout {wc : WorkCenter Q} {ledger : Ledger Q} {op : Operation Q}
    {earliest : Date} {p : Placement Q}
    (keyed : ∀ id wc, centers id = some wc → wc.workCenterId = id)
    (known : centers op.workCenterId = some wc) (h : FirstFits r wc ledger op earliest p) :
    p.IsAbout op :=
  ⟨h.operationId, h.orderId, h.sequence, h.workCenterId.trans (keyed _ _ known)⟩

theorem exists_adds [Quantity.Ordered Q]
    (keyed : ∀ id wc, centers id = some wc → wc.workCenterId = id) (cs : List (Candidate Q))
    (s : State Q) :
    ∃ placed reported, Adds cs s (cs.foldl (take r centers) s) placed reported := by
  induction cs generalizing s with
  | nil => exact ⟨[], [], by simp, by simp, .nil, .nil⟩
  | cons c cs ih =>
    obtain ⟨placed, reported, h⟩ := ih (take r centers s c)
    have hreport : ∀ reason detail,
        take r centers s c = s.report (.about c.operation reason detail) →
        ∃ placed reported, Adds (c :: cs) s (cs.foldl (take r centers) (take r centers s c))
          placed reported := by
      intro reason detail htake
      refine ⟨placed, .about c.operation reason detail :: reported, ?_, ?_, ?_, ?_⟩
      · rw [h.scheduled, htake]
        rfl
      · rw [h.conflicts, htake]
        simp [State.report]
      · exact h.placed.cons_right
      · exact h.reported.cons (Conflict.isAbout_about _ _ _)
    have htaken := taken_take r centers s c
    rw [List.foldl_cons]
    generalize htake : take r centers s c = t at htaken h hreport ⊢
    cases htaken with
    | waits detail => exact hreport _ detail rfl
    | unknown detail => exact hreport _ detail rfl
    | full detail => exact hreport _ detail rfl
    | @placed wc earliest p known after fits =>
      refine ⟨p :: placed, reported, ?_, h.conflicts, ?_, ?_⟩
      · rw [h.scheduled]
        simp [State.place]
      · exact h.placed.cons (fits.isAbout keyed known)
      · exact h.reported.cons_right

end FirstFit

theorem map_sublist_of_sublistForall₂ {α β : Type} {about : α → β → Prop} {f : α → String}
    {g : β → String} (hf : ∀ x c, about x c → f x = g c) {xs : List α} {cs : List β}
    (h : List.SublistForall₂ about xs cs) : (xs.map f).Sublist (cs.map g) := by
  induction h with
  | nil => exact List.nil_sublist _
  | cons hx _ ih =>
    rw [List.map_cons, List.map_cons, hf _ _ hx]
    exact ih.cons_cons _
  | cons_right _ ih => exact ih.cons _

theorem exists_of_mem_sublistForall₂ {α β : Type} {about : α → β → Prop} {xs : List α}
    {cs : List β} (h : List.SublistForall₂ about xs cs) {x : α} (hx : x ∈ xs) :
    ∃ c ∈ cs, about x c := by
  induction h with
  | nil => cases hx
  | cons hab _ ih =>
    rcases List.mem_cons.mp hx with rfl | hx
    · exact ⟨_, List.mem_cons_self, hab⟩
    · obtain ⟨c, hc, hcx⟩ := ih hx
      exact ⟨c, List.mem_cons_of_mem _ hc, hcx⟩
  | cons_right _ ih =>
    obtain ⟨c, hc, hcx⟩ := ih hx
    exact ⟨c, List.mem_cons_of_mem _ hc, hcx⟩

open FirstFit

open Candidate (InTurn)

/-! ### One place for each candidate -/

/-- The answer lists the operations that the request is about, each once, and nothing
    else; placements and conflicts come in the order of turns. -/
structure ScheduleResult.Lists (answer : ScheduleResult Q) (r : ScheduleRequest Q)
    (worksets : List (Workset Q)) : Prop where
  once : answer.named.Nodup
  all : ∀ w ∈ worksets, ∀ op, w.IsCandidate r op → op.operationId ∈ answer.named
  placed : ∀ p ∈ answer.scheduled, ∃ w ∈ worksets, ∃ op, w.IsCandidate r op ∧ p.IsAbout op
  reported : ∀ x ∈ answer.conflicts, ∃ w ∈ worksets, ∃ op, w.IsCandidate r op ∧ x.IsAbout op
  placedInTurn : (answer.scheduled.map (·.operationId)).Pairwise (InTurn r worksets)
  reportedInTurn : (answer.conflicts.map (·.operationId)).Pairwise (InTurn r worksets)

variable {r : ScheduleRequest Q} {worksets : List (Workset Q)} {centers : WorkCenters Q}
  {ledger : Ledger Q}

theorem lists_schedule [Quantity.Ordered Q]
    (distinct : ((worksets.flatMap (·.operations)).map (·.operationId)).Nodup)
    (named : ∀ w ∈ worksets, w.Named)
    (keyed : ∀ id wc, centers id = some wc → wc.workCenterId = id) :
    (schedule r worksets centers ledger).1.Lists r worksets := by
  have hnamed := named_schedule r worksets centers ledger
  have hturns := Candidate.pairwise_inTurn (r := r) distinct named
  obtain ⟨placed, reported, hadds⟩ := exists_adds (r := r) keyed (Candidate.select r worksets)
    ⟨ledger, [], [], []⟩
  have hscheduled : (schedule r worksets centers ledger).1.scheduled = placed := hadds.scheduled
  have hconflicts : (schedule r worksets centers ledger).1.conflicts = reported := hadds.conflicts
  have hcandidate : ∀ c ∈ Candidate.select r worksets,
      ∃ w ∈ worksets, w.IsCandidate r c.operation := by
    intro c hc
    obtain ⟨w, hw, hcw, -⟩ := Candidate.exists_of_mem_select hc
    exact ⟨w, hw, Candidate.exists_mem_ofWorkset_iff.mp ⟨c, hcw, rfl⟩⟩
  constructor
  · exact hnamed.nodup_iff.mpr (Candidate.nodup_select distinct)
  · intro w hw op hop
    obtain ⟨c, hc, -, rfl⟩ := Candidate.exists_mem_select hw hop
    exact hnamed.mem_iff.mpr (List.mem_map_of_mem hc)
  · rw [hscheduled]
    intro p hp
    obtain ⟨c, hc, hpc⟩ := exists_of_mem_sublistForall₂ hadds.placed hp
    obtain ⟨w, hw, hcw⟩ := hcandidate c hc
    exact ⟨w, hw, c.operation, hcw, hpc⟩
  · rw [hconflicts]
    intro x hx
    obtain ⟨c, hc, hxc⟩ := exists_of_mem_sublistForall₂ hadds.reported hx
    obtain ⟨w, hw, hcw⟩ := hcandidate c hc
    exact ⟨w, hw, c.operation, hcw, hxc⟩
  · rw [hscheduled]
    exact hturns.sublist (map_sublist_of_sublistForall₂ (fun _ _ h => h.operationId) hadds.placed)
  · rw [hconflicts]
    exact hturns.sublist
      (map_sublist_of_sublistForall₂ (fun _ _ h => h.operationId) hadds.reported)

/-! ### The reason of a conflict -/

/-- The answer reports the operation for this reason. -/
def ScheduleResult.Reports (answer : ScheduleResult Q) (op : Operation Q)
    (reason : ConflictReason) : Prop :=
  ∃ x ∈ answer.conflicts, x.operationId = op.operationId ∧ x.reason = reason

/-- What was decided about an operation stands in the answer. -/
def ScheduleResult.Holds (answer : ScheduleResult Q) : Except Conflict (Placement Q) → Prop
  | .ok p => p ∈ answer.scheduled
  | .error x => x ∈ answer.conflicts

/-- There is an operation directly before, it is not complete, and no day of the calendar
    comes after its end. -/
def FirstFit.KeepsWaiting (placed : List (Placement Q)) (before : Option (Operation Q)) :
    Prop :=
  ∃ b, before = some b ∧ b.status ≠ .complete ∧
    (endOf placed b = none ∨ endOf placed b = some Date.last)

/-- No working day of the window has room for the operation at its work center. -/
def FirstFit.IsFull (r : ScheduleRequest Q) (centers : WorkCenters Q) (ledger : Ledger Q)
    (earliest? : Option Date) (op : Operation Q) : Prop :=
  ∃ wc earliest, centers op.workCenterId = some wc ∧ earliest? = some earliest ∧
    startDate? ledger wc (op.hoursNeeded r.minOperationHours) (earliest.later r.today)
      r.windowEnd = none

/-- The answer places the operation. -/
def ScheduleResult.Places (answer : ScheduleResult Q) (op : Operation Q) : Prop :=
  ∃ p ∈ answer.scheduled, p.operationId = op.operationId

/-- Why an operation is reported, or else placed. -/
structure ScheduleResult.Rules (answer : ScheduleResult Q) (r : ScheduleRequest Q)
    (worksets : List (Workset Q)) (centers : WorkCenters Q) (ledger : Ledger Q)
    (op : Operation Q) (before : Option (Operation Q)) : Prop where
  waits : answer.Reports op .predecessorUnscheduled ↔ KeepsWaiting answer.scheduled before
  unknown : answer.Reports op .unknownWorkCenter ↔
    ¬ KeepsWaiting answer.scheduled before ∧ centers op.workCenterId = none
  -- the placements of earlier turns are booked when the days are looked at
  room : ∃ earlier later, answer.scheduled = earlier ++ later ∧
    (∀ p ∈ earlier, InTurn r worksets p.operationId op.operationId) ∧
    (∀ p ∈ later, InTurn r worksets op.operationId p.operationId) ∧
    (answer.Reports op .noCapacityInHorizon ↔ IsFull r centers (ledger.bookAll earlier)
      (earliestAfter r answer.scheduled before) op) ∧
    (answer.Places op ↔ ¬ KeepsWaiting answer.scheduled before ∧
      centers op.workCenterId ≠ none ∧ ¬ IsFull r centers (ledger.bookAll earlier)
        (earliestAfter r answer.scheduled before) op)

omit [Quantity Q] in
theorem FirstFit.earliestAfter_eq_none_iff {placed : List (Placement Q)}
    {before : Option (Operation Q)} :
    earliestAfter r placed before = none ↔ KeepsWaiting placed before := by
  unfold earliestAfter KeepsWaiting
  cases before with
  | none => simp
  | some b =>
    by_cases hcomplete : b.status = .complete
    · simp [Operation.isComplete, hcomplete]
    · cases hend : endOf placed b <;>
        simp [Operation.isComplete, hcomplete, hend, Date.next?_eq_none_iff]

section Answer

variable {answer : ScheduleResult Q} {op : Operation Q} {reason : ConflictReason}

omit [Quantity Q] in
/-- The reason of an operation is the one of any conflict about it. -/
theorem ScheduleResult.reports_iff (once : answer.named.Nodup) {x : Conflict}
    (hx : x ∈ answer.conflicts) (hid : x.operationId = op.operationId) :
    answer.Reports op reason ↔ x.reason = reason := by
  constructor
  · rintro ⟨y, hy, hyop, rfl⟩
    rw [List.inj_on_of_nodup_map once.of_append_right hx hy (hid.trans hyop.symm)]
  · intro h
    exact ⟨x, hx, hid, h⟩

omit [Quantity Q] in
theorem ScheduleResult.not_places (once : answer.named.Nodup)
    (h : answer.Reports op reason) : ¬ answer.Places op := by
  obtain ⟨x, hx, hxop, -⟩ := h
  rintro ⟨p, hp, hid⟩
  exact (List.nodup_append.mp once).2.2 _ (List.mem_map_of_mem hp) _ (List.mem_map_of_mem hx)
    (hid.trans hxop.symm)

end Answer

namespace FirstFit

/-- What can be decided about an operation, and what it comes from. -/
inductive Judged (r : ScheduleRequest Q) (centers : WorkCenters Q) (ledger : Ledger Q)
    (earliest? : Option Date) (op : Operation Q) : Except Conflict (Placement Q) → Prop
  | waits (detail : String) (after : earliest? = none) :
      Judged r centers ledger earliest? op (.error (.about op .predecessorUnscheduled detail))
  | unknown (detail : String) {earliest : Date} (after : earliest? = some earliest)
      (unknown : centers op.workCenterId = none) :
      Judged r centers ledger earliest? op (.error (.about op .unknownWorkCenter detail))
  | full (detail : String) {earliest : Date} (after : earliest? = some earliest)
      (known : centers op.workCenterId ≠ none) (full : IsFull r centers ledger earliest? op) :
      Judged r centers ledger earliest? op (.error (.about op .noCapacityInHorizon detail))
  | placed {p : Placement Q} {earliest : Date} (after : earliest? = some earliest)
      (known : centers op.workCenterId ≠ none) (room : ¬ IsFull r centers ledger earliest? op)
      (operationId : p.operationId = op.operationId) :
      Judged r centers ledger earliest? op (.ok p)

theorem judged_verdict (r : ScheduleRequest Q) (centers : WorkCenters Q) (ledger : Ledger Q)
    (earliest? : Option Date) (c : Candidate Q) :
    Judged r centers ledger earliest? c.operation (verdict r centers ledger earliest? c) := by
  unfold verdict
  dsimp only
  cases earliest? with
  | none => exact .waits _ rfl
  | some earliest =>
    cases hknown : centers c.operation.workCenterId with
    | none => exact .unknown _ rfl hknown
    | some wc =>
      have hcenter : centers c.operation.workCenterId ≠ none := by simp [hknown]
      dsimp only
      split
      · next start skipped hstart =>
        refine .placed rfl hcenter ?_ rfl
        rintro ⟨wc', earliest', hwc, hafter, hnone⟩
        obtain rfl := Option.some.inj (hknown.symm.trans hwc)
        obtain rfl := Option.some.inj hafter
        rw [hstart] at hnone
        cases hnone
      · next hnone => exact .full _ rfl hcenter ⟨wc, earliest, hknown, rfl, hnone⟩

/-- The turn of a candidate in a run: it finds what the candidates before it have led to,
    and the answer keeps what it adds. -/
structure Turn (r : ScheduleRequest Q) (worksets : List (Workset Q)) (centers : WorkCenters Q)
    (ledger : Ledger Q) (pre : List (Candidate Q)) (c : Candidate Q) (post : List (Candidate Q))
    (s : State Q) : Prop where
  select : Candidate.select r worksets = pre ++ c :: post
  found : Tracks r centers ledger pre s
  earliest : earliest? r s c = earliestAfter r s.scheduled c.predecessor
  left : ∃ later, Continues r (c :: post) s (run r worksets centers ledger) later
  kept : ∃ placed reported,
    Adds post (take r centers s c) (run r worksets centers ledger) placed reported

theorem exists_turn [Quantity.Ordered Q] (ledger : Ledger Q)
    (distinct : ((worksets.flatMap (·.operations)).map (·.operationId)).Nodup)
    (keyed : ∀ id wc, centers id = some wc → wc.workCenterId = id) {c : Candidate Q}
    (hc : c ∈ Candidate.select r worksets) :
    ∃ pre post s, Turn r worksets centers ledger pre c post s := by
  obtain ⟨pre, post, hselect⟩ := List.append_of_mem hc
  obtain ⟨hpre, hbefore⟩ := tracks_before centers ledger distinct hselect
  have hrun : run r worksets centers ledger =
      (c :: post).foldl (take r centers) (pre.foldl (take r centers) ⟨ledger, [], [], []⟩) := by
    unfold run
    rw [hselect, List.foldl_append]
  refine ⟨pre, post, pre.foldl (take r centers) ⟨ledger, [], [], []⟩, hselect, hbefore,
    hbefore.earliest?_eq hpre c, ?_, ?_⟩
  · rw [hrun]
    exact exists_continues r centers _ _
  · rw [hrun]
    exact exists_adds keyed post _

section Turn

variable {pre post : List (Candidate Q)} {c : Candidate Q} {s : State Q} {w : Workset Q}
  (distinct : ((worksets.flatMap (·.operations)).map (·.operationId)).Nodup)
  (named : ∀ w ∈ worksets, w.Named) (h : Turn r worksets centers ledger pre c post s)

include distinct named h

/-- The earliest start at a turn is the one that the whole answer allows. -/
theorem Turn.earliest?_eq (hw : w ∈ worksets) (hcw : c ∈ Candidate.ofWorkset r w) :
    earliest? r s c =
      earliestAfter r (run r worksets centers ledger).scheduled c.predecessor := by
  obtain ⟨later, hcontinues⟩ := h.left
  have hfollows := Candidate.follows_of_mem_withPredecessors (Candidate.mem_ofWorkset hcw).2.2.2.2
  rw [h.earliest, hcontinues.scheduled]
  cases hb : c.predecessor with
  | none => rfl
  | some b =>
    rw [hb] at hfollows
    have ties : b.sequence = c.operation.sequence → b.orderId = c.operation.orderId := by
      intro _
      rw [named w hw b hfollows.mem_before, named w hw _ hfollows.mem]
    have hlater : ∀ q ∈ later, ∃ d ∈ c :: post, d.operation.operationId = q.operationId := by
      intro q hq
      obtain ⟨d, hd, hid, -⟩ := hcontinues.ofCandidate q hq
      exact ⟨d, hd, hid⟩
    simp only [earliestAfter, endOf_append_later distinct hw ties hcw hb h.select hlater]

/-- The placements found at a turn are of earlier turns, and the others are not. -/
theorem Turn.inTurn :
    ∃ later, (run r worksets centers ledger).scheduled = s.scheduled ++ later ∧
      (∀ p ∈ s.scheduled, InTurn r worksets p.operationId c.operation.operationId) ∧
      ∀ p ∈ later, InTurn r worksets c.operation.operationId p.operationId := by
  obtain ⟨later, hcontinues⟩ := h.left
  have hturns := Candidate.pairwise_inTurn (r := r) distinct named
  rw [List.pairwise_map, h.select, List.pairwise_append, List.pairwise_cons] at hturns
  obtain ⟨-, ⟨hpost, -⟩, hpre⟩ := hturns
  refine ⟨later, hcontinues.scheduled, ?_, ?_⟩
  · intro p hp
    obtain ⟨d, hd, _, _, _, _, fits⟩ := h.found.replay.exists_fits hp
    rw [fits.operationId]
    exact hpre d hd c List.mem_cons_self
  · intro p hp
    obtain ⟨d, hd, hid, -⟩ := hcontinues.ofCandidate p hp
    rw [← hid]
    rcases List.mem_cons.mp hd with rfl | hd
    · exact Candidate.inTurn_self distinct _
    · exact hpost d hd

end Turn

/-- What is decided at a turn stands in the answer. -/
theorem Turn.holds {pre post : List (Candidate Q)} {c : Candidate Q} {s : State Q}
    (h : Turn r worksets centers ledger pre c post s) :
    (schedule r worksets centers ledger).1.Holds
      (verdict r centers s.ledger (earliest? r s c) c) := by
  obtain ⟨placed, reported, hkept⟩ := h.kept
  have hscheduled := hkept.scheduled
  have hconflicts := hkept.conflicts
  rw [take_eq_settle] at hscheduled hconflicts
  cases hv : verdict r centers s.ledger (earliest? r s c) c with
  | ok p =>
    change p ∈ (run r worksets centers ledger).scheduled
    rw [hscheduled, hv]
    simp [State.settle, State.place]
  | error x =>
    change x ∈ (run r worksets centers ledger).conflicts
    rw [hconflicts, hv]
    simp [State.settle, State.report]

end FirstFit

/-- What was decided about an operation decides the reasons that the answer gives. -/
theorem ScheduleResult.rules_of_judged {answer : ScheduleResult Q} (once : answer.named.Nodup)
    {op : Operation Q} {before : Option (Operation Q)} {earlier later : List (Placement Q)}
    (scheduled : answer.scheduled = earlier ++ later)
    (earlierTurns : ∀ p ∈ earlier, InTurn r worksets p.operationId op.operationId)
    (laterTurns : ∀ p ∈ later, InTurn r worksets op.operationId p.operationId)
    {v : Except Conflict (Placement Q)}
    (judged : Judged r centers (ledger.bookAll earlier)
      (earliestAfter r answer.scheduled before) op v)
    (holds : answer.Holds v) :
    answer.Rules r worksets centers ledger op before := by
  have hwaits : earliestAfter r answer.scheduled before = none ↔
      KeepsWaiting answer.scheduled before := earliestAfter_eq_none_iff
  have hfree : ∀ earliest, earliestAfter r answer.scheduled before = some earliest →
      ¬ KeepsWaiting answer.scheduled before := by
    intro earliest hafter hkeeps
    rw [hwaits.mpr hkeeps] at hafter
    cases hafter
  cases judged with
  | waits detail after =>
    have hreports : ∀ reason, answer.Reports op reason ↔
        ConflictReason.predecessorUnscheduled = reason := fun _ => reports_iff once holds rfl
    have hkeeps := hwaits.mp after
    have hplaces := not_places once ((hreports _).mpr rfl)
    refine ⟨?_, ?_, earlier, later, scheduled, earlierTurns, laterTurns, ?_, ?_⟩
    · exact iff_of_true ((hreports _).mpr rfl) hkeeps
    · simp [hreports, hkeeps]
    · simp [hreports, IsFull, after]
    · simp [hplaces, hkeeps]
  | unknown detail after unknown =>
    have hreports : ∀ reason, answer.Reports op reason ↔
        ConflictReason.unknownWorkCenter = reason := fun _ => reports_iff once holds rfl
    have hplaces := not_places once ((hreports _).mpr rfl)
    refine ⟨?_, ?_, earlier, later, scheduled, earlierTurns, laterTurns, ?_, ?_⟩
    · simp [hreports, hfree _ after]
    · exact iff_of_true ((hreports _).mpr rfl) ⟨hfree _ after, unknown⟩
    · simp [hreports, IsFull, unknown]
    · simp [hplaces, unknown]
  | full detail after known full =>
    have hreports : ∀ reason, answer.Reports op reason ↔
        ConflictReason.noCapacityInHorizon = reason := fun _ => reports_iff once holds rfl
    have hplaces := not_places once ((hreports _).mpr rfl)
    refine ⟨?_, ?_, earlier, later, scheduled, earlierTurns, laterTurns, ?_, ?_⟩
    · simp [hreports, hfree _ after]
    · simp [hreports, known]
    · exact iff_of_true ((hreports _).mpr rfl) full
    · simp [hplaces, full]
  | placed after known room operationId =>
    have hplaces : answer.Places op := ⟨_, holds, operationId⟩
    have hreports : ∀ reason, ¬ answer.Reports op reason :=
      fun reason h => not_places once h hplaces
    refine ⟨?_, ?_, earlier, later, scheduled, earlierTurns, laterTurns, ?_, ?_⟩
    · exact iff_of_false (hreports _) (hfree _ after)
    · exact iff_of_false (hreports _) fun h => known h.2
    · exact iff_of_false (hreports _) room
    · exact iff_of_true hplaces ⟨hfree _ after, known, room⟩

/-- **One verdict for each candidate, with its reason.**  A run has one place in its answer
    for every operation that the request is about, and for nothing else, in the order of
    turns.  The operation directly before it, its work center and the days that earlier turns
    have left decide which place that is. -/
theorem schedule_verdicts [Quantity.Ordered Q] (r : ScheduleRequest Q)
    (worksets : List (Workset Q)) (centers : WorkCenters Q) (ledger : Ledger Q)
    (distinct : ((worksets.flatMap (·.operations)).map (·.operationId)).Nodup)
    (named : ∀ w ∈ worksets, w.Named)
    (keyed : ∀ id wc, centers id = some wc → wc.workCenterId = id) :
    (schedule r worksets centers ledger).1.Lists r worksets ∧
      ∀ w ∈ worksets, ∀ op, w.IsCandidate r op → ∃ before, w.Follows op before ∧
        (schedule r worksets centers ledger).1.Rules r worksets centers ledger op before := by
  have hlists : (schedule r worksets centers ledger).1.Lists r worksets :=
    lists_schedule distinct named keyed
  refine ⟨hlists, ?_⟩
  intro w hw op hop
  obtain ⟨c, hc, hcw, rfl⟩ := Candidate.exists_mem_select hw hop
  have hfollows := Candidate.follows_of_mem_withPredecessors (Candidate.mem_ofWorkset hcw).2.2.2.2
  obtain ⟨pre, post, s, hturn⟩ := exists_turn ledger distinct keyed hc
  obtain ⟨later, hscheduled, hearlier, hlater⟩ := hturn.inTurn distinct named
  have hearliest : earliest? r s c = earliestAfter r
      (schedule r worksets centers ledger).1.scheduled c.predecessor :=
    hturn.earliest?_eq distinct named hw hcw
  have hjudged := judged_verdict r centers s.ledger (earliest? r s c) c
  have hholds := hturn.holds
  rw [hturn.found.ledger_eq, hearliest] at hjudged hholds
  exact ⟨c.predecessor, hfollows, ScheduleResult.rules_of_judged hlists.once hscheduled hearlier
    hlater hjudged hholds⟩

/-! ### Three orders on a lathe, for one day -/

/-- An order that begins on a mill. -/
def stuckOrder : Workset Float :=
  turns "B" [{ turn "B" 10 .pending none with workCenterId := "MILL" }, turn "B" 20 .pending none]

/-- An order whose first operation is ready on the lathe. -/
def readyOrder : Workset Float := turns "W" [turn "W" 30 .ready none, turn "W" 40 .pending none]

/-- An order of six hours on the lathe. -/
def longOrder : Workset Float := turns "L" [{ turn "L" 50 .ready none with runHours := 6 }]

def oneDayOrders : List (Workset Float) := [stuckOrder, readyOrder, longOrder]

/-- A run for Monday, in which only the lathe is known. -/
def oneDayRun (worksets : List (Workset Float)) : ScheduleResult Float :=
  (schedule mondayRequest worksets (.ofList [lathe]) (.empty saturday mondayRequest.windowEnd)).1

theorem select_oneDay {worksets : List (Workset Float)}
    (among : ∀ w ∈ worksets, w ∈ oneDayOrders)
    (sorted : (worksets.flatMap turnCandidates).Pairwise fun a b =>
      (Candidate.compareTurn false a b != .gt) = true) :
    Candidate.select mondayRequest worksets = worksets.flatMap turnCandidates := by
  apply Candidate.select_of_sorted _ sorted
  refine List.flatMap_congr fun w hw => ?_
  have hw := among w hw
  simp only [oneDayOrders, List.mem_cons, List.not_mem_nil, or_false] at hw
  rcases hw with rfl | rfl | rfl <;> exact Candidate.ofWorkset_of_sorted (by decide)

/-- Every reason occurs.  The last order would have Monday if it were alone; four of the
    eight hours have been booked by another one. -/
theorem schedule_verdicts_oneDay :
    (((oneDayOrders.flatMap (·.operations)).map (·.operationId)).Nodup ∧
      (∀ w ∈ oneDayOrders, w.Named) ∧
      ∀ id wc, WorkCenters.ofList [lathe] id = some wc → wc.workCenterId = id) ∧
    (oneDayRun oneDayOrders).scheduled.map (·.operationId) = ["W/30"] ∧
    (oneDayRun oneDayOrders).conflicts.map (fun x => (x.operationId, x.reason)) =
      [("B/10", .unknownWorkCenter), ("B/20", .predecessorUnscheduled),
        ("W/40", .noCapacityInHorizon), ("L/50", .noCapacityInHorizon)] ∧
    (oneDayRun [longOrder]).scheduled.map (·.operationId) = ["L/50"] ∧
    (oneDayRun oneDayOrders).Lists mondayRequest oneDayOrders ∧
    ∀ w ∈ oneDayOrders, ∀ op, w.IsCandidate mondayRequest op →
      ∃ before, w.Follows op before ∧
        (oneDayRun oneDayOrders).Rules mondayRequest oneDayOrders (.ofList [lathe])
          (.empty saturday mondayRequest.windowEnd) op before := by
  have distinct : ((oneDayOrders.flatMap (·.operations)).map (·.operationId)).Nodup := by decide
  have named : ∀ w ∈ oneDayOrders, w.Named := by
    unfold Workset.Named
    decide
  have keyed := keyed_ofList [lathe]
  refine ⟨⟨distinct, named, keyed⟩, ?_, ?_, ?_,
    schedule_verdicts mondayRequest oneDayOrders (.ofList [lathe])
      (.empty saturday mondayRequest.windowEnd) distinct named keyed⟩
  · rw [oneDayRun, FirstFit.schedule_of_select (select_oneDay (fun _ => id) (by decide))]
    decide +kernel
  · rw [oneDayRun, FirstFit.schedule_of_select (select_oneDay (fun _ => id) (by decide))]
    decide +kernel
  · rw [oneDayRun,
      FirstFit.schedule_of_select (select_oneDay (by simp [oneDayOrders]) (by decide))]
    decide +kernel

end Workshop
