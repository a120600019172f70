/-
  Workshop/Proofs/Schedule/OtherOrders.lean
  =========================================
  **Orders that do not interfere.**  A further order changes nothing for the others when
  its turn comes after all of theirs, when it uses no work center that they use, or when
  none of its operations finds a place (`schedule_filter_of_apart`).

  A run with the further order takes the candidates of the others in the same turns, with
  its own between them.  What the run has answered about the others, at every turn, is what
  a run without the further order has answered (`foldl_filter`).  Two things carry this: an
  operation waits for another one of its own order, and the work center of a candidate of
  the others has no placement of the further order yet (`Spares`).
-/
import Workshop.Proofs.Schedule.SecondRun
import Workshop.Proofs.Schedule.Verdict
import Mathlib.Data.List.Find

namespace Workshop

variable {Q : Type} [Quantity Q]

/-! ### Leaving placements out -/

/-- Bookings at other work centers may be left out. -/
theorem Ledger.committed_bookAll_filter (l : Ledger Q) {ps : List (Placement Q)}
    {keep : Placement Q → Bool} {id : String}
    (elsewhere : ∀ p ∈ ps, keep p = false → p.workCenterId ≠ id) (d : Date) :
    (l.bookAll (ps.filter keep)).committed id d = (l.bookAll ps).committed id d := by
  induction ps using List.reverseRecOn with
  | nil => rfl
  | append_singleton ps p ih =>
    have hps := ih fun q hq => elsewhere q (List.mem_append_left _ hq)
    rw [List.filter_append, bookAll_append, committed_book]
    cases hp : keep p with
    | false =>
      have hne := elsewhere p (by simp) hp
      rw [if_neg fun h => hne h.2.1, ← hps]
      simp [hp]
    | true =>
      have haccepts : (l.bookAll (ps.filter keep)).accepts p.start p.hours =
          (l.bookAll ps).accepts p.start p.hours := by
        simp only [accepts, contains, bookAll_window]
      have hlast : [p].filter keep = [p] := by simp [hp]
      rw [hlast, bookAll_append, committed_book, haccepts, hps]
      split
      · next hbooked =>
        obtain ⟨-, rfl, rfl⟩ := hbooked
        rw [hps]
      · rfl

namespace FirstFit

omit [Quantity Q] in
/-- Placements of other operations may be left out. -/
theorem endOf_filter {ps : List (Placement Q)} {keep : Placement Q → Bool} {b : Operation Q}
    (kept : ∀ p ∈ ps, p.operationId = b.operationId → keep p = true) :
    endOf (ps.filter keep) b = endOf ps b := by
  have hfind : (ps.filter keep).find? (·.operationId == b.operationId) =
      ps.find? (·.operationId == b.operationId) := by
    rw [List.find?_filter]
    apply List.find?_congr
    intro p hp
    by_cases hid : p.operationId = b.operationId
    · simp [hid, kept p hp hid]
    · simp [hid]
  unfold endOf
  rw [hfind]

variable {r : ScheduleRequest Q} {centers : WorkCenters Q} {ledger : Ledger Q}
  {cs cs' : List (Candidate Q)} {s s' : State Q} {c : Candidate Q} {keep : String → Bool}

/-! ### What a run answers about some orders -/

/-- One state has answered what another one has answered about some orders. -/
structure AnswersFor (keep : String → Bool) (s s' : State Q) : Prop where
  scheduled : s'.scheduled = s.scheduled.filter fun p => keep p.orderId
  conflicts : s'.conflicts = s.conflicts.filter fun x => keep x.orderId

theorem AnswersFor.take_both (h : AnswersFor keep s s') (kept : keep c.operation.orderId = true)
    (same : verdict r centers s'.ledger (earliest? r s' c) c =
      verdict r centers s.ledger (earliest? r s c) c) :
    AnswersFor keep (take r centers s c) (take r centers s' c) := by
  have hnamed := orderId_of_verdict r centers s.ledger (earliest? r s c) c
  rw [take_eq_settle, take_eq_settle, same]
  cases hv : verdict r centers s.ledger (earliest? r s c) c with
  | ok p =>
    rw [hv] at hnamed
    dsimp only at hnamed
    constructor
    · simp [State.settle, State.place, h.scheduled, hnamed, kept]
    · exact h.conflicts
  | error x =>
    rw [hv] at hnamed
    dsimp only at hnamed
    constructor
    · exact h.scheduled
    · simp [State.settle, State.report, h.conflicts, hnamed, kept]

theorem AnswersFor.take_left (h : AnswersFor keep s s') (out : keep c.operation.orderId = false) :
    AnswersFor keep (take r centers s c) s' := by
  have hnamed := orderId_of_verdict r centers s.ledger (earliest? r s c) c
  rw [take_eq_settle]
  cases hv : verdict r centers s.ledger (earliest? r s c) c with
  | ok p =>
    rw [hv] at hnamed
    dsimp only at hnamed
    constructor
    · simp [State.settle, State.place, h.scheduled, hnamed, out]
    · exact h.conflicts
  | error x =>
    rw [hv] at hnamed
    dsimp only at hnamed
    constructor
    · exact h.scheduled
    · simp [State.settle, State.report, h.conflicts, hnamed, out]

/-- A placement that is made at the turn of the first candidate, of an order that is left
    out, is not at the work center of the second one. -/
def Spares (keep : String → Bool) (centers : WorkCenters Q) (ps : List (Placement Q))
    (c d : Candidate Q) : Prop :=
  keep c.operation.orderId = false → keep d.operation.orderId = true →
    ∀ p ∈ ps, p.operationId = c.operation.operationId →
      ∀ wc, centers d.operation.workCenterId = some wc → p.workCenterId ≠ wc.workCenterId

/-- The operation before the candidate is no candidate of an order that is left out. -/
def WaitsApart (keep : String → Bool) (cs : List (Candidate Q)) (c : Candidate Q) : Prop :=
  ∀ b, c.predecessor = some b → ∀ d ∈ cs, d.operation.operationId = b.operationId →
    keep d.operation.orderId = true

/-- Without the other orders a candidate may start as early as with them. -/
theorem earliest?_alone {ledger' : Ledger Q} (hn : (cs.map (·.operation.operationId)).Nodup)
    (hn' : (cs'.map (·.operation.operationId)).Nodup) (hs : Tracks r centers ledger cs s)
    (hs' : Tracks r centers ledger' cs' s') (answers : AnswersFor keep s s')
    (apart : WaitsApart keep cs c) : earliest? r s' c = earliest? r s c := by
  rw [hs.earliest?_eq hn, hs'.earliest?_eq hn', answers.scheduled]
  unfold earliestAfter
  cases hb : c.predecessor with
  | none => rfl
  | some b =>
    dsimp only
    rw [endOf_filter]
    intro p hp hid
    obtain ⟨d, hd, _, _, _, _, fits⟩ := hs.replay.exists_fits hp
    rw [fits.orderId]
    exact apart b hb d hd (fits.operationId.symm.trans hid)

/-- Without the other orders the same is decided about a candidate. -/
theorem verdict_alone (hn : (cs.map (·.operation.operationId)).Nodup)
    (hn' : (cs'.map (·.operation.operationId)).Nodup) (hs : Tracks r centers ledger cs s)
    (hs' : Tracks r centers ledger cs' s') (answers : AnswersFor keep s s')
    (apart : WaitsApart keep cs c) (kept : keep c.operation.orderId = true)
    (spared : ∀ d ∈ cs, Spares keep centers s.scheduled d c) :
    verdict r centers s'.ledger (earliest? r s' c) c =
      verdict r centers s.ledger (earliest? r s c) c := by
  rw [earliest?_alone hn hn' hs hs' answers apart]
  apply verdict_congr
  intro wc hwc day _ _
  rw [hs.ledger_eq, hs'.ledger_eq, answers.scheduled, Ledger.committed_bookAll_filter]
  intro p hp hout
  obtain ⟨d, hd, _, _, _, _, fits⟩ := hs.replay.exists_fits hp
  rw [fits.orderId] at hout
  exact spared d hd hout kept p hp fits.operationId wc hwc

variable [Quantity.Ordered Q]

/-- A run without some orders answers, at every turn, what the run with them has answered
    about the rest. -/
theorem foldl_filter (hn : (cs.map (·.operation.operationId)).Nodup)
    (apart : ∀ c ∈ cs, keep c.operation.orderId = true → WaitsApart keep cs c)
    (spared : cs.Pairwise
      (Spares keep centers (cs.foldl (take r centers) ⟨ledger, [], [], []⟩).scheduled)) :
    AnswersFor keep (cs.foldl (take r centers) ⟨ledger, [], [], []⟩)
      ((cs.filter fun c => keep c.operation.orderId).foldl (take r centers)
        ⟨ledger, [], [], []⟩) := by
  induction cs using List.reverseRecOn with
  | nil => exact ⟨rfl, rfl⟩
  | append_singleton cs c ih =>
    rw [List.map_append] at hn
    have hncs := hn.of_append_left
    have hmem : ∀ {d}, d ∈ cs → d ∈ cs ++ [c] := List.mem_append_left [c]
    rw [List.foldl_append, List.foldl_cons, List.foldl_nil] at spared ⊢
    -- what has been placed before this turn is among what has been placed after it
    have hgrows : ∀ p ∈ (cs.foldl (take r centers) ⟨ledger, [], [], []⟩).scheduled,
        p ∈ (take r centers (cs.foldl (take r centers) ⟨ledger, [], [], []⟩) c).scheduled := by
      intro p hp
      rw [take_eq_settle, scheduled_settle]
      exact List.mem_append_left _ hp
    have hspared := spared.imp fun h hout hin p hp => h hout hin p (hgrows p hp)
    rw [List.pairwise_append] at hspared
    have answers := ih hncs
      (fun d hd hin b hb e he => apart d (hmem hd) hin b hb e (hmem he)) hspared.1
    rw [List.filter_append, List.foldl_append]
    cases hin : keep c.operation.orderId with
    | false =>
      have hlast : [c].filter (fun c => keep c.operation.orderId) = [] := by simp [hin]
      rw [hlast]
      exact answers.take_left hin
    | true =>
      have hlast : [c].filter (fun c => keep c.operation.orderId) = [c] := by simp [hin]
      have hn' : ((cs.filter fun c => keep c.operation.orderId).map
          (·.operation.operationId)).Nodup := hncs.sublist (List.filter_sublist.map _)
      rw [hlast]
      apply answers.take_both hin
      exact verdict_alone hncs hn' (tracks_foldl hncs) (tracks_foldl hn') answers
        (fun b hb e he => apart c (by simp) hin b hb e (hmem he)) hin
        fun d hd => hspared.2.2 d hd c List.mem_cons_self

end FirstFit

/-! ### One order more -/

/-- The order is the one of a workset of the list. -/
def Workset.isAmong (worksets : List (Workset Q)) (orderId : String) : Bool :=
  worksets.any (·.order.orderId == orderId)

omit [Quantity Q] in
theorem Workset.isAmong_iff {worksets : List (Workset Q)} {orderId : String} :
    isAmong worksets orderId = true ↔ ∃ w ∈ worksets, w.order.orderId = orderId := by
  simp [isAmong]

/-- The operations of the workset carry the identifier of its order. -/
def Workset.Named (w : Workset Q) : Prop := ∀ op ∈ w.operations, op.orderId = w.order.orderId

namespace Candidate

variable {r : ScheduleRequest Q} {before after : List (Workset Q)} {added : Workset Q}
  {c : Candidate Q}

omit [Quantity Q] in
theorem orderId_of_mem_ofWorkset {w : Workset Q} (named : w.Named) (h : c ∈ ofWorkset r w) :
    c.operation.orderId = w.order.orderId :=
  named _ (follows_of_mem_withPredecessors (mem_ofWorkset h).2.2.2.2).mem

omit [Quantity Q] in
/-- Whether a candidate is one of the others, by the workset that it comes from. -/
theorem exists_of_mem_select_added
    (orders : ∀ w ∈ before ++ after, w.order.orderId ≠ added.order.orderId)
    (named : ∀ w ∈ before ++ added :: after, w.Named)
    (h : c ∈ select r (before ++ added :: after)) :
    ∃ w, w.Follows c.operation c.predecessor ∧ c ∈ ofWorkset r w ∧ w.Named ∧
      (w ∈ before ++ after ∧ Workset.isAmong (before ++ after) c.operation.orderId = true ∨
        w = added ∧ Workset.isAmong (before ++ after) c.operation.orderId = false) := by
  obtain ⟨w, hw, hc, hfollows⟩ := exists_of_mem_select h
  have hid := orderId_of_mem_ofWorkset (named w hw) hc
  refine ⟨w, hfollows, hc, named w hw, ?_⟩
  have hmem : w ∈ before ++ after ∨ w = added := by
    simp only [List.mem_append, List.mem_cons] at hw ⊢
    tauto
  rcases hmem with hothers | rfl
  · exact Or.inl ⟨hothers, Workset.isAmong_iff.mpr ⟨w, hothers, hid.symm⟩⟩
  · refine Or.inr ⟨rfl, ?_⟩
    rw [Bool.eq_false_iff, ne_eq, Workset.isAmong_iff, hid]
    rintro ⟨v, hv, hvw⟩
    exact orders v hv hvw

omit [Quantity Q] in
theorem select_filter
    (orders : ∀ w ∈ before ++ after, w.order.orderId ≠ added.order.orderId)
    (named : ∀ w ∈ before ++ added :: after, w.Named) :
    select r (before ++ after) = (select r (before ++ added :: after)).filter
      fun c => Workset.isAmong (before ++ after) c.operation.orderId := by
  have hothers : ∀ w ∈ before ++ after, w ∈ before ++ added :: after := by
    intro w hw
    simp only [List.mem_append, List.mem_cons] at hw ⊢
    tauto
  have hkept : ∀ ws : List (Workset Q), (∀ w ∈ ws, w ∈ before ++ after) →
      ((ws.flatMap (ofWorkset r)).filter fun c =>
        Workset.isAmong (before ++ after) c.operation.orderId) = ws.flatMap (ofWorkset r) := by
    intro ws hws
    rw [List.filter_eq_self]
    intro c hc
    obtain ⟨w, hw, hcw⟩ := List.mem_flatMap.mp hc
    have hid := orderId_of_mem_ofWorkset (named w (hothers w (hws w hw))) hcw
    exact Workset.isAmong_iff.mpr ⟨w, hws w hw, hid.symm⟩
  have hadded : ((ofWorkset r added).filter fun c =>
      Workset.isAmong (before ++ after) c.operation.orderId) = [] := by
    rw [List.filter_eq_nil_iff]
    intro c hc hin
    obtain ⟨w, hw, hid⟩ := Workset.isAmong_iff.mp hin
    rw [orderId_of_mem_ofWorkset (named added (by simp)) hc] at hid
    exact orders w hw hid
  unfold select
  rw [filter_mergeSort (compareTurn_trans _) (compareTurn_total _), List.flatMap_append,
    List.flatMap_append, List.flatMap_cons, List.filter_append, List.filter_append, hadded,
    hkept before fun w => List.mem_append_left after,
    hkept after fun w => List.mem_append_right before, List.nil_append]

omit [Quantity Q] in
/-- A candidate of a lower priority has no turn before one of a higher priority. -/
theorem priority_le_of_compareTurn {optimizeSetup : Bool} {c d : Candidate Q}
    (h : (compareTurn optimizeSetup c d != .gt) = true) : c.priority ≤ d.priority := by
  by_contra hlt
  have hgt : compare c.priority d.priority = .gt := Int.compare_eq_gt.mpr (by omega)
  unfold compareTurn at h
  rw [hgt] at h
  cases h

end Candidate

namespace FirstFit

variable {r : ScheduleRequest Q} {before after : List (Workset Q)} {added : Workset Q}
  {centers : WorkCenters Q} {ps : List (Placement Q)}

/-- Why a further order changes nothing for the others, when a run with it makes these
    placements.  Work centers are told apart by their own identifiers. -/
inductive Apart (centers : WorkCenters Q) (others : List (Workset Q)) (added : Workset Q)
    (ps : List (Placement Q)) : Prop
  | later (priority : ∀ w ∈ others, w.order.priority < added.order.priority)
  | elsewhere (workCenters : ∀ w ∈ others, ∀ op ∈ w.operations, ∀ op' ∈ added.operations,
      ∀ wc, centers op.workCenterId = some wc → ∀ wc', centers op'.workCenterId = some wc' →
        wc.workCenterId ≠ wc'.workCenterId)
  | nowhere (unplaced : ∀ p ∈ ps, ∀ op ∈ added.operations, p.operationId ≠ op.operationId)

omit [Quantity Q] in
/-- Where each work center is known by its own identifier, it is enough that the operations
    name different ones. -/
theorem Apart.of_names {others : List (Workset Q)}
    (keyed : ∀ id wc, centers id = some wc → wc.workCenterId = id)
    (names : ∀ w ∈ others, ∀ op ∈ w.operations, ∀ op' ∈ added.operations,
      op.workCenterId ≠ op'.workCenterId) : Apart centers others added ps := by
  refine .elsewhere fun w hw op hop op' hop' wc hwc wc' hwc' => ?_
  rw [keyed _ _ hwc, keyed _ _ hwc']
  exact names w hw op hop op' hop'

omit [Quantity Q] in
/-- No operation of an order that is kept waits for one of an order that is left out. -/
theorem waitsApart_of_mem {worksets : List (Workset Q)} {keep : String → Bool}
    (distinct : ((worksets.flatMap (·.operations)).map (·.operationId)).Nodup)
    (named : ∀ w ∈ worksets, w.Named) {c : Candidate Q}
    (hc : c ∈ Candidate.select r worksets) (hin : keep c.operation.orderId = true) :
    WaitsApart keep (Candidate.select r worksets) c := by
  intro b hb d hd hid
  obtain ⟨w, hw, hcw, hfollows⟩ := Candidate.exists_of_mem_select hc
  obtain ⟨v, hv, -, hfollows'⟩ := Candidate.exists_of_mem_select hd
  rw [hb] at hfollows
  have hop : d.operation ∈ worksets.flatMap (·.operations) :=
    List.mem_flatMap.mpr ⟨v, hv, hfollows'.mem⟩
  have hbefore : b ∈ worksets.flatMap (·.operations) :=
    List.mem_flatMap.mpr ⟨w, hw, hfollows.mem_before⟩
  rw [List.inj_on_of_nodup_map distinct hop hbefore hid, named w hw b hfollows.mem_before,
    ← Candidate.orderId_of_mem_ofWorkset (named w hw) hcw]
  exact hin

/-- The placements of the further order are out of the way of the others. -/
theorem pairwise_spares {ledger : Ledger Q}
    (distinct : (((before ++ added :: after).flatMap (·.operations)).map (·.operationId)).Nodup)
    (orders : ∀ w ∈ before ++ after, w.order.orderId ≠ added.order.orderId)
    (named : ∀ w ∈ before ++ added :: after, w.Named)
    (replay : Replay r centers ledger (Candidate.select r (before ++ added :: after)) ps)
    (apart : Apart centers (before ++ after) added ps) :
    (Candidate.select r (before ++ added :: after)).Pairwise
      (Spares (Workset.isAmong (before ++ after)) centers ps) := by
  have hsorted := List.pairwise_mergeSort (Candidate.compareTurn_trans r.optimizeSetup)
    (Candidate.compareTurn_total _) ((before ++ added :: after).flatMap (Candidate.ofWorkset r))
  refine List.Pairwise.imp_of_mem ?_ hsorted
  intro c d hc hd hturn hout hin p hp hid wc hwc
  obtain ⟨v, hcv, hcfrom, -, ⟨-, hc'⟩ | ⟨rfl, -⟩⟩ :=
    Candidate.exists_of_mem_select_added orders named hc
  · rw [hc'] at hout
    cases hout
  obtain ⟨w, hdw, hdfrom, -, ⟨hw, -⟩ | ⟨-, hd'⟩⟩ :=
    Candidate.exists_of_mem_select_added orders named hd
  case inr =>
    rw [hd'] at hin
    cases hin
  cases apart with
  | later priority =>
    have hle := Candidate.priority_le_of_compareTurn hturn
    rw [(Candidate.mem_ofWorkset hcfrom).1, (Candidate.mem_ofWorkset hdfrom).1] at hle
    exact absurd (priority w hw) (Int.not_lt.mpr hle)
  | elsewhere workCenters =>
    obtain ⟨e, he, wc', _, _, known, fits⟩ := replay.exists_fits hp
    obtain rfl : e = c := List.inj_on_of_nodup_map (Candidate.nodup_select distinct) he hc
      (fits.operationId.symm.trans hid)
    rw [fits.workCenterId]
    exact (workCenters w hw _ hdw.mem _ hcv.mem _ hwc _ known).symm
  | nowhere unplaced => exact absurd hid (unplaced p hp _ hcv.mem)

end FirstFit

open FirstFit

/-- **Orders that do not interfere.**  A further order changes nothing in what a run answers
    about the others. -/
theorem schedule_filter_of_apart [Quantity.Ordered Q] (r : ScheduleRequest Q)
    (before after : List (Workset Q)) (added : Workset Q) (centers : WorkCenters Q)
    (ledger : Ledger Q)
    (distinct : (((before ++ added :: after).flatMap (·.operations)).map (·.operationId)).Nodup)
    (orders : ∀ w ∈ before ++ after, w.order.orderId ≠ added.order.orderId)
    (named : ∀ w ∈ before ++ added :: after, w.Named)
    (apart : Apart centers (before ++ after) added
      (schedule r (before ++ added :: after) centers ledger).1.scheduled) :
    let whole := (schedule r (before ++ added :: after) centers ledger).1
    let alone := (schedule r (before ++ after) centers ledger).1
    (whole.scheduled.filter fun p => Workset.isAmong (before ++ after) p.orderId) =
        alone.scheduled ∧
      (whole.conflicts.filter fun x => Workset.isAmong (before ++ after) x.orderId) =
        alone.conflicts := by
  have hn := Candidate.nodup_select (r := r) distinct
  have hrun : Tracks r centers ledger (Candidate.select r (before ++ added :: after))
      (run r (before ++ added :: after) centers ledger) := tracks_foldl hn
  have hanswers := foldl_filter hn (fun c => waitsApart_of_mem distinct named)
    (pairwise_spares distinct orders named hrun.replay apart)
  rw [← Candidate.select_filter orders named] at hanswers
  exact ⟨hanswers.scheduled.symm, hanswers.conflicts.symm⟩

/-! ### An order on a mill -/

/-- A mill that runs eight hours a day. -/
def mill : WorkCenter Float := { lathe with workCenterId := "MILL", code := "M1", name := "Mill" }

/-- An order for the lathe. -/
def latheOrder : Workset Float := turns "W" [turn "W" 10 .pending none, turn "W" 20 .pending none]

/-- An order for the mill, of the same priority. -/
def millOrder : Workset Float :=
  turns "M" [{ turn "M" 10 .pending none with workCenterId := "MILL" }]

def millRun (worksets : List (Workset Float)) : ScheduleResult Float :=
  (schedule saturdayRequest worksets (.ofList [lathe, mill])
    (.empty saturday saturdayRequest.windowEnd)).1

theorem select_millOrder :
    Candidate.select saturdayRequest [millOrder, latheOrder] =
      turnCandidates millOrder ++ turnCandidates latheOrder := by
  apply Candidate.select_of_sorted
  · rw [List.flatMap_cons, List.flatMap_singleton, Candidate.ofWorkset_of_sorted (by decide),
      Candidate.ofWorkset_of_sorted (by decide)]
    rfl
  · decide

/-- The mill has its turn first, but the lathe does not wait for it. -/
theorem schedule_filter_of_apart_mill :
    ((([millOrder, latheOrder].flatMap (·.operations)).map (·.operationId)).Nodup ∧
      (∀ w ∈ [millOrder, latheOrder], w.Named) ∧
      Apart (.ofList [lathe, mill]) [latheOrder] millOrder
        (millRun [millOrder, latheOrder]).scheduled) ∧
    (millRun [millOrder, latheOrder]).scheduled.map (fun p => (p.operationId, p.start.day)) =
      [("M/10", 5), ("W/10", 5), ("W/20", 6)] ∧
    ((millRun [millOrder, latheOrder]).scheduled.filter fun p =>
        Workset.isAmong [latheOrder] p.orderId) = (millRun [latheOrder]).scheduled ∧
      ((millRun [millOrder, latheOrder]).conflicts.filter fun x =>
        Workset.isAmong [latheOrder] x.orderId) = (millRun [latheOrder]).conflicts := by
  have distinct : (([millOrder, latheOrder].flatMap (·.operations)).map (·.operationId)).Nodup := by
    decide
  have named : ∀ w ∈ [millOrder, latheOrder], w.Named := by
    intro w hw op hop
    simp only [List.mem_cons, List.not_mem_nil, or_false] at hw
    rcases hw with rfl | rfl
    · obtain rfl := List.mem_singleton.mp hop
      rfl
    · simp only [latheOrder, turns, List.mem_cons, List.not_mem_nil, or_false] at hop
      rcases hop with rfl | rfl <;> rfl
  have apart : Apart (.ofList [lathe, mill]) [latheOrder] millOrder
      (millRun [millOrder, latheOrder]).scheduled :=
    .of_names (keyed_ofList [lathe, mill]) (by decide)
  refine ⟨⟨distinct, named, apart⟩, ?_, ?_⟩
  · rw [millRun, schedule_of_select select_millOrder]
    decide +kernel
  · exact schedule_filter_of_apart saturdayRequest [] [latheOrder] millOrder _ _ distinct
      (by decide) named apart

end Workshop
