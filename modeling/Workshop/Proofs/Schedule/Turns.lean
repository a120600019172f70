/-
  Workshop/Proofs/Schedule/Turns.lean
  ===================================
  **Whose turn it is.**  The candidates of a run are operations of its worksets, each with
  the operation before it in its order (`exists_of_mem_select`).  Operations with distinct
  identifiers make candidates with distinct identifiers (`nodup_select`).

  The order of turns is a total preorder (`compareTurn_trans`, `compareTurn_total`), so the
  sort keeps candidates of equal turns as they were.  That is why an operation always has
  its turn after the one before it (`before_of_predecessor`).

  A run takes the candidates one after the other, so where their order is known it needs no
  sorting (`FirstFit.schedule_of_select`).
-/
import Workshop.Schedule.FirstFit
import Mathlib.Data.List.Flatten
import Mathlib.Data.List.Nodup
import Mathlib.Data.List.Perm.Basic
import Mathlib.Data.List.Sort

namespace Workshop

variable {Q : Type}

/-! ### The operations of an order in sequence -/

/-- The operations of an order by sequence number. -/
def Workset.inSequence (w : Workset Q) : List (Operation Q) :=
  w.operations.mergeSort fun a b => decide (a.sequence ≤ b.sequence)

/-- The operation stands directly behind another one in the sequence, or at its head. -/
def Workset.Follows (w : Workset Q) (op : Operation Q) : Option (Operation Q) → Prop
  | none => ∃ later, w.inSequence = op :: later
  | some before => ∃ earlier later, w.inSequence = earlier ++ before :: op :: later

theorem Workset.mem_inSequence {w : Workset Q} {op : Operation Q} :
    op ∈ w.inSequence ↔ op ∈ w.operations := List.mem_mergeSort

theorem Operation.sequence_trans (a b c : Operation Q)
    (hab : decide (a.sequence ≤ b.sequence) = true)
    (hbc : decide (b.sequence ≤ c.sequence) = true) : decide (a.sequence ≤ c.sequence) = true :=
  decide_eq_true (Int.le_trans (of_decide_eq_true hab) (of_decide_eq_true hbc))

theorem Operation.sequence_total (a b : Operation Q) :
    (decide (a.sequence ≤ b.sequence) || decide (b.sequence ≤ a.sequence)) = true := by
  simpa using Int.le_total a.sequence b.sequence

theorem Workset.sorted_inSequence (w : Workset Q) :
    w.inSequence.Pairwise fun a b => a.sequence ≤ b.sequence :=
  (List.pairwise_mergeSort Operation.sequence_trans Operation.sequence_total _).imp
    of_decide_eq_true

theorem Workset.Follows.mem {w : Workset Q} {op : Operation Q} {before : Option (Operation Q)}
    (h : w.Follows op before) : op ∈ w.operations := by
  rw [← mem_inSequence]
  cases before with
  | none =>
    obtain ⟨later, h⟩ := h
    simp [h]
  | some b =>
    obtain ⟨earlier, later, h⟩ := h
    simp [h]

theorem Workset.Follows.mem_before {w : Workset Q} {op b : Operation Q}
    (h : w.Follows op (some b)) : b ∈ w.operations := by
  obtain ⟨earlier, later, h⟩ := h
  rw [← mem_inSequence, h]
  simp

theorem Workset.Follows.sequence_le {w : Workset Q} {op b : Operation Q}
    (h : w.Follows op (some b)) : b.sequence ≤ op.sequence := by
  obtain ⟨earlier, later, h⟩ := h
  have hsorted := w.sorted_inSequence
  rw [h, List.pairwise_append, List.pairwise_cons] at hsorted
  exact hsorted.2.1.1 op List.mem_cons_self

namespace Candidate

theorem withPredecessors_append (first : Option (Operation Q)) (xs ys : List (Operation Q))
    (x : Operation Q) : withPredecessors first (xs ++ x :: ys) =
      withPredecessors first (xs ++ [x]) ++ withPredecessors (some x) ys := by
  induction xs generalizing first with
  | nil => rfl
  | cons z zs ih => simp [withPredecessors, ih]

theorem map_fst_withPredecessors (first : Option (Operation Q)) (ops : List (Operation Q)) :
    (withPredecessors first ops).map Prod.fst = ops := by
  induction ops generalizing first with
  | nil => rfl
  | cons op ops ih => simp [withPredecessors, ih]

/-- An operation is paired with the one directly before it. -/
theorem split_of_mem_withPredecessors {first : Option (Operation Q)}
    {ops : List (Operation Q)} {p : Operation Q × Option (Operation Q)}
    (h : p ∈ withPredecessors first ops) :
    (∃ later, ops = p.1 :: later ∧ p.2 = first) ∨
      ∃ earlier b later, ops = earlier ++ b :: p.1 :: later ∧ p.2 = some b := by
  induction ops generalizing first with
  | nil => cases h
  | cons op ops ih =>
    rcases List.mem_cons.mp h with rfl | h
    · exact Or.inl ⟨ops, rfl, rfl⟩
    · rcases ih h with ⟨later, rfl, hb⟩ | ⟨earlier, b, later, rfl, hb⟩
      · exact Or.inr ⟨[], op, later, rfl, hb⟩
      · exact Or.inr ⟨op :: earlier, b, later, rfl, hb⟩

/-- The operation before another one has its own pair ahead of the pair of that one. -/
theorem pair_sublist_withPredecessors {ops : List (Operation Q)} {op b : Operation Q}
    (h : (op, some b) ∈ withPredecessors none ops) :
    ∃ before, [(b, before), (op, some b)].Sublist (withPredecessors none ops) := by
  rcases split_of_mem_withPredecessors h with ⟨later, -, hb⟩ | ⟨earlier, b', later, hops, hb⟩
  · cases hb
  · obtain rfl : b = b' := Option.some.inj hb
    have hmem : b ∈ (withPredecessors none (earlier ++ [b])).map Prod.fst := by
      rw [map_fst_withPredecessors]
      simp
    obtain ⟨⟨x, before⟩, hx, hxb⟩ := List.mem_map.mp hmem
    cases hxb
    refine ⟨before, ?_⟩
    rw [hops, withPredecessors_append]
    exact (List.singleton_sublist.mpr hx).append (List.singleton_sublist.mpr List.mem_cons_self)

/-! ### The candidates of a run -/

theorem mem_ofWorkset {r : ScheduleRequest Q} {w : Workset Q} {c : Candidate Q}
    (h : c ∈ ofWorkset r w) : c.priority = w.order.priority ∧ c.dueDate = w.order.dueDate ∧
      c.partId = w.order.partId ∧ isEligible r c.operation = true ∧
        (c.operation, c.predecessor) ∈ withPredecessors none w.inSequence := by
  unfold ofWorkset at h
  split at h
  · obtain ⟨p, hp, rfl⟩ := List.mem_map.mp h
    rw [List.mem_filter] at hp
    exact ⟨rfl, rfl, rfl, hp.2, hp.1⟩
  · cases h

theorem follows_of_mem_withPredecessors {w : Workset Q} {op : Operation Q}
    {before : Option (Operation Q)} (h : (op, before) ∈ withPredecessors none w.inSequence) :
    w.Follows op before := by
  rcases split_of_mem_withPredecessors h with ⟨later, hops, hb⟩ | ⟨earlier, b, later, hops, hb⟩
  · cases hb
    exact ⟨later, hops⟩
  · cases hb
    exact ⟨earlier, later, hops⟩

/-- A candidate is an operation of an order, with the one that it follows there. -/
theorem exists_of_mem_select {r : ScheduleRequest Q} {worksets : List (Workset Q)}
    {c : Candidate Q} (h : c ∈ select r worksets) :
    ∃ w ∈ worksets, c ∈ ofWorkset r w ∧ w.Follows c.operation c.predecessor := by
  rw [select, List.mem_mergeSort, List.mem_flatMap] at h
  obtain ⟨w, hw, hc⟩ := h
  obtain ⟨-, -, -, -, hp⟩ := mem_ofWorkset hc
  exact ⟨w, hw, hc, follows_of_mem_withPredecessors hp⟩

/-- The operations of an order need no sorting when they come in sequence. -/
theorem ofWorkset_of_sorted {r : ScheduleRequest Q} {w : Workset Q}
    (hsorted : w.operations.Pairwise fun a b => decide (a.sequence ≤ b.sequence) = true) :
    ofWorkset r w =
      if w.order.status.isSchedulable && r.includesOrder w.order.orderId then
        ((withPredecessors none w.operations).filter fun p => isEligible r p.1).map fun p =>
          ⟨p.1, w.order.priority, w.order.dueDate, w.order.partId, p.2⟩
      else [] := by
  unfold ofWorkset
  rw [List.mergeSort_of_pairwise hsorted]

/-- Candidates need no sorting when they come in the order of their turns. -/
theorem select_of_sorted {r : ScheduleRequest Q} {worksets : List (Workset Q)}
    {cs : List (Candidate Q)} (hcs : worksets.flatMap (ofWorkset r) = cs)
    (hsorted : cs.Pairwise fun a b => (compareTurn r.optimizeSetup a b != .gt) = true) :
    select r worksets = cs := by
  unfold select
  rw [hcs]
  exact List.mergeSort_of_pairwise hsorted

theorem map_operation_ofWorkset_sublist (r : ScheduleRequest Q) (w : Workset Q) :
    ((ofWorkset r w).map (·.operation)).Sublist w.inSequence := by
  unfold ofWorkset
  split
  · have h := (List.filter_sublist (p := fun p => isEligible r p.1)
      (l := withPredecessors none w.inSequence)).map Prod.fst
    rw [map_fst_withPredecessors] at h
    rw [List.map_map]
    exact h
  · exact List.nil_sublist _

/-- No operation has two turns. -/
theorem nodup_select {r : ScheduleRequest Q} {worksets : List (Workset Q)}
    (distinct : ((worksets.flatMap (·.operations)).map (·.operationId)).Nodup) :
    ((select r worksets).map (·.operation.operationId)).Nodup := by
  have hperm : (worksets.flatMap Workset.inSequence).Perm (worksets.flatMap (·.operations)) :=
    List.Perm.flatMap_left worksets fun w _ => List.mergeSort_perm w.operations _
  have hsub : ((worksets.flatMap (ofWorkset r)).map (·.operation)).Sublist
      (worksets.flatMap Workset.inSequence) := by
    rw [List.map_flatMap]
    exact List.Sublist.flatMap_right worksets fun w _ => map_operation_ofWorkset_sublist r w
  have hids := ((hperm.map (·.operationId)).nodup_iff.mpr distinct).sublist
    (hsub.map (·.operationId))
  rw [List.map_map] at hids
  exact ((List.mergeSort_perm _ _).map _).nodup_iff.mpr hids

/-! ### The order of turns -/

instance : Std.TransCmp compareDue where
  eq_swap {a b} := by
    cases a with
    | none => cases b <;> rfl
    | some d =>
      cases b with
      | none => rfl
      | some e => exact Std.OrientedOrd.eq_swap
  isLE_trans {a b c} hab hbc := by
    cases a with
    | none =>
      cases b with
      | none => exact hbc
      | some e => cases hab
    | some d =>
      cases c with
      | none => rfl
      | some f =>
        cases b with
        | none => cases hbc
        | some e => exact Std.TransOrd.isLE_trans hab hbc

/-- Parts count in the order of turns only when setups are to be saved. -/
def comparePart (optimizeSetup : Bool) (a b : Candidate Q) : Ordering :=
  if optimizeSetup then compare a.partId b.partId else .eq

instance (optimizeSetup : Bool) : Std.TransCmp (comparePart (Q := Q) optimizeSetup) where
  eq_swap {a b} := by
    cases optimizeSetup with
    | false => rfl
    | true => exact Std.OrientedOrd.eq_swap
  isLE_trans {a b c} hab hbc := by
    cases optimizeSetup with
    | false => rfl
    | true => exact Std.TransOrd.isLE_trans hab hbc

instance : Std.TransCmp fun a b : Candidate Q => compareDue a.dueDate b.dueDate where
  eq_swap {a b} := by exact Std.OrientedCmp.eq_swap
  isLE_trans {a b c} hab hbc := by exact Std.TransCmp.isLE_trans hab hbc

instance (optimizeSetup : Bool) : Std.TransCmp (compareTurn (Q := Q) optimizeSetup) :=
  inferInstanceAs <| Std.TransCmp <|
    compareLex (compareOn Candidate.priority) <|
    compareLex (fun a b => compareDue a.dueDate b.dueDate) <|
    compareLex (comparePart optimizeSetup) <|
    compareLex (compareOn (·.operation.sequence)) (compareOn (·.operation.orderId))

theorem compareTurn_trans (optimizeSetup : Bool) (a b c : Candidate Q)
    (hab : (compareTurn optimizeSetup a b != .gt) = true)
    (hbc : (compareTurn optimizeSetup b c != .gt) = true) :
    (compareTurn optimizeSetup a c != .gt) = true := by
  rw [bne_iff_ne] at *
  exact Ordering.ne_gt_iff_isLE.mpr <|
    Std.TransCmp.isLE_trans (Ordering.ne_gt_iff_isLE.mp hab) (Ordering.ne_gt_iff_isLE.mp hbc)

theorem compareTurn_total (optimizeSetup : Bool) (a b : Candidate Q) :
    ((compareTurn optimizeSetup a b != .gt) || (compareTurn optimizeSetup b a != .gt)) = true := by
  have hswap : compareTurn optimizeSetup b a = (compareTurn optimizeSetup a b).swap :=
    Std.OrientedCmp.eq_swap
  rw [hswap]
  cases compareTurn optimizeSetup a b <;> rfl

/-! ### The turn of the operation before -/

/-- In an order the sequence decides; among equals in it, the order that operations name. -/
theorem compareTurn_of_sequence_le {optimizeSetup : Bool} {a b : Candidate Q}
    (hp : a.priority = b.priority) (hd : a.dueDate = b.dueDate) (hpart : a.partId = b.partId)
    (hs : a.operation.sequence ≤ b.operation.sequence)
    (ho : a.operation.sequence = b.operation.sequence →
      a.operation.orderId = b.operation.orderId) :
    (compareTurn optimizeSetup a b != .gt) = true := by
  simp only [compareTurn, hp, hd, hpart, Std.ReflCmp.compare_self, ite_self, Ordering.eq_then,
    bne_iff_ne]
  rcases Int.lt_or_eq_of_le hs with hlt | heq
  · rw [Int.compare_eq_lt.mpr hlt, Ordering.lt_then]
    decide
  · rw [heq, ho heq]
    simp

theorem pair_sublist_ofWorkset {r : ScheduleRequest Q} {w : Workset Q} {c : Candidate Q}
    {b : Operation Q} (hc : c ∈ ofWorkset r w) (hb : c.predecessor = some b)
    (he : isEligible r b = true) :
    ∃ before, before.operation = b ∧ [before, c].Sublist (ofWorkset r w) := by
  unfold ofWorkset at hc ⊢
  split at hc
  case isTrue hr =>
    obtain ⟨⟨op, previous⟩, hp, rfl⟩ := List.mem_map.mp hc
    cases hb
    rw [List.mem_filter] at hp
    obtain ⟨before, hsub⟩ := pair_sublist_withPredecessors hp.1
    have hkept := hsub.filter fun p => isEligible r p.1
    rw [if_pos hr]
    refine ⟨⟨b, w.order.priority, w.order.dueDate, w.order.partId, before⟩, rfl, ?_⟩
    simpa [he, hp.2] using hkept.map fun p : Operation Q × Option (Operation Q) =>
      (⟨p.1, w.order.priority, w.order.dueDate, w.order.partId, p.2⟩ : Candidate Q)
  case isFalse => cases hc

theorem mem_of_pair_sublist {α : Type} {x y : α} {before after : List α}
    (h : [x, y].Sublist (before ++ y :: after)) (hn : (before ++ y :: after).Nodup) :
    x ∈ before := by
  have hy : y ∉ after := (List.nodup_cons.mp hn.of_append_right).1
  obtain ⟨s, t, hst, hs, ht⟩ := List.sublist_append_iff.mp h
  cases s with
  | nil =>
    cases hst
    cases ht with
    | cons _ ht => exact absurd (ht.subset (by simp)) hy
    | cons_cons _ ht => exact absurd (ht.subset (by simp)) hy
  | cons z s =>
    obtain ⟨rfl, -⟩ := List.cons.inj hst
    exact hs.subset (by simp)

/-- An operation has its turn after the one before it, if that one has a turn at all and
    does not stand beside it in the sequence under the name of another order. -/
theorem before_of_predecessor {r : ScheduleRequest Q} {worksets : List (Workset Q)}
    (distinct : ((worksets.flatMap (·.operations)).map (·.operationId)).Nodup) {w : Workset Q}
    (hw : w ∈ worksets) {c d : Candidate Q} {before after : List (Candidate Q)} {b : Operation Q}
    (ties : b.sequence = c.operation.sequence → b.orderId = c.operation.orderId)
    (hselect : select r worksets = before ++ c :: after) (hc : c ∈ ofWorkset r w)
    (hb : c.predecessor = some b) (hd : d ∈ select r worksets)
    (hid : d.operation.operationId = b.operationId) :
    ∃ e ∈ before, e.operation.operationId = b.operationId := by
  obtain ⟨hcp, hcd, hcpart, -, hpair⟩ := mem_ofWorkset hc
  rw [hb] at hpair
  have hfollows := follows_of_mem_withPredecessors hpair
  -- of all operations, only the one before has its identifier, so it is the one of `d`
  have heq : d.operation = b := by
    obtain ⟨w', hw', -, hop⟩ := exists_of_mem_select hd
    exact List.inj_on_of_nodup_map distinct (List.mem_flatMap.mpr ⟨w', hw', hop.mem⟩)
      (List.mem_flatMap.mpr ⟨w, hw, hfollows.mem_before⟩) hid
  have he : isEligible r b = true := by
    obtain ⟨w', -, hd', -⟩ := exists_of_mem_select hd
    rw [← heq]
    exact (mem_ofWorkset hd').2.2.2.1
  obtain ⟨e, rfl, hsub⟩ := pair_sublist_ofWorkset hc hb he
  have hew : e ∈ ofWorkset r w := hsub.subset (by simp)
  obtain ⟨hep, hed, hepart, -, -⟩ := mem_ofWorkset hew
  have hturn : (compareTurn r.optimizeSetup e c != .gt) = true :=
    compareTurn_of_sequence_le (hep.trans hcp.symm) (hed.trans hcd.symm)
      (hepart.trans hcpart.symm) hfollows.sequence_le ties
  have hflat : (ofWorkset r w).Sublist (worksets.flatMap (ofWorkset r)) :=
    List.sublist_flatten_of_mem (List.mem_map_of_mem hw)
  have hselected := List.pair_sublist_mergeSort (compareTurn_trans r.optimizeSetup)
    (compareTurn_total r.optimizeSetup) hturn (hsub.trans hflat)
  change [e, c].Sublist (select r worksets) at hselected
  have hnodup := (nodup_select (r := r) distinct).of_map
  rw [hselect] at hselected hnodup
  exact ⟨e, mem_of_pair_sublist hselected hnodup, rfl⟩

end Candidate

/-! ### A run in the order of turns -/

namespace FirstFit

/-- What a run answers from the state that it has come to, and the ledger in it. -/
def State.answer (s : State Q) : ScheduleResult Q × Ledger Q :=
  (⟨s.scheduled, s.conflicts, Placement.workCenters s.scheduled⟩, s.ledger)

/-- A run takes one candidate after the other. -/
theorem schedule_of_select [Quantity Q] {r : ScheduleRequest Q} {worksets : List (Workset Q)}
    {cs : List (Candidate Q)} (h : Candidate.select r worksets = cs) (centers : WorkCenters Q)
    (ledger : Ledger Q) : schedule r worksets centers ledger =
      (cs.foldl (take r centers) ⟨ledger, [], [], []⟩).answer := by
  rw [schedule, run, h]
  rfl

end FirstFit

end Workshop
