/-
  Workshop/Proofs/Schedule/Arrangement.lean
  =========================================
  **The arrangement of the input does not matter.**  A run sees its worksets, and the
  operations in each of them, in some arrangement.  Both are sorted before anything is
  placed, and a sort hides the arrangement of its input when it tells all members apart
  (`mergeSort_eq_of_perm`).  Sorting a part of a list is taking that part of the sorted list
  (`filter_mergeSort`).

  Within an order the sequence numbers tell the operations apart, and between orders the
  identifiers of the orders do, which are the last thing that turns are compared by
  (`Candidate.eq_of_same_turn`).  So all arrangements of the input have the same candidates
  in the same turns (`Candidate.select_eq_of_rearranged`), and the run is the same.
-/
import Workshop.Proofs.Schedule.Replay

namespace Workshop

/-! ### Sorts -/

/-- A sort that tells all members apart does not depend on how they were arranged. -/
theorem mergeSort_eq_of_perm {α : Type} {le : α → α → Bool}
    (trans : ∀ a b c, le a b = true → le b c = true → le a c = true)
    (total : ∀ a b, (le a b || le b a) = true) {xs ys : List α}
    (antisymm : ∀ a ∈ xs, ∀ b ∈ xs, le a b = true → le b a = true → a = b)
    (h : xs.Perm ys) : xs.mergeSort le = ys.mergeSort le := by
  have hxs := List.mergeSort_perm xs le
  have hys := List.mergeSort_perm ys le
  have sorted := List.pairwise_mergeSort trans total
  apply List.Perm.eq_of_pairwise ?_ (sorted xs) (sorted ys)
  · exact hxs.trans (h.trans hys.symm)
  · intro a b ha hb
    exact antisymm a (hxs.mem_iff.mp ha) b (h.mem_iff.mpr (hys.mem_iff.mp hb))

section Sorting

variable {α : Type}

/-- A list has one split into members that fail a test and members that pass it. -/
theorem split_unique {test : α → Bool} {xs ys xs' ys' : List α} (h : xs ++ ys = xs' ++ ys')
    (hxs : ∀ x ∈ xs, test x = false) (hys : ∀ y ∈ ys, test y = true)
    (hxs' : ∀ x ∈ xs', test x = false) (hys' : ∀ y ∈ ys', test y = true) :
    xs = xs' ∧ ys = ys' := by
  have hpassed := congrArg (List.filter test) h
  have hnone : ∀ zs : List α, (∀ x ∈ zs, test x = false) → zs.filter test = [] := by
    intro zs hzs
    rw [List.filter_eq_nil_iff]
    intro x hx
    rw [hzs x hx]
    exact Bool.false_ne_true
  rw [List.filter_append, List.filter_append, hnone xs hxs, hnone xs' hxs',
    List.filter_eq_self.mpr hys, List.filter_eq_self.mpr hys', List.nil_append,
    List.nil_append] at hpassed
  subst hpassed
  exact ⟨List.append_cancel_right h, rfl⟩

variable {le : α → α → Bool} (trans : ∀ a b c, le a b = true → le b c = true → le a c = true)
  (total : ∀ a b, (le a b || le b a) = true)

include trans total

/-- A stable sort puts a new member behind exactly those that are strictly before it. -/
theorem exists_mergeSort_cons (a : α) (xs : List α) :
    ∃ early late, (a :: xs).mergeSort le = early ++ a :: late ∧ xs.mergeSort le = early ++ late ∧
      (∀ b ∈ early, le a b = false) ∧ ∀ b ∈ late, le a b = true := by
  obtain ⟨early, late, hsort, hrest, hearly⟩ := List.mergeSort_cons trans total a xs
  have hsorted := List.pairwise_mergeSort trans total (a :: xs)
  rw [hsort, List.pairwise_append, List.pairwise_cons] at hsorted
  exact ⟨early, late, hsort, hrest, by simpa using hearly, hsorted.2.1.1⟩

/-- What a test keeps of a sorted list is what it keeps of the list, sorted. -/
theorem filter_mergeSort (keep : α → Bool) (xs : List α) :
    (xs.mergeSort le).filter keep = (xs.filter keep).mergeSort le := by
  induction xs with
  | nil => simp
  | cons a xs ih =>
    obtain ⟨early, late, hsort, hrest, hearly, hlate⟩ := exists_mergeSort_cons trans total a xs
    rw [hrest, List.filter_append] at ih
    rw [hsort, List.filter_append]
    by_cases ha : keep a = true
    · obtain ⟨early', late', hsort', hrest', hearly', hlate'⟩ :=
        exists_mergeSort_cons trans total a (xs.filter keep)
      rw [hrest'] at ih
      obtain ⟨rfl, rfl⟩ := split_unique ih
        (fun b hb => hearly b (List.mem_filter.mp hb).1)
        (fun b hb => hlate b (List.mem_filter.mp hb).1) hearly' hlate'
      rw [List.filter_cons_of_pos ha, List.filter_cons_of_pos ha, hsort']
    · rw [List.filter_cons_of_neg ha, List.filter_cons_of_neg ha, ih]

end Sorting

variable {Q : Type}

namespace Workset

/-- The same order with the same operations, which may be arranged differently. -/
structure Rearranged (v w : Workset Q) : Prop where
  order : v.order = w.order
  operations : v.operations.Perm w.operations

/-- Worksets whose orders are told apart by their identifiers, which their operations
    carry, and the operations of an order by their sequence numbers. -/
structure Distinguished (worksets : List (Workset Q)) : Prop where
  orders : (worksets.map (·.order.orderId)).Nodup
  keyed : ∀ w ∈ worksets, ∀ op ∈ w.operations, op.orderId = w.order.orderId
  sequences : ∀ w ∈ worksets, (w.operations.map (·.sequence)).Nodup

/-- Sequence numbers that tell the operations apart leave one arrangement of them. -/
theorem Rearranged.inSequence_eq {v w : Workset Q} (h : v.Rearranged w)
    (sequences : (v.operations.map (·.sequence)).Nodup) : v.inSequence = w.inSequence := by
  apply mergeSort_eq_of_perm
  · exact Operation.sequence_trans
  · exact Operation.sequence_total
  · intro a ha b hb hab hba
    apply List.inj_on_of_nodup_map sequences ha hb
    exact Int.le_antisymm (of_decide_eq_true hab) (of_decide_eq_true hba)
  · exact h.operations

end Workset

namespace Candidate

variable {r : ScheduleRequest Q} {worksets : List (Workset Q)}

theorem ofWorkset_eq_of_rearranged {v w : Workset Q} (h : v.Rearranged w)
    (sequences : (v.operations.map (·.sequence)).Nodup) : ofWorkset r v = ofWorkset r w := by
  have hsequence := h.inSequence_eq sequences
  unfold Workset.inSequence at hsequence
  unfold ofWorkset
  rw [h.order, hsequence]

theorem nodup_sequence_ofWorkset {w : Workset Q}
    (sequences : (w.operations.map (·.sequence)).Nodup) :
    ((ofWorkset r w).map (·.operation.sequence)).Nodup := by
  have hsub := (map_operation_ofWorkset_sublist r w).map (·.sequence)
  rw [List.map_map] at hsub
  apply List.Nodup.sublist hsub
  exact ((List.mergeSort_perm w.operations _).map _).nodup_iff.mpr sequences

/-- Candidates that have the same turn agree in what turns are compared by last. -/
theorem sequence_and_order_of_same_turn {optimizeSetup : Bool} {c d : Candidate Q}
    (hcd : (compareTurn optimizeSetup c d != .gt) = true)
    (hdc : (compareTurn optimizeSetup d c != .gt) = true) :
    c.operation.sequence = d.operation.sequence ∧ c.operation.orderId = d.operation.orderId := by
  have hswap : compareTurn optimizeSetup d c = (compareTurn optimizeSetup c d).swap :=
    Std.OrientedCmp.eq_swap
  have heq : compareTurn optimizeSetup c d = .eq := by
    rw [hswap] at hdc
    cases h : compareTurn optimizeSetup c d with
    | lt =>
      rw [h] at hdc
      cases hdc
    | eq => rfl
    | gt =>
      rw [h] at hcd
      cases hcd
  simp only [compareTurn, Ordering.then_eq_eq] at heq
  obtain ⟨-, -, -, hsequence, horder⟩ := heq
  exact ⟨Std.LawfulEqOrd.eq_of_compare hsequence, Std.LawfulEqOrd.eq_of_compare horder⟩

/-- Of all candidates, no two have the same turn. -/
theorem eq_of_same_turn (distinguished : Workset.Distinguished worksets) {c d : Candidate Q}
    (hc : c ∈ worksets.flatMap (ofWorkset r)) (hd : d ∈ worksets.flatMap (ofWorkset r))
    (hcd : (compareTurn r.optimizeSetup c d != .gt) = true)
    (hdc : (compareTurn r.optimizeSetup d c != .gt) = true) : c = d := by
  obtain ⟨hsequence, horder⟩ := sequence_and_order_of_same_turn hcd hdc
  obtain ⟨v, hv, hc⟩ := List.mem_flatMap.mp hc
  obtain ⟨w, hw, hd⟩ := List.mem_flatMap.mp hd
  have hcv : c.operation ∈ v.operations :=
    (follows_of_mem_withPredecessors (mem_ofWorkset hc).2.2.2.2).mem
  have hdw : d.operation ∈ w.operations :=
    (follows_of_mem_withPredecessors (mem_ofWorkset hd).2.2.2.2).mem
  rw [distinguished.keyed v hv _ hcv, distinguished.keyed w hw _ hdw] at horder
  obtain rfl := List.inj_on_of_nodup_map distinguished.orders hv hw horder
  apply List.inj_on_of_nodup_map (nodup_sequence_ofWorkset (distinguished.sequences v hv)) hc hd
  exact hsequence

theorem flatMap_eq_of_rearranged {worksets' : List (Workset Q)}
    (sequences : ∀ w ∈ worksets, (w.operations.map (·.sequence)).Nodup)
    (h : List.Forall₂ Workset.Rearranged worksets worksets') :
    worksets.flatMap (ofWorkset r) = worksets'.flatMap (ofWorkset r) := by
  induction h with
  | nil => rfl
  | cons hvw _ ih =>
    rw [List.forall_mem_cons] at sequences
    rw [List.flatMap_cons, List.flatMap_cons, ofWorkset_eq_of_rearranged hvw sequences.1,
      ih sequences.2]

/-- The candidates and their turns are the same for all arrangements of the worksets. -/
theorem select_eq_of_rearranged (distinguished : Workset.Distinguished worksets)
    {between worksets' : List (Workset Q)}
    (operations : List.Forall₂ Workset.Rearranged worksets between)
    (orders : between.Perm worksets') : select r worksets = select r worksets' := by
  have hflat := flatMap_eq_of_rearranged (r := r) distinguished.sequences operations
  apply mergeSort_eq_of_perm
  · exact compareTurn_trans r.optimizeSetup
  · exact compareTurn_total r.optimizeSetup
  · intro c hc d hd hcd hdc
    exact eq_of_same_turn distinguished hc hd hcd hdc
  · rw [hflat]
    exact orders.flatMap_right _

end Candidate

/-- **The arrangement of the input does not matter.**  A run answers the same, and leaves
    the same ledger behind, when its worksets come in another arrangement, and the
    operations in each of them too. -/
theorem schedule_eq_of_rearranged [Quantity Q] (r : ScheduleRequest Q)
    (worksets between worksets' : List (Workset Q)) (centers : WorkCenters Q)
    (ledger : Ledger Q) (distinguished : Workset.Distinguished worksets)
    (operations : List.Forall₂ Workset.Rearranged worksets between)
    (orders : between.Perm worksets') :
    schedule r worksets centers ledger = schedule r worksets' centers ledger := by
  have hselect := Candidate.select_eq_of_rearranged (r := r) distinguished operations orders
  rw [FirstFit.schedule_of_select hselect, FirstFit.schedule_of_select rfl]

/-! ### Two orders of one urgency -/

/-- A second order for a shaft, as urgent as the first. -/
def secondShaft : Workset Float where
  order := { shaftWorkset.order with orderId := "S2", orderNumber := "MO-3" }
  operations := shaftWorkset.operations.map fun op =>
    { op with orderId := "S2", operationId := "S2/" ++ toString op.sequence }

/-- The last operation first. -/
def backwards (w : Workset Float) : Workset Float := ⟨w.order, w.operations.reverse⟩

theorem rearranged_backwards (w : Workset Float) : w.Rearranged (backwards w) :=
  ⟨rfl, w.operations.reverse_perm.symm⟩

theorem schedule_eq_of_rearranged_shafts :
    (Workset.Distinguished [shaftWorkset, secondShaft] ∧
      List.Forall₂ Workset.Rearranged [shaftWorkset, secondShaft]
        [backwards shaftWorkset, backwards secondShaft] ∧
      [backwards shaftWorkset, backwards secondShaft].Perm
        [backwards secondShaft, backwards shaftWorkset]) ∧
    schedule saturdayRequest [shaftWorkset, secondShaft] (.ofList [lathe])
        (.empty saturday saturdayRequest.windowEnd) =
      schedule saturdayRequest [backwards secondShaft, backwards shaftWorkset] (.ofList [lathe])
        (.empty saturday saturdayRequest.windowEnd) := by
  have distinguished : Workset.Distinguished [shaftWorkset, secondShaft] := by
    constructor
    · decide
    · decide
    · decide
  have operations : List.Forall₂ Workset.Rearranged [shaftWorkset, secondShaft]
      [backwards shaftWorkset, backwards secondShaft] :=
    .cons (rearranged_backwards _) (.cons (rearranged_backwards _) .nil)
  have orders : [backwards shaftWorkset, backwards secondShaft].Perm
      [backwards secondShaft, backwards shaftWorkset] := .swap _ _ _
  exact ⟨⟨distinguished, operations, orders⟩,
    schedule_eq_of_rearranged _ _ _ _ _ _ distinguished operations orders⟩

end Workshop
