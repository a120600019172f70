/-
  Workshop/Proofs/Schedule/Answers.lean
  =====================================
  **What an answer names.**  Every candidate of a run has one place in its answer, as a
  placement or as a conflict (`named_schedule`), also after placements were lost
  (`named_withLost`).  The work centers of an answer are those of its placements, in
  strictly ascending order.
-/
import Workshop.Proofs.Schedule.Turns

namespace Workshop

/-! ### Ascending lists -/

namespace Text

theorem mem_dropRepeats {x : String} {xs : List String} : x ∈ dropRepeats xs ↔ x ∈ xs := by
  fun_induction dropRepeats xs with
  | case1 a rest ih =>
    rw [ih]
    simp
  | case2 a b rest h ih => rw [List.mem_cons, ih, List.mem_cons (a := x) (b := a)]
  | case3 xs h => rfl

theorem pairwise_dropRepeats {xs : List String} (sorted : xs.Pairwise (· ≤ ·)) :
    (dropRepeats xs).Pairwise (· < ·) := by
  fun_induction dropRepeats xs with
  | case1 a rest ih => exact ih (List.pairwise_cons.mp sorted).2
  | case2 a b rest h ih =>
    obtain ⟨ha, sorted⟩ := List.pairwise_cons.mp sorted
    refine List.pairwise_cons.mpr ⟨?_, ih sorted⟩
    intro x hx
    have hab : a < b := by
      apply String.not_le.mp
      intro hba
      exact h (String.le_antisymm (ha b List.mem_cons_self) hba)
    rcases List.mem_cons.mp (mem_dropRepeats.mp hx) with rfl | hx
    · exact hab
    · exact Std.lt_of_lt_of_le hab ((List.pairwise_cons.mp sorted).1 x hx)
  | case3 xs h =>
    match xs, h with
    | [], _ => exact .nil
    | [a], _ => exact List.pairwise_singleton _ a
    | a :: b :: rest, h => exact absurd rfl (h a b rest)

theorem mem_ascending {x : String} {xs : List String} : x ∈ ascending xs ↔ x ∈ xs := by
  rw [ascending, mem_dropRepeats, List.mem_mergeSort]

/-- An ascending list is strictly so. -/
theorem pairwise_ascending (xs : List String) : (ascending xs).Pairwise (· < ·) := by
  apply pairwise_dropRepeats
  have hsorted : (xs.mergeSort fun a b => decide (a ≤ b)).Pairwise
      fun a b => decide (a ≤ b) = true := by
    apply List.pairwise_mergeSort
    · intro a b c hab hbc
      exact decide_eq_true (String.le_trans (of_decide_eq_true hab) (of_decide_eq_true hbc))
    · intro a b
      simpa using String.le_total a b
  exact hsorted.imp of_decide_eq_true

end Text

variable {Q : Type}

/-! ### Names in an answer -/

/-- The operations that an answer names: first those placed, then those in conflicts. -/
def ScheduleResult.named (r : ScheduleResult Q) : List String :=
  r.scheduled.map (·.operationId) ++ r.conflicts.map (·.operationId)

theorem ScheduleResult.withLost_scheduled (r : ScheduleResult Q) (rejected : List String) :
    (r.withLost rejected).scheduled =
      r.scheduled.filter fun p => !rejected.contains p.operationId := by
  unfold withLost
  split
  case isTrue h => simp [h]
  case isFalse => rfl

theorem ScheduleResult.withLost_conflicts (r : ScheduleResult Q) (rejected : List String) :
    (r.withLost rejected).conflicts = r.conflicts ++
      (r.scheduled.filter fun p => rejected.contains p.operationId).map Placement.lost := by
  unfold withLost
  split
  case isTrue h => simp [h]
  case isFalse => rfl

theorem ScheduleResult.withLost_workCenters {r : ScheduleResult Q}
    (h : r.affectedWorkCenters = Placement.workCenters r.scheduled) (rejected : List String) :
    (r.withLost rejected).affectedWorkCenters =
      Placement.workCenters (r.withLost rejected).scheduled := by
  unfold withLost
  split
  case isTrue => exact h
  case isFalse => rfl

/-- A placement that is lost keeps its name in the answer. -/
theorem ScheduleResult.named_withLost (r : ScheduleResult Q) (rejected : List String) :
    (r.withLost rejected).named.Perm r.named := by
  have hlost : (Conflict.operationId ∘ Placement.lost : Placement Q → String) =
      Placement.operationId := rfl
  have hsplit := (List.filter_append_perm (fun p : Placement Q =>
    rejected.contains p.operationId) r.scheduled).map Placement.operationId
  rw [List.map_append] at hsplit
  unfold named
  rw [withLost_scheduled, withLost_conflicts, List.map_append, List.map_map, hlost]
  refine List.Perm.trans ?_ (hsplit.append_right (r.conflicts.map Conflict.operationId))
  rw [← List.append_assoc]
  refine List.perm_append_comm.trans ?_
  rw [List.append_assoc]

namespace FirstFit

/-- The operations named so far. -/
def State.named (s : State Q) : List String :=
  s.scheduled.map (·.operationId) ++ s.conflicts.map (·.operationId)

theorem State.named_report (s : State Q) (c : Conflict) :
    (s.report c).named.Perm (c.operationId :: s.named) := by
  unfold named report
  rw [List.map_append, ← List.append_assoc]
  exact List.perm_append_singleton _ _

variable [Quantity Q]

theorem State.named_place (s : State Q) (p : Placement Q) :
    (s.place p).named.Perm (p.operationId :: s.named) := by
  unfold named place
  rw [List.map_append, List.append_assoc]
  exact List.perm_middle

/-- A candidate is placed or reported, under its own name. -/
theorem named_take (r : ScheduleRequest Q) (centers : WorkCenters Q) (s : State Q)
    (c : Candidate Q) : (take r centers s c).named.Perm (c.operation.operationId :: s.named) := by
  unfold take
  dsimp only
  split
  · exact s.named_report _
  · split
    · exact s.named_report _
    · split
      · exact s.named_place _
      · exact s.named_report _

theorem named_foldl (r : ScheduleRequest Q) (centers : WorkCenters Q) (cs : List (Candidate Q))
    (s : State Q) : (cs.foldl (take r centers) s).named.Perm
      (cs.map (·.operation.operationId) ++ s.named) := by
  induction cs generalizing s with
  | nil => exact .refl _
  | cons c cs ih =>
    refine (ih (take r centers s c)).trans ?_
    exact ((named_take r centers s c).append_left _).trans List.perm_middle

end FirstFit

/-- Every candidate of a run is named once in its answer. -/
theorem named_schedule [Quantity Q] (r : ScheduleRequest Q) (worksets : List (Workset Q))
    (centers : WorkCenters Q) (ledger : Ledger Q) :
    (schedule r worksets centers ledger).1.named.Perm
      ((Candidate.select r worksets).map (·.operation.operationId)) := by
  have h := FirstFit.named_foldl r centers (Candidate.select r worksets) ⟨ledger, [], [], []⟩
  exact h.trans (by simp [FirstFit.State.named])

end Workshop
