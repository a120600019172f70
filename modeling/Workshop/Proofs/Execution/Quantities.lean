/-
  Workshop/Proofs/Execution/Quantities.lean
  =========================================
  **Pieces made.**  What is reported on an operation is a total that may also go down.  A
  report passes its check when the total is finite, not negative and not above the ordered
  quantity (`Workset.checkReport_eq_ok_iff`), and it completes the operation when the
  total is not below it.

  So throughout every course of events the pieces of an operation lie between none and all
  that were ordered, and it is complete exactly when they are not below
  (`Operation.Tallied`).  The two comparisons differ, and either fails on what is no
  number; that none is ever entered is part of the invariant.
-/
import Workshop.Proofs.Execution.Progress
import Workshop.Proofs.Quantity.BinaryAccumulation
import Workshop.Proofs.Quantity.Zero

namespace Workshop

variable {Q : Type} [Quantity Q]

/-! ### Checks -/

theorem validateQuantity_eq_ok_iff {field : String} {value : Q} {limit : Option Q} :
    validateQuantity field value limit = .ok () ↔ Quantity.isFinite value = true ∧
      ¬ value < Quantity.zero ∧ ∀ most, limit = some most → ¬ most < value := by
  unfold validateQuantity
  cases hf : Quantity.isFinite value with
  | false => simp
  | true =>
    by_cases hneg : value < Quantity.zero
    · simp [hneg]
    · cases limit with
      | none => simp [hneg]
      | some most =>
        by_cases habove : most < value
        · simp [hneg, habove]
        · simp [hneg, habove]

theorem validateReported_eq_ok_iff {field : String} {value : Option Q} :
    validateReported field value = .ok () ↔
      ∀ x, value = some x → Quantity.isFinite x = true ∧ ¬ x < Quantity.zero := by
  cases value with
  | none => simp [validateReported]
  | some x => simp [validateReported, validateQuantity_eq_ok_iff]

/-- What a report may hold besides the pieces made. -/
structure Report.Sound (report : Report Q) : Prop where
  scrapped : ∀ x, report.quantityScrapped = some x →
    Quantity.isFinite x = true ∧ ¬ x < Quantity.zero
  setup : ∀ x, report.setupHours = some x → Quantity.isFinite x = true ∧ ¬ x < Quantity.zero
  run : ∀ x, report.runHours = some x → Quantity.isFinite x = true ∧ ¬ x < Quantity.zero

theorem Workset.checkReport_eq_ok_iff {w : Workset Q} {report : Report Q} {quantity : Q} :
    w.checkReport report = .ok quantity ↔ report.quantityComplete = some quantity ∧
      (Quantity.isFinite quantity = true ∧ ¬ quantity < Quantity.zero ∧
        ¬ w.order.quantityOrdered < quantity) ∧ report.Sound := by
  unfold checkReport
  cases report.quantityComplete with
  | none => simp
  | some made =>
    simp only [bind_eq_ok_iff]
    constructor
    · rintro ⟨_, hmade, _, hscrapped, _, hsetup, _, hrun, h⟩
      obtain ⟨hfinite, hneg, habove⟩ := validateQuantity_eq_ok_iff.mp hmade
      cases h
      exact ⟨rfl, ⟨hfinite, hneg, habove _ rfl⟩, validateReported_eq_ok_iff.mp hscrapped,
        validateReported_eq_ok_iff.mp hsetup, validateReported_eq_ok_iff.mp hrun⟩
    · rintro ⟨hquantity, ⟨hfinite, hneg, habove⟩, sound⟩
      cases hquantity
      refine ⟨(), validateQuantity_eq_ok_iff.mpr ⟨hfinite, hneg, ?_⟩,
        (), validateReported_eq_ok_iff.mpr sound.scrapped,
        (), validateReported_eq_ok_iff.mpr sound.setup,
        (), validateReported_eq_ok_iff.mpr sound.run, rfl⟩
      rintro most ⟨⟩
      exact habove

/-! ### Pieces of an operation -/

/-- The pieces made on an operation are among those ordered, and it is complete exactly
    when they are all of them. -/
structure Operation.Tallied (ordered : Q) (op : Operation Q) : Prop where
  finite : Quantity.isFinite op.quantityComplete = true
  nonneg : ¬ op.quantityComplete < Quantity.zero
  bounded : ¬ ordered < op.quantityComplete
  complete_iff : op.status = .complete ↔ ¬ op.quantityComplete < ordered

namespace Operation

variable {ordered : Q}

theorem Tallied.of_open {a b : Operation Q} (h : Tallied ordered a)
    (pieces : b.quantityComplete = a.quantityComplete) (ha : a.status ≠ .complete)
    (hb : b.status ≠ .complete) : Tallied ordered b := by
  refine ⟨pieces ▸ h.finite, pieces ▸ h.nonneg, pieces ▸ h.bounded, iff_of_false hb ?_⟩
  rw [pieces, ← h.complete_iff]
  exact ha

/-- An operation on which nothing has been made, of an order for something. -/
theorem tallied_of_isZero [Quantity.Ordered Q] [Quantity.Coherent Q] [Quantity.Checked Q]
    {op : Operation Q} (finite : Quantity.isFinite ordered = true)
    (positive : Quantity.zero < ordered) (undone : op.status ≠ .complete)
    (none : Quantity.IsZero op.quantityComplete) : Tallied ordered op := by
  have hfinite := Quantity.Checked.isFinite_of_isZero none
  -- the ordered quantity is not at most what has been made, for that is zero
  have hpositive : ¬ ordered ≤ op.quantityComplete := fun h =>
    Quantity.Checked.not_lt_of_le (Quantity.Coherent.le_trans h none.1) positive
  refine ⟨hfinite, Quantity.Checked.not_lt_of_le none.2, ?_, iff_of_false undone ?_⟩
  · exact Quantity.not_lt_of_not_le hpositive
  · exact not_not.mpr (Quantity.Ordered.lt_of_not_le finite hfinite hpositive)

omit [Quantity Q] in
@[simp] theorem addNotes_quantityComplete (op : Operation Q) (notes : Option String) :
    (op.addNotes notes).quantityComplete = op.quantityComplete := by
  obtain ⟨text, h⟩ := op.addNotes_eq notes
  rw [h]

omit [Quantity Q] in
@[simp] theorem begun_quantityComplete (op : Operation Q) (report : Report Q) (now : Instant) :
    (op.begun report now).quantityComplete = op.quantityComplete := by
  unfold begun
  rw [addNotes_quantityComplete]
  split <;> rfl

omit [Quantity Q] in
@[simp] theorem put_quantityComplete (op : Operation Q) (status : OperationStatus)
    (report : Report Q) : (op.put status report).quantityComplete = op.quantityComplete := by
  simp [put]

@[simp] theorem enter_quantityComplete (op : Operation Q) (quantity : Q) (report : Report Q) :
    (Workset.enter op quantity report).quantityComplete = quantity := by
  simp [Workset.enter]

@[simp] theorem finished_quantityComplete (op : Operation Q) (quantity : Q) (report : Report Q)
    (now : Instant) : (op.finished quantity report now).quantityComplete = quantity := by
  simp [finished]

end Operation

/-! ### Along a course of events -/

namespace Workset

open Operation

/-- The pieces of every operation are among those that the order asks for. -/
def Tallies (w : Workset Q) : Prop := ∀ op ∈ w.operations, op.Tallied w.order.quantityOrdered

variable {w w' : Workset Q}

theorem Tallies.set (h : Tallies w) {id : String} {op new : Operation Q}
    (located : w.operation? id = some op)
    (tallied : op.Tallied w.order.quantityOrdered → new.Tallied w.order.quantityOrdered) :
    Tallies (w.setOperation id new) := by
  obtain ⟨pre, post, hops, hset⟩ := exists_split located
  intro x hx
  rw [hset] at hx
  rw [setOperation_order]
  rcases mem_middle_iff.mp hx with rfl | hx
  · exact tallied (h op (by simp [hops]))
  · refine h x ?_
    rw [hops]
    exact mem_middle_iff.mpr (Or.inr hx)

theorem Tallies.release (h : Tallies w) : Tallies w.releaseActiveWave.1 := by
  cases hkey : w.waves.activeWave with
  | none => rwa [release_eq_self hkey]
  | some key =>
    intro op hop
    rw [release_order]
    rcases mem_release hkey hop with ⟨hop, -⟩ | ⟨x, hx, -, waits, rfl⟩
    · exact h op hop
    · exact (h x hx).of_open rfl (by simp [waits]) (by simp)

theorem Tallies.settle (h : Tallies w) (key : String) (now : Instant) :
    Tallies (w.settle key now).1 := by
  rcases w.settle_cases key now with ⟨-, heq⟩ | ⟨-, -, heq⟩ | ⟨-, heq⟩
  · rw [heq]
    exact h
  · rw [heq]
    exact h.release
  · rwa [heq]

theorem Step.tallies {c : Call Q} (hs : Step w c w') (h : Tallies w) : Tallies w' := by
  cases hs with
  | @start id report now op located active waits wave =>
    have hset : Tallies (w.setOperation id (op.begun report now)) := by
      refine h.set located fun hop => hop.of_open (by simp) ?_ (by simp)
      rcases waits with hs | hs <;> simp [hs]
    intro x hx
    rw [underWay_operations] at hx
    rw [underWay_quantityOrdered]
    exact hset x hx
  | enter located active checked busy part =>
    obtain ⟨-, ⟨finite, nonneg, bounded⟩, -⟩ := checkReport_eq_ok_iff.mp checked
    refine h.set located fun _ => ⟨?_, ?_, ?_, ?_⟩
    · simpa using finite
    · simpa using nonneg
    · simpa using bounded
    · simpa [busy] using part
  | finish located active checked busy whole =>
    obtain ⟨-, ⟨finite, nonneg, bounded⟩, -⟩ := checkReport_eq_ok_iff.mp checked
    refine Tallies.settle (h.set located fun _ => ⟨?_, ?_, ?_, ?_⟩) _ _
    · simpa using finite
    · simpa using nonneg
    · simpa using bounded
    · simpa using whole
  | hold located open_ =>
    refine h.set located fun hop => hop.of_open (by simp) ?_ (by simp)
    rcases open_ with hs | hs | hs <;> simp [hs]
  | resume located held =>
    exact h.set located fun hop => hop.of_open (by simp) (by simp [held]) (by simp)

/-- **The pieces made on an operation are among those ordered**, whatever is reported, and
    it is complete exactly when they are not below. -/
theorem course_tallies [Quantity.Ordered Q] [Quantity.Coherent Q] [Quantity.Checked Q]
    {w : Workset Q} (finite : Quantity.isFinite w.order.quantityOrdered = true)
    (positive : Quantity.zero < w.order.quantityOrdered)
    (undone : ∀ op ∈ w.operations, op.status ≠ .complete)
    (none : ∀ op ∈ w.operations, Quantity.IsZero op.quantityComplete)
    (events : List (Event Q)) :
    (w.course events).order.quantityOrdered = w.order.quantityOrdered ∧
      ∀ op ∈ (w.course events).operations, op.Tallied w.order.quantityOrdered := by
  have start : Tallies w := fun op hop =>
    tallied_of_isZero finite positive (undone op hop) (none op hop)
  have hcourse : (w.course events).order.quantityOrdered = w.order.quantityOrdered ∧
      Tallies (w.course events) := by
    refine course_induction (P := fun v => v.order.quantityOrdered = w.order.quantityOrdered ∧
      Tallies v) ⟨rfl, start⟩ ?_ ?_ events
    · rintro v v' c ⟨ordered, h⟩ hs
      exact ⟨hs.quantityOrdered.trans ordered, hs.tallies h⟩
    · rintro v ⟨ordered, h⟩
      exact ⟨by rw [release_order, ordered], h.release⟩
  obtain ⟨ordered, tallies⟩ := hcourse
  refine ⟨ordered, fun op hop => ?_⟩
  rw [← ordered]
  exact tallies op hop

end Workset

/-- Reports on the first bracket operation: no number, none, too many, a part, a smaller
    part, less than nothing, and all that were ordered. -/
def bracketReports : List (Workset.Event Float) :=
  ([some (0 / 0), none, some 5, some 3, some 2, some (-1), some 4] : List (Option Float)).map
    fun made => .call ⟨"B1/10", .complete, ⟨none, made, none, none, none, none⟩, .midnight .first⟩

theorem course_tallies_bracket :
    Quantity.isFinite bracketOrder.quantityOrdered = true ∧
      Quantity.zero < bracketOrder.quantityOrdered ∧
      (∀ op ∈ bracketOperations, op.status ≠ .complete) ∧
      (∀ op ∈ bracketOperations, Quantity.IsZero op.quantityComplete) ∧
      ∀ op ∈ ((Workset.mk bracketOrder bracketOperations).course
        ([.release, .call ⟨"B1/10", .start, .blank, .midnight .first⟩] ++
          bracketReports)).operations, op.Tallied bracketOrder.quantityOrdered := by
  have finite : Quantity.isFinite bracketOrder.quantityOrdered = true := by decide
  have positive : Quantity.zero < bracketOrder.quantityOrdered := by decide
  have undone : ∀ op ∈ bracketOperations, op.status ≠ .complete := by decide
  have none : ∀ op ∈ bracketOperations, Quantity.IsZero op.quantityComplete := by
    unfold Quantity.IsZero
    decide
  exact ⟨finite, positive, undone, none,
    (Workset.course_tallies (w := ⟨bracketOrder, bracketOperations⟩) finite positive undone none
      _).2⟩

end Workshop
