/-
  Workshop/Proofs/Store/BuiltLedger.lean
  ======================================
  **The ledger that a store gives.**  In exact numbers each row takes its hours on the day on
  which its operation starts, unless that is complete (`Row.hoursAt`).  When the rows were
  planned and the texts of the window are in order, a ledger can be built, and on each day
  of the window it commits the hours of all rows (`Store.exists_buildLedger`).

  The hours go from the rows through groups and entries to the ledger, and the sum stays what
  it is: `EntryOf.hoursAt_eq` for one group, `Ledger.committed_enter` for the entries.
-/
import Workshop.Execution.Scheduling
import Workshop.Proofs.Schedule.DailyCapacity
import Workshop.Proofs.Store.LedgerEntries

namespace Workshop

/-! ### Hours that are entered -/

/-- The hours of an entry, if it is the one of a work center and date. -/
def LedgerEntry.hoursAt (id : String) (d : Date) (e : LedgerEntry Rat) : Rat :=
  if e.isAt id d then e.hours else 0

namespace Ledger

/-- Books entries, one after the other. -/
def enter {Q : Type} [Quantity Q] (l : Ledger Q) (es : List (LedgerEntry Q)) : Ledger Q :=
  es.foldl (fun l e => l.book e.workCenterId e.date e.hours) l

theorem contains_book (l : Ledger Rat) (id : String) (d d' : Date) (h : Rat) :
    (l.book id d h).contains d' = l.contains d' := by
  unfold contains
  rw [book_windowStart, book_windowEnd]

theorem contains_enter (l : Ledger Rat) (es : List (LedgerEntry Rat)) (d : Date) :
    (l.enter es).contains d = l.contains d := by
  induction es generalizing l with
  | nil => rfl
  | cons e es ih => exact (ih (l.book e.workCenterId e.date e.hours)).trans (l.contains_book ..)

theorem committed_book_entry {l : Ledger Rat} {d : Date} (hd : l.contains d = true) (id : String)
    (e : LedgerEntry Rat) : (l.book e.workCenterId e.date e.hours).committed id d =
      l.committed id d + e.hoursAt id d := by
  rw [committed_book]
  unfold LedgerEntry.hoursAt
  by_cases hat : e.workCenterId = id ∧ e.date = d
  · obtain ⟨rfl, rfl⟩ := hat
    have haccepts : l.accepts e.date e.hours = true := by
      rw [accepts, hd]
      rfl
    have his : e.isAt e.workCenterId e.date = true := by simp [LedgerEntry.isAt]
    rw [if_pos ⟨haccepts, rfl, rfl⟩, if_pos his]
  · have hnot : e.isAt id d = false := by simpa [LedgerEntry.isAt] using hat
    rw [if_neg fun h => hat h.2, hnot, if_neg Bool.false_ne_true, add_zero]

theorem committed_enter {l : Ledger Rat} {d : Date} (hd : l.contains d = true) (id : String)
    (es : List (LedgerEntry Rat)) :
    (l.enter es).committed id d = l.committed id d + (es.map (LedgerEntry.hoursAt id d)).sum := by
  induction es generalizing l with
  | nil => exact (add_zero _).symm
  | cons e es ih =>
    have hrest := ih (l := l.book e.workCenterId e.date e.hours) ((l.contains_book ..).trans hd)
    rw [List.map_cons, List.sum_cons, ← add_assoc, ← committed_book_entry hd]
    exact hrest

end Ledger

/-! ### Hours of rows -/

namespace Row

variable {r : Row Operation.Column Rat}

/-- The row takes hours at a work center on a date. -/
def takesHours (id : String) (d : Date) (r : Row Operation.Column Rat) : Bool :=
  (r .workCenterId).isText id && (r .scheduledStart).isText (DateText.write d) &&
    !(r .status).isText OperationStatus.complete.word

theorem takesHours_iff {id : String} {d : Date} : takesHours id d r = true ↔
    r.StartsAt id d ∧ r .status ≠ .text OperationStatus.complete.word := by
  unfold takesHours
  rw [Bool.and_eq_true, Bool.and_eq_true, Bool.not_eq_true', ← Bool.not_eq_true, Cell.isText_iff,
    Cell.isText_iff, Cell.isText_iff]
  exact and_congr_left fun _ => ⟨fun h => ⟨h.1, h.2⟩, fun h => ⟨h.1, h.2⟩⟩

/-- The hours that a row takes at a work center on a date. -/
def hoursAt (minHours : Rat) (id : String) (d : Date) (r : Row Operation.Column Rat) : Rat :=
  if takesHours id d r then (Store.committedHours minHours r).getD 0 else 0

variable {minHours : Rat} {id : String} {d : Date}

theorem hoursAt_of_startsAt (h : r.StartsAt id d)
    (hopen : r .status ≠ .text OperationStatus.complete.word) :
    r.hoursAt minHours id d = (Store.committedHours minHours r).getD 0 :=
  if_pos (takesHours_iff.mpr ⟨h, hopen⟩)

theorem hoursAt_eq_zero
    (h : ¬ (r.StartsAt id d ∧ r .status ≠ .text OperationStatus.complete.word)) :
    r.hoursAt minHours id d = 0 :=
  if_neg fun htakes => h (takesHours_iff.mp htakes)

theorem value?_of_quantity {c : Operation.Column} {x : Rat} (h : r.quantity c = .ok x) :
    (r c).value? = some x := by
  unfold quantity Field.quantity at h
  split at h
  · next hc =>
    cases h
    rw [hc]
    rfl
  · next hc =>
    cases h
    rw [hc]
    rfl
  · cases h

theorem planned_of_reads {op : Operation Rat} (h : Operation.Reads r op)
    (dated : r .scheduledStart = .null ∨ ∃ d, r .scheduledStart = .text (DateText.write d)) :
    r.Planned where
  workCenterId := ⟨op.workCenterId, text_eq_ok_iff.mp h.workCenterId⟩
  start := dated
  setupHours := ⟨op.setupHours, value?_of_quantity h.setupHours, rfl⟩
  runHours := ⟨op.runHours, value?_of_quantity h.runHours, rfl⟩

theorem committedHours_of_value? {setup run : Rat} (hsetup : (r .setupHours).value? = some setup)
    (hrun : (r .runHours).value? = some run) :
    Store.committedHours minHours r = some (Quantity.larger (setup + run) minHours) := by
  unfold Store.committedHours Quantity.larger
  rw [hsetup, hrun]
  dsimp only
  rw [FirstFit.isNaN_rat, FirstFit.isNaN_rat, Bool.or_false, if_neg Bool.false_ne_true,
    if_neg Bool.false_ne_true]

/-- The hours in a row are those that its operation needs. -/
theorem committedHours_of_reads {op : Operation Rat} (h : Operation.Reads r op) :
    Store.committedHours minHours r = some (op.hoursNeeded minHours) :=
  committedHours_of_value? (value?_of_quantity h.setupHours) (value?_of_quantity h.runHours)

end Row

namespace Store

variable {s : Store Rat} {minHours : Rat} {id : String} {d : Date}

/-! ### A ledger that is built -/

theorem sum_filterMap {α : Type} (f : α → Option Rat) (xs : List α) :
    (xs.filterMap f).sum = (xs.map fun x => (f x).getD 0).sum := by
  induction xs with
  | nil => rfl
  | cons x xs ih =>
    rw [List.map_cons, List.sum_cons, List.filterMap_cons]
    cases f x with
    | none => exact ih.trans (zero_add _).symm
    | some y => exact congrArg (y + ·) ih

theorem eq_sum_of_sumHours {hours : List Rat} {h : Rat} (heq : sumHours hours = .real h) :
    h = hours.sum := by
  unfold sumHours at heq
  split at heq
  · cases heq
  · dsimp only at heq
    rw [FirstFit.isNaN_rat, if_neg Bool.false_ne_true] at heq
    cases heq
    exact Quantity.compensatedSum_rat hours

/-- The hours of an entry are those of the rows of its group. -/
theorem EntryOf.hoursAt_eq {g : List (Row Operation.Column Rat)} {e : LedgerEntry Rat}
    (h : EntryOf minHours g e) (hopen : ∀ r ∈ g, r .status ≠ .text OperationStatus.complete.word)
    (id : String) (d : Date) : e.hoursAt id d = (g.map (Row.hoursAt minHours id d)).sum := by
  have hsum : e.hours = (g.map fun r => (committedHours minHours r).getD 0).sum :=
    (eq_sum_of_sumHours h.hours).trans (sum_filterMap _ g)
  unfold LedgerEntry.hoursAt
  split
  case isTrue hat =>
    rw [LedgerEntry.isAt, Bool.and_eq_true, beq_iff_eq, beq_iff_eq] at hat
    obtain ⟨rfl, rfl⟩ := hat
    rw [hsum]
    congr 1
    exact List.map_congr_left fun r hr =>
      (Row.hoursAt_of_startsAt (h.startsAt r hr) (hopen r hr)).symm
  case isFalse hat =>
    have hzero : ∀ r ∈ g, r.hoursAt minHours id d = 0 := by
      intro r hr
      apply Row.hoursAt_eq_zero
      rintro ⟨hstarts, -⟩
      obtain ⟨hid, hd⟩ := (h.startsAt r hr).unique hstarts
      exact hat (by simp [LedgerEntry.isAt, hid, hd])
    exact (List.sum_eq_zero (by simpa using hzero)).symm

/-- The hours of the entries of a window are those of its rows. -/
theorem sum_entries {groups : List (List (Row Operation.Column Rat))}
    {entries : List (LedgerEntry Rat)} (read : List.Forall₂ (EntryOf minHours) groups entries)
    (hopen : ∀ r ∈ groups.flatten, r .status ≠ .text OperationStatus.complete.word)
    (id : String) (d : Date) : (entries.map (LedgerEntry.hoursAt id d)).sum =
      (groups.flatten.map (Row.hoursAt minHours id d)).sum := by
  induction read with
  | nil => rfl
  | @cons g e groups entries hentry hrest ih =>
    rw [List.flatten_cons] at hopen ⊢
    rw [List.map_cons, List.sum_cons, List.map_append, List.sum_append,
      ih fun r hr => hopen r (List.mem_append_right _ hr),
      hentry.hoursAt_eq fun r hr => hopen r (List.mem_append_left _ hr)]

theorem sum_map_filter {α : Type} {xs : List α} {counts : α → Bool} {f : α → Rat}
    (h : ∀ x ∈ xs, counts x = false → f x = 0) :
    ((xs.filter counts).map f).sum = (xs.map f).sum := by
  have hsplit := List.sum_map_filter_add_sum_map_filter_not (fun x => counts x = true) f xs
  simp only [Bool.decide_eq_true, Bool.not_eq_true] at hsplit
  have hrest : ((xs.filter fun x => decide (counts x = false)).map f).sum = 0 := by
    apply List.sum_eq_zero
    intro y hy
    obtain ⟨x, hx, rfl⟩ := List.mem_map.mp hy
    obtain ⟨hx, hnot⟩ := List.mem_filter.mp hx
    exact h x hx (of_decide_eq_true hnot)
  rw [hrest, add_zero] at hsplit
  exact hsplit

theorem exists_committedHours_rat {r : Row Operation.Column Rat} (planned : r.Planned) :
    ∃ hours, committedHours minHours r = some hours := by
  obtain ⟨setup, hsetup, -⟩ := planned.setupHours
  obtain ⟨run, hrun, -⟩ := planned.runHours
  exact ⟨_, Row.committedHours_of_value? hsetup hrun⟩

theorem exists_sumHours_rat {g : List (Row Operation.Column Rat)} (hne : g ≠ [])
    (planned : ∀ r ∈ g, r.Planned) :
    ∃ hours, sumHours (g.filterMap (committedHours minHours)) = .real hours :=
  ⟨_, sumHours_eq (filterMap_committedHours_ne_nil hne fun r hr =>
    exists_committedHours_rat (planned r hr)) (le_refl _)⟩

/-- The ledger that is built for a window commits the hours of all rows on its dates. -/
theorem exists_buildLedger (planned : ∀ r ∈ s.operations, r.Planned) {a b : Date}
    (ordered : DateText.OrderedWithin a b) (minHours : Rat) (counts : String → Bool) :
    ∃ l, s.buildLedger a b minHours counts = .ok l ∧ ∀ d, a ≤ d → d ≤ b →
      l.contains d = true ∧ ∀ id, counts id = true →
        l.committed id d = (s.operations.map (Row.hoursAt minHours id d)).sum := by
  have hsums : ∀ g : List (Row Operation.Column Rat), g ≠ [] → (∀ r ∈ g, r ∈ s.operations) →
      ∃ hours, sumHours (g.filterMap (committedHours minHours)) = .real hours :=
    fun g hne hg => exists_sumHours_rat hne fun r hr => planned r (hg r hr)
  obtain ⟨groups, entries, hload, grouped, read⟩ :=
    exists_entries (fun r hr => exists_startsAt (planned r hr)) hsums
  refine ⟨_, bind_eq_ok_iff.mpr ⟨entries, hload, rfl⟩, fun d hstart hend => ?_⟩
  have hcontains : (Ledger.empty a b : Ledger Rat).contains d = true := by
    simp [Ledger.contains, Ledger.empty, hstart, hend]
  refine ⟨(Ledger.contains_enter ..).trans hcontains, fun id hid => ?_⟩
  have hopen : ∀ r ∈ groups.flatten, r .status ≠ .text OperationStatus.complete.word := by
    intro r hr
    obtain ⟨hr, hcommitted⟩ := List.mem_filter.mp (grouped.perm.mem_iff.mp hr)
    obtain ⟨id, d, hstarts⟩ := exists_startsAt (planned r hr) hcommitted
    exact ((isCommitted_iff hstarts).mp hcommitted).1
  -- a row that does not count starts on no date of the window, or is complete
  have hothers : ∀ r ∈ s.operations, isCommitted a b r = false → r.hoursAt minHours id d = 0 := by
    intro r _ hr
    apply Row.hoursAt_eq_zero
    rintro ⟨hstarts, hstatus⟩
    rw [(isCommitted_iff hstarts).mpr ⟨hstatus, (ordered d).mpr ⟨hstart, hend⟩⟩] at hr
    cases hr
  have hcounts : ((entries.filter fun e => counts e.workCenterId).map
      (LedgerEntry.hoursAt id d)).sum = (entries.map (LedgerEntry.hoursAt id d)).sum := by
    apply sum_map_filter
    intro e _ he
    apply if_neg
    intro hat
    rw [LedgerEntry.isAt, Bool.and_eq_true, beq_iff_eq] at hat
    rw [hat.1, hid] at he
    cases he
  calc ((Ledger.empty a b).enter (entries.filter fun e => counts e.workCenterId)).committed id d
      = (entries.map (LedgerEntry.hoursAt id d)).sum := by
        rw [Ledger.committed_enter hcontains, hcounts]
        exact zero_add _
    _ = (groups.flatten.map (Row.hoursAt minHours id d)).sum := sum_entries read hopen id d
    _ = ((s.operations.filter (isCommitted a b)).map (Row.hoursAt minHours id d)).sum :=
        (grouped.perm.map _).sum_eq
    _ = (s.operations.map (Row.hoursAt minHours id d)).sum := sum_map_filter hothers

end Store

end Workshop
