/-
  Workshop/Proofs/Store/LedgerEntries.lean
  ========================================
  **The hours of a window.**  The rows that count in a window are put into groups, one
  after the other.  The groups hold these rows, each once, and the rows of a group have one
  work center and one start date (`Store.Grouped`).  So each group is read as an entry for
  its work center and date (`Store.exists_entries`).

  A start date is compared with the window as a text.  When the texts of the window are
  those of its dates, the entries are those of the operations in the window, and otherwise
  they are not, whatever else is stored (`Store.seesBookings_iff`).
-/
import Workshop.Proofs.Calendar.WrittenDate
import Workshop.Proofs.Quantity.Summing
import Workshop.Proofs.Store.Reading
import Mathlib.Data.List.Induction

namespace Workshop

variable {Q : Type}

/-- The operation of a row starts at a work center on a date. -/
structure Row.StartsAt (r : Row Operation.Column Q) (workCenterId : String) (d : Date) : Prop where
  workCenterId : r .workCenterId = .text workCenterId
  start : r .scheduledStart = .text (DateText.write d)

theorem Row.StartsAt.unique {r : Row Operation.Column Q} {id id' : String} {d d' : Date}
    (h : r.StartsAt id d) (h' : r.StartsAt id' d') : id = id' ∧ d = d' :=
  ⟨Cell.text.inj (h.workCenterId.symm.trans h'.workCenterId),
    DateText.write_injective (Cell.text.inj (h.start.symm.trans h'.start))⟩

variable [Quantity Q]

namespace Store

/-! ### Groups of rows -/

/-- A row joins a group or begins one; nothing else changes. -/
theorem flatten_addToGroup (r : Row Operation.Column Q)
    (groups : List (List (Row Operation.Column Q))) :
    (addToGroup r groups).flatten.Perm (r :: groups.flatten) := by
  fun_induction addToGroup r groups with
  | case1 => exact .refl _
  | case2 groups ih => exact ih
  | case3 g gs groups _ =>
    rw [List.flatten_cons, List.flatten_cons, List.append_assoc]
    exact List.perm_middle
  | case4 g gs groups _ ih =>
    rw [List.flatten_cons, List.flatten_cons]
    exact (ih.append_left (g :: gs)).trans List.perm_middle

omit [Quantity Q] in
/-- Rows with one work center and one start date. -/
def Together (g : List (Row Operation.Column Q)) : Prop :=
  g ≠ [] ∧ ∃ id d, ∀ r ∈ g, r.StartsAt id d

theorem together_addToGroup {r : Row Operation.Column Q} {id : String} {d : Date}
    (hr : r.StartsAt id d) {groups : List (List (Row Operation.Column Q))}
    (h : ∀ g ∈ groups, Together g) : ∀ g ∈ addToGroup r groups, Together g := by
  fun_induction addToGroup r groups with
  | case1 =>
    intro g hg
    obtain rfl := List.mem_singleton.mp hg
    refine ⟨nofun, id, d, fun t ht => ?_⟩
    obtain rfl := List.mem_singleton.mp ht
    exact hr
  | case2 groups ih => exact ih fun g hg => h g (List.mem_cons_of_mem _ hg)
  | case3 g gs groups hagrees =>
    obtain ⟨-, id', d', htogether⟩ := h _ List.mem_cons_self
    have hsame : r.StartsAt id' d' := by
      have hfirst := htogether g List.mem_cons_self
      rw [hr.workCenterId, hr.start, Bool.and_eq_true] at hagrees
      constructor
      · rw [hr.workCenterId, ← hfirst.workCenterId]
        exact (Cell.eq_of_agrees hagrees.1).symm
      · rw [hr.start, ← hfirst.start]
        exact (Cell.eq_of_agrees hagrees.2).symm
    intro g' hg'
    rcases List.mem_cons.mp hg' with rfl | hg'
    · refine ⟨nofun, id', d', fun t ht => ?_⟩
      rcases List.mem_append.mp ht with ht | ht
      · exact htogether t ht
      · obtain rfl := List.mem_singleton.mp ht
        exact hsame
    · exact h g' (List.mem_cons_of_mem _ hg')
  | case4 g gs groups _ ih =>
    intro g' hg'
    rcases List.mem_cons.mp hg' with rfl | hg'
    · exact h _ List.mem_cons_self
    · exact ih (fun g hg => h g (List.mem_cons_of_mem _ hg)) g' hg'

/-- The rows of a list in groups, each row once. -/
structure Grouped (rows : List (Row Operation.Column Q))
    (groups : List (List (Row Operation.Column Q))) : Prop where
  perm : groups.flatten.Perm rows
  together : ∀ g ∈ groups, Together g

theorem grouped_foldl {rows : List (Row Operation.Column Q)}
    (h : ∀ r ∈ rows, ∃ id d, r.StartsAt id d) :
    Grouped rows (rows.foldl (fun groups r => addToGroup r groups) []) := by
  induction rows using List.reverseRecOn with
  | nil => exact ⟨.refl _, nofun⟩
  | append_singleton rows r ih =>
    obtain ⟨hperm, htogether⟩ := ih fun t ht => h t (List.mem_append_left _ ht)
    obtain ⟨id, d, hr⟩ := h r (by simp)
    rw [List.foldl_append]
    refine ⟨?_, together_addToGroup hr htogether⟩
    exact (flatten_addToGroup r _).trans
      ((hperm.cons r).trans (List.perm_append_singleton r rows).symm)

omit [Quantity Q] in
theorem Grouped.mergeSort {rows : List (Row Operation.Column Q)}
    {groups : List (List (Row Operation.Column Q))} (h : Grouped rows groups)
    (le : List (Row Operation.Column Q) → List (Row Operation.Column Q) → Bool) :
    Grouped rows (groups.mergeSort le) :=
  ⟨(List.mergeSort_perm groups le).flatten.trans h.perm,
    fun g hg => h.together g (List.mem_mergeSort.mp hg)⟩

/-! ### Entries -/

/-- The entry of a group: its work center, its date and the sum of its hours. -/
structure EntryOf (minHours : Q) (g : List (Row Operation.Column Q)) (e : LedgerEntry Q) :
    Prop where
  ne_nil : g ≠ []
  startsAt : ∀ r ∈ g, r.StartsAt e.workCenterId e.date
  hours : sumHours (g.filterMap (committedHours minHours)) = .real e.hours

theorem readGroup_eq_ok {minHours hours : Q} {g : List (Row Operation.Column Q)}
    (h : Together g) (hsum : sumHours (g.filterMap (committedHours minHours)) = .real hours) :
    ∃ e, readGroup minHours g = .ok (some e) ∧ EntryOf minHours g e := by
  obtain ⟨hne, id, d, htogether⟩ := h
  cases g with
  | nil => exact absurd rfl hne
  | cons r rows =>
    have hr := htogether r List.mem_cons_self
    have hdate : r.date .scheduledStart 1 = .ok (some d) := by
      refine bind_eq_ok_iff.mpr ⟨some (DateText.write d), Row.text?_eq_ok_iff.mpr hr.start, ?_⟩
      rw [Field.date, DateText.read_write]
    refine ⟨⟨id, d, hours⟩, ?_, hne, htogether, hsum⟩
    refine bind_eq_ok_iff.mpr ⟨_, hdate, ?_⟩
    refine bind_eq_ok_iff.mpr ⟨id, Row.text_eq_ok_iff.mpr hr.workCenterId, ?_⟩
    rw [hsum]
    rfl

/-- The entries of a window are those of the groups of its rows, if these have sums. -/
theorem exists_entries {s : Store Q} {windowStart windowEnd : Date} {minHours : Q}
    (starts : ∀ r ∈ s.operations, isCommitted windowStart windowEnd r = true →
      ∃ id d, r.StartsAt id d)
    (sums : ∀ g : List (Row Operation.Column Q), g ≠ [] → (∀ r ∈ g, r ∈ s.operations) →
      ∃ hours, sumHours (g.filterMap (committedHours minHours)) = .real hours) :
    ∃ groups entries, s.loadLedgerEntries windowStart windowEnd minHours = .ok entries ∧
      Grouped (s.operations.filter (isCommitted windowStart windowEnd)) groups ∧
      List.Forall₂ (EntryOf minHours) groups entries := by
  have hstarts : ∀ r ∈ s.operations.filter (isCommitted windowStart windowEnd),
      ∃ id d, r.StartsAt id d := by
    intro r hr
    obtain ⟨hr, hcommitted⟩ := List.mem_filter.mp hr
    exact starts r hr hcommitted
  have hgrouped := (grouped_foldl hstarts).mergeSort groupLe
  have hread : ∀ g ∈ ((s.operations.filter (isCommitted windowStart windowEnd)).foldl
      (fun groups r => addToGroup r groups) []).mergeSort groupLe,
      ∃ e, readGroup minHours g = .ok (some e) ∧ EntryOf minHours g e := by
    intro g hg
    have hmem : ∀ r ∈ g, r ∈ s.operations := by
      intro r hr
      have := hgrouped.perm.mem_iff.mp (List.mem_flatten.mpr ⟨g, hg, hr⟩)
      exact (List.mem_filter.mp this).1
    obtain ⟨hours, hsum⟩ := sums g (hgrouped.together g hg).1 hmem
    exact readGroup_eq_ok (hgrouped.together g hg) hsum
  obtain ⟨entries, hentries⟩ := exists_forall₂ hread
  refine ⟨_, entries, ?_, hgrouped, hentries.imp fun _ _ h => h.2⟩
  have hmap : (((s.operations.filter (isCommitted windowStart windowEnd)).foldl
      (fun groups r => addToGroup r groups) []).mergeSort groupLe).mapM (readGroup minHours) =
      .ok (entries.map some) := by
    rw [mapM_eq_ok_iff, List.forall₂_map_right_iff]
    exact hentries.imp fun _ _ h => h.1
  refine bind_eq_ok_iff.mpr ⟨_, hmap, ?_⟩
  rw [List.filterMap_map]
  exact congrArg Except.ok List.filterMap_some

theorem exists_entry_iff {rows : List (Row Operation.Column Q)}
    {groups : List (List (Row Operation.Column Q))} {entries : List (LedgerEntry Q)} {minHours : Q}
    (grouped : Grouped rows groups) (read : List.Forall₂ (EntryOf minHours) groups entries)
    {id : String} {d : Date} :
    (∃ e ∈ entries, e.workCenterId = id ∧ e.date = d) ↔ ∃ r ∈ rows, r.StartsAt id d := by
  constructor
  · rintro ⟨e, he, rfl, rfl⟩
    obtain ⟨g, hg, hentry⟩ := forall₂_mem_right read he
    obtain ⟨r, hr⟩ := List.exists_mem_of_ne_nil g hentry.ne_nil
    have hmem := List.mem_flatten.mpr ⟨g, hg, hr⟩
    exact ⟨r, grouped.perm.mem_iff.mp hmem, hentry.startsAt r hr⟩
  · rintro ⟨r, hr, hstarts⟩
    obtain ⟨g, hg, hrg⟩ := List.mem_flatten.mp (grouped.perm.mem_iff.mpr hr)
    obtain ⟨e, he, hentry⟩ := forall₂_mem_left read hg
    obtain ⟨hid, hd⟩ := (hentry.startsAt r hrg).unique hstarts
    exact ⟨e, he, hid, hd⟩

end Store

/-! ### The bookings of a window -/

/-- A row whose dates were written by scheduling, with planned hours that are finite. -/
structure Row.Planned (r : Row Operation.Column Q) : Prop where
  workCenterId : ∃ id, r .workCenterId = .text id
  start : r .scheduledStart = .null ∨ ∃ d, r .scheduledStart = .text (DateText.write d)
  setupHours : ∃ x, (r .setupHours).value? = some x ∧ Quantity.isFinite x = true
  runHours : ∃ x, (r .runHours).value? = some x ∧ Quantity.isFinite x = true

/-- The entries of a window are there for the operations that start in it and are not
    complete. -/
def Store.SeesBookings (s : Store Q) (windowStart windowEnd : Date) (minHours : Q) : Prop :=
  ∃ entries, s.loadLedgerEntries windowStart windowEnd minHours = .ok entries ∧
    ∀ id d, (∃ e ∈ entries, e.workCenterId = id ∧ e.date = d) ↔
      (∃ r ∈ s.operations, r.StartsAt id d ∧ r .status ≠ .text OperationStatus.complete.word) ∧
        windowStart ≤ d ∧ d ≤ windowEnd

namespace Store

omit [Quantity Q] in
theorem isCommitted_iff {windowStart windowEnd d : Date} {r : Row Operation.Column Q} {id : String}
    (h : r.StartsAt id d) : isCommitted windowStart windowEnd r = true ↔
      r .status ≠ .text OperationStatus.complete.word ∧
        DateText.write windowStart ≤ DateText.write d ∧
          DateText.write d ≤ DateText.write windowEnd := by
  rw [isCommitted, h.start, Bool.and_eq_true, Bool.not_eq_true', ← Bool.not_eq_true,
    Cell.isText_iff]
  simp [isBetween]

theorem exists_startsAt {windowStart windowEnd : Date} {r : Row Operation.Column Q}
    (planned : r.Planned) (h : isCommitted windowStart windowEnd r = true) :
    ∃ id d, r.StartsAt id d := by
  obtain ⟨id, hid⟩ := planned.workCenterId
  rcases planned.start with hnone | ⟨d, hd⟩
  · rw [isCommitted, hnone, Bool.and_eq_true] at h
    cases h.2
  · exact ⟨id, d, hid, hd⟩

theorem sumHours_eq {hours : List Q} (hne : hours ≠ [])
    (number : Quantity.compensatedSum hours ≤ Quantity.compensatedSum hours) :
    sumHours hours = .real (Quantity.compensatedSum hours) := by
  unfold sumHours
  rw [List.isEmpty_eq_false_iff.mpr hne, if_neg Bool.false_ne_true]
  dsimp only
  rw [Quantity.isNaN_eq_false number, if_neg Bool.false_ne_true]

theorem filterMap_committedHours_ne_nil {minHours : Q} {g : List (Row Operation.Column Q)}
    (hne : g ≠ []) (h : ∀ r ∈ g, ∃ hours, committedHours minHours r = some hours) :
    g.filterMap (committedHours minHours) ≠ [] := by
  obtain ⟨r, hr⟩ := List.exists_mem_of_ne_nil g hne
  obtain ⟨hours, hhours⟩ := h r hr
  exact List.ne_nil_of_mem (List.mem_filterMap.mpr ⟨r, hr, hhours⟩)

section Sums

variable [Quantity.Ordered Q] [Quantity.Coherent Q] [Quantity.Summing Q]

/-- The hours of a row are not negative. -/
theorem exists_committedHours {minHours : Q} (minFinite : Quantity.isFinite minHours = true)
    (minNonneg : Quantity.zero ≤ minHours) {r : Row Operation.Column Q} (planned : r.Planned) :
    ∃ hours, committedHours minHours r = some hours ∧ Quantity.zero ≤ hours := by
  obtain ⟨setup, hsetup, setupFinite⟩ := planned.setupHours
  obtain ⟨run, hrun, runFinite⟩ := planned.runHours
  have hmin := Quantity.number_of_isFinite minFinite
  have hsum : setup + run ≤ setup + run :=
    Quantity.Summing.number_add (Quantity.number_of_isFinite setupFinite) runFinite
  have hnumbers : (Quantity.isNaN (setup + run) || Quantity.isNaN minHours) = false := by
    rw [Quantity.isNaN_eq_false hsum, Quantity.isNaN_eq_false hmin]
    rfl
  unfold committedHours
  rw [hsetup, hrun]
  dsimp only
  rw [hnumbers]
  refine ⟨_, rfl, ?_⟩
  split
  · exact minNonneg
  · next hlt =>
    exact Quantity.Coherent.le_trans minNonneg (Quantity.Summing.le_of_not_lt hsum hmin hlt)

theorem exists_sumHours {minHours : Q} (minFinite : Quantity.isFinite minHours = true)
    (minNonneg : Quantity.zero ≤ minHours) {g : List (Row Operation.Column Q)} (hne : g ≠ [])
    (planned : ∀ r ∈ g, r.Planned) :
    ∃ hours, sumHours (g.filterMap (committedHours minHours)) = .real hours := by
  have hnonneg : ∀ x ∈ g.filterMap (committedHours minHours), Quantity.zero ≤ x := by
    intro x hx
    obtain ⟨r, hr, hhours⟩ := List.mem_filterMap.mp hx
    obtain ⟨hours, hsome, hpos⟩ := exists_committedHours minFinite minNonneg (planned r hr)
    rw [hsome] at hhours
    cases hhours
    exact hpos
  have hsome : g.filterMap (committedHours minHours) ≠ [] :=
    filterMap_committedHours_ne_nil hne fun r hr =>
      (exists_committedHours minFinite minNonneg (planned r hr)).imp fun _ h => h.1
  exact ⟨_, sumHours_eq hsome (Quantity.compensatedSum_number hnonneg)⟩

/-- The entries of a window are those of the rows whose dates are in it as texts. -/
theorem exists_entries_of_planned {s : Store Q} (planned : ∀ r ∈ s.operations, r.Planned)
    (windowStart windowEnd : Date) {minHours : Q}
    (minFinite : Quantity.isFinite minHours = true) (minNonneg : Quantity.zero ≤ minHours) :
    ∃ entries, s.loadLedgerEntries windowStart windowEnd minHours = .ok entries ∧
      ∀ id d, (∃ e ∈ entries, e.workCenterId = id ∧ e.date = d) ↔
        (∃ r ∈ s.operations, r.StartsAt id d ∧ r .status ≠ .text OperationStatus.complete.word) ∧
          DateText.write windowStart ≤ DateText.write d ∧
            DateText.write d ≤ DateText.write windowEnd := by
  obtain ⟨groups, entries, hload, grouped, read⟩ := exists_entries
    (fun r hr => exists_startsAt (planned r hr))
    (fun g hne hg => exists_sumHours minFinite minNonneg hne fun r hr => planned r (hg r hr))
  refine ⟨entries, hload, fun id d => ?_⟩
  rw [exists_entry_iff grouped read]
  constructor
  · rintro ⟨r, hr, hstarts⟩
    obtain ⟨hr, hcommitted⟩ := List.mem_filter.mp hr
    obtain ⟨hopen, hwindow⟩ := (isCommitted_iff hstarts).mp hcommitted
    exact ⟨⟨r, hr, hstarts, hopen⟩, hwindow⟩
  · rintro ⟨⟨r, hr, hstarts, hopen⟩, hwindow⟩
    exact ⟨r, List.mem_filter.mpr ⟨hr, (isCommitted_iff hstarts).mpr ⟨hopen, hwindow⟩⟩, hstarts⟩

end Sums

/-- A store with one operation, on a date. -/
def holding (d : Date) : Store Q :=
  { (empty : Store Q) with
    operations := [Row.ofCells fun
      | .operationId => .text "O1/10"
      | .orderId => .text "O1"
      | .workCenterId => .text "LATHE"
      | .status => .text OperationStatus.ready.word
      | .scheduledStart => .text (DateText.write d)
      | .setupHours => .real Quantity.zero
      | .runHours => .real Quantity.zero
      | _ => .null] }

theorem planned_holding [Quantity.Ordered Q] (d : Date) :
    ∀ r ∈ (holding d : Store Q).operations, r.Planned := by
  intro r hr
  obtain rfl := List.mem_singleton.mp hr
  constructor
  · exact ⟨"LATHE", Row.ofCells_cell _ _⟩
  · exact Or.inr ⟨d, Row.ofCells_cell _ _⟩
  · exact ⟨Quantity.zero, by rw [Row.ofCells_cell]; rfl, Quantity.Ordered.isFinite_zero⟩
  · exact ⟨Quantity.zero, by rw [Row.ofCells_cell]; rfl, Quantity.Ordered.isFinite_zero⟩

theorem exists_booked_holding (d : Date) : ∃ r ∈ (holding d : Store Q).operations,
    r.StartsAt "LATHE" d ∧ r .status ≠ .text OperationStatus.complete.word := by
  refine ⟨_, List.mem_singleton_self _, ⟨Row.ofCells_cell _ _, Row.ofCells_cell _ _⟩, ?_⟩
  rw [Row.ofCells_cell]
  intro h
  exact absurd (Cell.text.inj h) (by decide)

/-- **The bookings of a window are seen** in every store when, and only when, the texts of
    the window are those of its dates.  From a year of four digits on that is so as long as
    the window ends in such a year. -/
theorem seesBookings_iff [Quantity.Ordered Q] [Quantity.Coherent Q] [Quantity.Summing Q]
    (today : Date) (horizonDays : Nat) :
    ((∀ (s : Store Q) (minHours : Q), (∀ r ∈ s.operations, r.Planned) →
      Quantity.isFinite minHours = true → Quantity.zero ≤ minHours →
        s.SeesBookings today (today.addDaysClamped horizonDays) minHours) ↔
      DateText.OrderedWithin today (today.addDaysClamped horizonDays)) ∧
    (today.FourDigitYear → (DateText.OrderedWithin today (today.addDaysClamped horizonDays) ↔
      (today.addDaysClamped horizonDays).civil.year ≤ 9999)) := by
  refine ⟨⟨?_, ?_⟩, ?_⟩
  · intro h d
    have hzero := Quantity.Ordered.isFinite_zero (Q := Q)
    have hnonneg := Quantity.number_of_isFinite hzero
    obtain ⟨entries, hload, hsees⟩ := h (holding d) Quantity.zero (planned_holding d) hzero hnonneg
    obtain ⟨entries', hload', htexts⟩ := exists_entries_of_planned (planned_holding d) today
      (today.addDaysClamped horizonDays) hzero hnonneg
    obtain rfl : entries = entries' := Except.ok.inj (hload.symm.trans hload')
    have hbooked := exists_booked_holding (Q := Q) d
    have hdates := (htexts "LATHE" d).symm.trans (hsees "LATHE" d)
    simpa only [hbooked, true_and] using hdates
  · intro ordered s minHours planned minFinite minNonneg
    obtain ⟨entries, hload, htexts⟩ := exists_entries_of_planned planned today
      (today.addDaysClamped horizonDays) minFinite minNonneg
    refine ⟨entries, hload, fun id d => ?_⟩
    rw [htexts, ordered d]
  · intro hyear
    exact DateText.orderedWithin_iff hyear (Date.le_addDaysClamped today horizonDays)

/-! ### A window of two weeks and one of three million days -/

/-- Saturday, 24 October 2026. -/
def october : Date := ⟨740218, by decide, by decide⟩

/-- The Monday after it. -/
def bookedMonday : Date := october.addDaysClamped 2

/-- All bookings of two weeks are seen. -/
theorem seesBookings_iff_fortnight :
    (october.addDaysClamped 14).civil.year ≤ 9999 ∧
    ∀ (s : Store Float) (minHours : Float), (∀ r ∈ s.operations, r.Planned) →
      Quantity.isFinite minHours = true → Quantity.zero ≤ minHours →
        s.SeesBookings october (october.addDaysClamped 14) minHours := by
  have hyear : (october.addDaysClamped 14).civil.year ≤ 9999 := by decide
  have hiff := seesBookings_iff (Q := Float) october 14
  exact ⟨hyear, hiff.1.mpr ((hiff.2 (by unfold Date.FourDigitYear; decide)).mpr hyear)⟩

/-- The window ends in a year of five digits, and the booking on its first Monday is lost. -/
theorem seesBookings_not_far :
    ((∀ r ∈ (holding bookedMonday : Store Float).operations, r.Planned) ∧
      Quantity.isFinite (0.5 : Float) = true ∧ Quantity.zero ≤ (0.5 : Float)) ∧
    (∃ r ∈ (holding bookedMonday : Store Float).operations, r.StartsAt "LATHE" bookedMonday ∧
      r .status ≠ .text OperationStatus.complete.word) ∧
    october ≤ bookedMonday ∧ bookedMonday ≤ october.addDaysClamped 3000000 ∧
    DateText.write (october.addDaysClamped 3000000) = "+10240-07-14" ∧
    (holding bookedMonday : Store Float).loadLedgerEntries october
      (october.addDaysClamped 3000000) 0.5 = .ok [] ∧
    ¬ (holding bookedMonday : Store Float).SeesBookings october
      (october.addDaysClamped 3000000) 0.5 := by
  have hempty : (holding bookedMonday : Store Float).loadLedgerEntries october
      (october.addDaysClamped 3000000) 0.5 = .ok [] := by
    have hrows : (holding bookedMonday : Store Float).operations.filter
        (isCommitted october (october.addDaysClamped 3000000)) = [] := by decide +kernel
    unfold loadLedgerEntries
    dsimp only
    rw [hrows, List.foldl_nil, List.mergeSort_nil]
    rfl
  refine ⟨⟨planned_holding bookedMonday, by decide, by decide⟩, exists_booked_holding _, by decide,
    by decide, by decide +kernel, hempty, ?_⟩
  rintro ⟨entries, hload, hsees⟩
  obtain rfl : [] = entries := Except.ok.inj (hempty.symm.trans hload)
  obtain ⟨e, he, -⟩ := (hsees "LATHE" bookedMonday).mpr
    ⟨exists_booked_holding bookedMonday, by decide, by decide⟩
  cases he

end Store

end Workshop
