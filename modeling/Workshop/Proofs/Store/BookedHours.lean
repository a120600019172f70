/-
  Workshop/Proofs/Store/BookedHours.lean
  ======================================
  **What a ledger is read from.**  The hours of a window are read from four columns of the
  operations that count in it (`Store.readEntries_booked`), and those of a work center from
  its own rows alone (`Store.readEntries_filter`).  So a ledger holds the same of a work
  center in two stores that have the same rows of it (`Store.only_of_booked`), to the last
  bit: sums of doubles depend on their order, and the order of its own rows is all that
  they depend on.
-/
import Workshop.Execution.Scheduling
import Workshop.Proofs.Schedule.Arrangement
import Workshop.Proofs.Store.Reading
import Mathlib.Data.Prod.Lex
import Mathlib.Data.String.Basic

namespace Workshop

variable {Q : Type} [Quantity Q]

/-! ### The columns of a booking -/

/-- The columns that the hours of a window are read from. -/
def bookedColumns : List Operation.Column :=
  [.workCenterId, .scheduledStart, .setupHours, .runHours]

omit [Quantity Q] in
/-- What a row says of its booking. -/
def Row.booked (r : Row Operation.Column Q) : Row Operation.Column Q :=
  Row.ofCells fun c => if c ∈ bookedColumns then r c else .null

omit [Quantity Q] in
theorem Row.booked_cell (r : Row Operation.Column Q) (c : Operation.Column) :
    r.booked.cell c = if c ∈ bookedColumns then r c else .null := Row.ofCells_cell _ c

namespace Store

/-- Rows by work center and start date. -/
def groupRows (rows : List (Row Operation.Column Q)) : List (List (Row Operation.Column Q)) :=
  rows.foldl (fun groups r => addToGroup r groups) []

/-- The entries of rows that count in a window. -/
def readEntries (minHours : Q) (rows : List (Row Operation.Column Q)) :
    Except StoreFault (List (LedgerEntry Q)) := do
  let entries ← ((groupRows rows).mergeSort groupLe).mapM (readGroup minHours)
  .ok (entries.filterMap id)

theorem loadLedgerEntries_eq (s : Store Q) (windowStart windowEnd : Date) (minHours : Q) :
    s.loadLedgerEntries windowStart windowEnd minHours =
      readEntries minHours (s.operations.filter (isCommitted windowStart windowEnd)) := rfl

theorem committedHours_booked (minHours : Q) (r : Row Operation.Column Q) :
    committedHours minHours r.booked = committedHours minHours r := by
  simp [committedHours, r.booked_cell, bookedColumns]

theorem addToGroup_booked (r : Row Operation.Column Q)
    (groups : List (List (Row Operation.Column Q))) :
    addToGroup r.booked (groups.map (List.map Row.booked)) =
      (addToGroup r groups).map (List.map Row.booked) := by
  fun_induction addToGroup r groups with
  | case1 => rfl
  | case2 groups ih => exact ih
  | case3 g gs groups hagrees =>
    simp [addToGroup, Row.booked_cell, bookedColumns, hagrees]
  | case4 g gs groups hagrees ih =>
    simp [addToGroup, Row.booked_cell, bookedColumns, hagrees, ih]

theorem groupRows_booked (rows : List (Row Operation.Column Q)) :
    groupRows (rows.map Row.booked) = (groupRows rows).map (List.map Row.booked) := by
  induction rows using List.reverseRecOn with
  | nil => rfl
  | append_singleton rows r ih =>
    simp only [groupRows] at ih ⊢
    rw [List.map_append, List.foldl_append, List.foldl_append, ih]
    exact addToGroup_booked r _

theorem groupLe_booked (a b : List (Row Operation.Column Q)) :
    groupLe (a.map Row.booked) (b.map Row.booked) = groupLe a b := by
  cases a with
  | nil => rfl
  | cons r rows =>
    cases b with
    | nil => rfl
    | cons t rows' => simp [groupLe, Row.booked_cell, bookedColumns]

theorem readGroup_booked (minHours : Q) (g : List (Row Operation.Column Q)) :
    readGroup minHours (g.map Row.booked) = readGroup minHours g := by
  cases g with
  | nil => rfl
  | cons r rows =>
    have hours : ((r :: rows).map Row.booked).filterMap (committedHours minHours) =
        (r :: rows).filterMap (committedHours minHours) := by
      rw [List.filterMap_map]
      exact List.filterMap_congr fun t _ => committedHours_booked minHours t
    rw [List.map_cons] at hours ⊢
    simp [readGroup, hours, Row.date, Row.text?, Row.text, r.booked_cell, bookedColumns]

/-- The entries depend on nothing but what the rows say of their bookings. -/
theorem readEntries_booked (minHours : Q) (rows : List (Row Operation.Column Q)) :
    readEntries minHours (rows.map Row.booked) = readEntries minHours rows := by
  have sorted : (groupRows (rows.map Row.booked)).mergeSort groupLe =
      ((groupRows rows).mergeSort groupLe).map (List.map Row.booked) := by
    rw [groupRows_booked, List.map_mergeSort fun a _ b _ => (groupLe_booked a b).symm]
  simp only [readEntries, sorted, List.mapM_map, Function.comp_def, readGroup_booked]

/-! ### The rows of one work center -/

omit [Quantity Q] in
/-- The row is one of the work center. -/
def isAt (workCenterId : String) (r : Row Operation.Column Q) : Bool :=
  (r .workCenterId).isText workCenterId

omit [Quantity Q] in
/-- The group begins with a row of the work center. -/
def isGroupAt (workCenterId : String) (g : List (Row Operation.Column Q)) : Bool :=
  g.head?.any (isAt workCenterId)

theorem isText_of_agrees {a b : Cell Q} (h : Cell.agrees a b = true) (s : String) :
    a.isText s = b.isText s := by
  have swapped : Cell.agrees b a = true := by
    rw [Cell.agrees] at h ⊢
    simp only [Bool.and_eq_true] at h ⊢
    exact ⟨⟨⟨h.1.1.2, h.1.1.1⟩, h.2⟩, h.1.2⟩
  rw [Bool.eq_iff_iff, Cell.isText_iff, Cell.isText_iff]
  constructor
  · rintro rfl
    exact Cell.eq_of_agrees h
  · rintro rfl
    exact Cell.eq_of_agrees swapped

theorem filter_addToGroup (id : String) (r : Row Operation.Column Q)
    {groups : List (List (Row Operation.Column Q))} (hne : ∀ g ∈ groups, g ≠ []) :
    (addToGroup r groups).filter (isGroupAt id) =
      if isAt id r then addToGroup r (groups.filter (isGroupAt id))
      else groups.filter (isGroupAt id) := by
  fun_induction addToGroup r groups with
  | case1 => cases hr : isAt id r <;> simp [isGroupAt, addToGroup, hr]
  | case2 groups ih => exact absurd rfl (hne [] List.mem_cons_self)
  | case3 g gs groups hagrees =>
    have same : isAt id r = isAt id g := isText_of_agrees (Bool.and_eq_true_iff.mp hagrees).1 id
    cases hg : isAt id g with
    | true => simp [isGroupAt, same, hg, addToGroup, hagrees]
    | false => simp [isGroupAt, same, hg]
  | case4 g gs groups hagrees ih =>
    have rest := ih fun g' hg' => hne g' (List.mem_cons_of_mem _ hg')
    cases hg : isAt id g with
    | true =>
      have kept : isGroupAt id (g :: gs) = true := by simpa [isGroupAt] using hg
      rw [List.filter_cons_of_pos kept, List.filter_cons_of_pos kept, rest, addToGroup,
        if_neg hagrees]
      cases isAt id r <;> rfl
    | false => simpa [isGroupAt, hg] using rest

theorem ne_nil_of_addToGroup {r : Row Operation.Column Q}
    {groups : List (List (Row Operation.Column Q))} (hne : ∀ g ∈ groups, g ≠ []) :
    ∀ g ∈ addToGroup r groups, g ≠ [] := by
  fun_induction addToGroup r groups with
  | case1 => simp
  | case2 groups ih => exact ih fun g hg => hne g (List.mem_cons_of_mem _ hg)
  | case3 g gs groups _ =>
    rintro g' hg' rfl
    rcases List.mem_cons.mp hg' with h | h
    · cases h
    · exact hne [] (List.mem_cons_of_mem _ h) rfl
  | case4 g gs groups _ ih =>
    intro g' hg'
    rcases List.mem_cons.mp hg' with rfl | h
    · nofun
    · exact ih (fun g hg => hne g (List.mem_cons_of_mem _ hg)) g' h

theorem groupRows_concat (rows : List (Row Operation.Column Q)) (r : Row Operation.Column Q) :
    groupRows (rows ++ [r]) = addToGroup r (groupRows rows) := by
  rw [groupRows, List.foldl_append]
  rfl

theorem ne_nil_of_groupRows (rows : List (Row Operation.Column Q)) :
    ∀ g ∈ groupRows rows, g ≠ [] := by
  induction rows using List.reverseRecOn with
  | nil => nofun
  | append_singleton rows r ih =>
    rw [groupRows_concat]
    exact ne_nil_of_addToGroup ih

/-- The groups of a work center are the groups of its rows. -/
theorem filter_groupRows (id : String) (rows : List (Row Operation.Column Q)) :
    (groupRows rows).filter (isGroupAt id) = groupRows (rows.filter (isAt id)) := by
  induction rows using List.reverseRecOn with
  | nil => rfl
  | append_singleton rows r ih =>
    rw [groupRows_concat, filter_addToGroup id r (ne_nil_of_groupRows rows), ih,
      List.filter_append]
    cases hr : isAt id r with
    | true => rw [if_pos rfl, List.filter_cons_of_pos hr, List.filter_nil, groupRows_concat]
    | false => simp [hr]

/-! ### The order of groups -/

omit [Quantity Q] in
/-- The text in a cell. -/
def wording : Cell Q → String
  | .text s => s
  | _ => ""

omit [Quantity Q] in
/-- What groups are ordered by: the work center, and then the start date. -/
def groupKey : List (Row Operation.Column Q) → String ×ₗ String
  | [] => toLex ("", "")
  | r :: _ => toLex (wording (r .workCenterId), wording (r .scheduledStart))

omit [Quantity Q] in
/-- The group begins with a row of a work center that has a start date. -/
structure Headed (g : List (Row Operation.Column Q)) (workCenterId start : String) : Prop where
  head : ∃ r rows, g = r :: rows ∧ r .workCenterId = .text workCenterId ∧
    r .scheduledStart = .text start

theorem agrees_text_iff {a b : String} :
    Cell.agrees (.text a : Cell Q) (.text b) = true ↔ a = b := by
  constructor
  · intro h
    exact (Cell.text.inj (Cell.eq_of_agrees h)).symm
  · rintro rfl
    simp [Cell.agrees, Cell.isNull, Cell.le]

theorem groupLe_eq {a b : List (Row Operation.Column Q)} {id id' start start' : String}
    (ha : Headed a id start) (hb : Headed b id' start') :
    groupLe a b = decide (groupKey a ≤ groupKey b) := by
  obtain ⟨r, rows, rfl, hid, hstart⟩ := ha.head
  obtain ⟨t, rows', rfl, hid', hstart'⟩ := hb.head
  simp only [groupLe, groupKey, hid, hid', hstart, hstart', wording, Prod.Lex.toLex_le_toLex]
  by_cases hsame : id = id'
  · rw [if_pos (agrees_text_iff.mpr hsame)]
    simp [Cell.le, hsame]
  · rw [if_neg (mt agrees_text_iff.mp hsame)]
    simp [Cell.le, hsame, lt_iff_le_and_ne]

/-- A group that is read has a work center and a start date, and gives an entry of its work
    center. -/
theorem headed_of_readGroup {minHours : Q} {g : List (Row Operation.Column Q)}
    {e : Option (LedgerEntry Q)} (hne : g ≠ []) (h : readGroup minHours g = .ok e) :
    ∃ entry start, e = some entry ∧ Headed g entry.workCenterId start := by
  cases g with
  | nil => exact absurd rfl hne
  | cons r rows =>
    obtain ⟨date, hdate, h⟩ := bind_eq_ok_iff.mp h
    cases date with
    | none => cases h
    | some d =>
      obtain ⟨id, hid, h⟩ := bind_eq_ok_iff.mp h
      obtain ⟨hours, -, h⟩ := bind_eq_ok_iff.mp h
      cases h
      obtain ⟨text, htext, hread⟩ := bind_eq_ok_iff.mp hdate
      cases text with
      | none => cases hread
      | some start =>
        exact ⟨_, start, rfl, r, rows, rfl, Row.text_eq_ok_iff.mp hid,
          Row.text?_eq_ok_iff.mp htext⟩

omit [Quantity Q] in
theorem isGroupAt_of_headed {g : List (Row Operation.Column Q)} {id start : String}
    (h : Headed g id start) (id' : String) : isGroupAt id' g = (id == id') := by
  obtain ⟨r, rows, rfl, hid, -⟩ := h.head
  simp [isGroupAt, isAt, hid, Cell.isText]

theorem mergeSort_groupLe_eq {groups : List (List (Row Operation.Column Q))}
    (h : ∀ g ∈ groups, ∃ id start, Headed g id start) :
    groups.mergeSort groupLe = groups.mergeSort fun a b => decide (groupKey a ≤ groupKey b) := by
  have sorted := List.map_mergeSort (f := id) (r := groupLe)
    (s := fun a b => decide (groupKey a ≤ groupKey b)) (l := groups) ?_
  · rwa [List.map_id, List.map_id] at sorted
  · intro a ha b hb
    obtain ⟨_, _, ha⟩ := h a ha
    obtain ⟨_, _, hb⟩ := h b hb
    exact groupLe_eq ha hb

/-- The groups of a work center come in the order in which its rows alone would bring them. -/
theorem filter_sorted (id : String) {groups : List (List (Row Operation.Column Q))}
    (h : ∀ g ∈ groups, ∃ id start, Headed g id start) :
    (groups.mergeSort groupLe).filter (isGroupAt id) =
      (groups.filter (isGroupAt id)).mergeSort groupLe := by
  rw [mergeSort_groupLe_eq h,
    mergeSort_groupLe_eq fun g hg => h g (List.mem_filter.mp hg).1]
  apply filter_mergeSort
  · intro a b c hab hbc
    rw [decide_eq_true_iff] at hab hbc ⊢
    exact hab.trans hbc
  · intro a b
    rw [Bool.or_eq_true, decide_eq_true_iff, decide_eq_true_iff]
    exact le_total _ _

/-- All groups are read, and each gives an entry. -/
theorem readEntries_eq_ok_iff {minHours : Q} {rows : List (Row Operation.Column Q)}
    {entries : List (LedgerEntry Q)} : readEntries minHours rows = .ok entries ↔
      List.Forall₂ (fun g e => readGroup minHours g = .ok (some e))
        ((groupRows rows).mergeSort groupLe) entries := by
  constructor
  · intro h
    obtain ⟨read, hread, h⟩ := bind_eq_ok_iff.mp h
    cases h
    have each : List.Forall₂ (fun g e => ∃ entry,
        readGroup minHours g = .ok (some entry) ∧ some entry = e)
        ((groupRows rows).mergeSort groupLe) read := by
      refine (forall₂_mem (mapM_eq_ok_iff.mp hread)).imp ?_
      rintro g e ⟨hg, hmem, -⟩
      have hne := ne_nil_of_groupRows rows g (List.mem_mergeSort.mp hmem)
      obtain ⟨entry, start, rfl, -⟩ := headed_of_readGroup hne hg
      exact ⟨entry, hg, rfl⟩
    obtain ⟨entries, hgroups, hsome⟩ := exists_of_forall₂ each
    obtain rfl : entries.map some = read := by
      rw [← List.forall₂_eq_eq_eq, List.forall₂_map_left_iff]
      exact hsome
    rwa [List.filterMap_map, Function.id_comp, List.filterMap_some]
  · intro h
    have hread : ((groupRows rows).mergeSort groupLe).mapM (readGroup minHours) =
        .ok (entries.map some) := by
      rw [mapM_eq_ok_iff, List.forall₂_map_right_iff]
      exact h
    refine bind_eq_ok_iff.mpr ⟨_, hread, ?_⟩
    rw [List.filterMap_map, Function.id_comp, List.filterMap_some]

/-- The entries of a work center are read from its own rows. -/
theorem readEntries_filter (id : String) {minHours : Q} {rows : List (Row Operation.Column Q)}
    {entries : List (LedgerEntry Q)} (h : readEntries minHours rows = .ok entries) :
    readEntries minHours (rows.filter (isAt id)) =
      .ok (entries.filter (·.workCenterId == id)) := by
  rw [readEntries_eq_ok_iff] at h ⊢
  have headed : ∀ g ∈ groupRows rows, ∃ id start, Headed g id start := by
    intro g hg
    obtain ⟨e, -, hread⟩ := forall₂_mem_left h (List.mem_mergeSort.mpr hg)
    obtain ⟨entry, start, -, hhead⟩ := headed_of_readGroup (ne_nil_of_groupRows rows g hg) hread
    exact ⟨_, start, hhead⟩
  rw [← filter_groupRows, ← filter_sorted id headed]
  refine (List.rel_filter ?_ (forall₂_mem h)).imp fun _ _ he => he.1
  rintro g e ⟨hread, hg, -⟩
  have hne := ne_nil_of_groupRows rows g (List.mem_mergeSort.mp hg)
  obtain ⟨entry, start, hentry, hhead⟩ := headed_of_readGroup hne hread
  cases hentry
  dsimp only
  rw [isGroupAt_of_headed hhead]

end Store

/-! ### The hours of one work center -/

namespace Ledger

/-- What the ledger holds of one work center. -/
def only (id : String) (l : Ledger Q) : Ledger Q :=
  { l with entries := l.entries.filter (·.workCenterId == id) }

theorem filter_addTo (id wc : String) (d : Date) (h : Q) (es : List (LedgerEntry Q)) :
    (addTo wc d h es).filter (·.workCenterId == id) =
      if wc = id then addTo wc d h (es.filter (·.workCenterId == id))
      else es.filter (·.workCenterId == id) := by
  fun_induction addTo wc d h es with
  | case1 => by_cases hwc : wc = id <;> simp [addTo, hwc]
  | case2 e es hat =>
    obtain ⟨rfl, -⟩ : e.workCenterId = wc ∧ e.date = d := by simpa [LedgerEntry.isAt] using hat
    by_cases hwc : e.workCenterId = id
    · subst hwc
      simp [addTo, hat]
    · simp [hwc]
  | case3 e es hat ih =>
    by_cases he : e.workCenterId = id
    · subst he
      by_cases hwc : wc = e.workCenterId
      · subst hwc
        simp [ih, addTo, hat]
      · simp [ih, hwc]
    · simp [he, ih]

theorem only_book (id wc : String) (d : Date) (h : Q) (l : Ledger Q) :
    (l.book wc d h).only id = if wc = id then (l.only id).book wc d h else l.only id := by
  have accepts : (l.only id).accepts d h = l.accepts d h := rfl
  simp only [book, accepts]
  by_cases haccepts : l.accepts d h = true
  · rw [if_pos haccepts, if_pos haccepts]
    simp only [only, filter_addTo]
    split <;> rfl
  · rw [if_neg haccepts, if_neg haccepts, ite_self]

theorem only_ofEntries (id : String) (a b : Date) (es : List (LedgerEntry Q)) :
    (ofEntries a b es).only id = ofEntries a b (es.filter (·.workCenterId == id)) := by
  induction es using List.reverseRecOn with
  | nil => rfl
  | append_singleton es e ih =>
    have last : ofEntries a b (es ++ [e]) =
        (ofEntries a b es).book e.workCenterId e.date e.hours := by
      rw [ofEntries, List.foldl_append]
      rfl
    rw [last, only_book, ih, List.filter_append]
    by_cases he : e.workCenterId = id
    · rw [if_pos he, List.filter_cons_of_pos (by simpa using he), List.filter_nil, ofEntries,
        ofEntries, List.foldl_append]
      rfl
    · rw [if_neg he, List.filter_cons_of_neg (by simpa using he), List.filter_nil,
        List.append_nil]

theorem total_only (id : String) (l : Ledger Q) : (l.only id).total id = l.total id := by
  simp only [total, only, List.filter_filter, Bool.and_self]

end Ledger

namespace Store

/-- What is booked in a window, row by row. -/
def bookedRows (windowStart windowEnd : Date) (rows : List (Row Operation.Column Q)) :
    List (Row Operation.Column Q) :=
  (rows.filter (isCommitted windowStart windowEnd)).map Row.booked

variable {s t : Store Q} {windowStart windowEnd : Date} {minHours : Q} {l m : Ledger Q}

theorem buildLedger_congr {counts : String → Bool}
    (same : bookedRows windowStart windowEnd t.operations =
      bookedRows windowStart windowEnd s.operations) :
    t.buildLedger windowStart windowEnd minHours counts =
      s.buildLedger windowStart windowEnd minHours counts := by
  have entries : t.loadLedgerEntries windowStart windowEnd minHours =
      s.loadLedgerEntries windowStart windowEnd minHours := by
    rw [loadLedgerEntries_eq, ← readEntries_booked, ← bookedRows, same, bookedRows,
      readEntries_booked, ← loadLedgerEntries_eq]
  rw [buildLedger, buildLedger, entries]

/-- What a ledger holds of a work center is read from its own rows. -/
theorem exists_only_of_buildLedger (id : String)
    (h : s.buildLedger windowStart windowEnd minHours (fun _ => true) = .ok l) :
    ∃ entries,
      readEntries minHours ((bookedRows windowStart windowEnd s.operations).filter (isAt id)) =
        .ok entries ∧ l.only id = .ofEntries windowStart windowEnd entries := by
  obtain ⟨entries, hentries, h⟩ := bind_eq_ok_iff.mp h
  cases h
  rw [loadLedgerEntries_eq, ← readEntries_booked, ← bookedRows] at hentries
  refine ⟨_, readEntries_filter id hentries, ?_⟩
  rw [Ledger.only_ofEntries, List.filter_true]

/-- **The hours of a work center are those of its own rows.**  Two stores that have the same
    rows of it in a window give it the same hours there. -/
theorem only_of_booked {id : String}
    (hs : s.buildLedger windowStart windowEnd minHours (fun _ => true) = .ok l)
    (ht : t.buildLedger windowStart windowEnd minHours (fun _ => true) = .ok m)
    (same : (bookedRows windowStart windowEnd t.operations).filter (isAt id) =
      (bookedRows windowStart windowEnd s.operations).filter (isAt id)) :
    m.only id = l.only id := by
  obtain ⟨entries, hread, hl⟩ := exists_only_of_buildLedger id hs
  obtain ⟨entries', hread', hm⟩ := exists_only_of_buildLedger id ht
  rw [same, hread] at hread'
  cases hread'
  rw [hl, hm]

end Store

end Workshop
