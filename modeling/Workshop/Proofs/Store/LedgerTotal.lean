/-
  Workshop/Proofs/Store/LedgerTotal.lean
  ======================================
  **All hours of a work center.**  Every availability rests on `Ledger.total`.  It adds up
  what is committed at a work center, day by day in the order of the days
  (`Ledger.Kept.total_eq`), whatever the numbers are; in exact numbers it is the sum over
  all days (`Ledger.Kept.total_eq_finsum`).

  This is so in ledgers that are made by bookings.  They have one entry for a work center
  and a day, and none for a day outside the window (`Ledger.kept_ofEntries`), and so has
  every ledger that is built from a store (`Store.kept_of_buildLedger`).
-/
import Mathlib.Algebra.BigOperators.Finprod
import Mathlib.Algebra.Order.Ring.Rat
import Mathlib.Data.List.Nodup
import Workshop.Execution.Scheduling
import Workshop.Proofs.Execution.Calls
import Workshop.Proofs.Schedule.Replay
import Workshop.Quantity.Exact

namespace Workshop

variable {Q : Type} [Quantity Q]

/-- The work center and the day that an entry is for. -/
def LedgerEntry.place (e : LedgerEntry Q) : String × Date := (e.workCenterId, e.date)

omit [Quantity Q] in
theorem LedgerEntry.isAt_iff {e : LedgerEntry Q} {id : String} {d : Date} :
    e.isAt id d = true ↔ e.place = (id, d) := by
  simp [isAt, place]

namespace Ledger

/-! ### Entries that are made by bookings -/

/-- A ledger has one entry for a work center and a day, and none outside its window. -/
structure Kept (l : Ledger Q) : Prop where
  once : (l.entries.map LedgerEntry.place).Nodup
  inside : ∀ p ∈ l.entries.map LedgerEntry.place, l.contains p.2 = true

theorem map_place_addTo (id : String) (d : Date) (h : Q) (es : List (LedgerEntry Q)) :
    (addTo id d h es).map LedgerEntry.place =
      if (id, d) ∈ es.map LedgerEntry.place then es.map LedgerEntry.place
      else es.map LedgerEntry.place ++ [(id, d)] := by
  fun_induction addTo id d h es with
  | case1 => rfl
  | case2 e es hat =>
    have hplace := LedgerEntry.isAt_iff.mp hat
    rw [List.map_cons, List.map_cons, hplace, if_pos List.mem_cons_self]
    exact congrArg (· :: _) hplace
  | case3 e es hat ih =>
    have hne : (id, d) ≠ e.place := fun h => hat (LedgerEntry.isAt_iff.mpr h.symm)
    simp only [List.map_cons, ih, List.mem_cons, or_iff_right hne]
    split <;> rfl

theorem Kept.book {l : Ledger Q} (h : l.Kept) (id : String) (d : Date) (hours : Q) :
    (l.book id d hours).Kept := by
  unfold Ledger.book
  by_cases haccepts : l.accepts d hours = true
  · rw [if_pos haccepts]
    have hin : l.contains d = true := (Bool.and_eq_true _ _ ▸ haccepts).1
    constructor
    · rw [map_place_addTo]
      split
      case isTrue => exact h.once
      case isFalse hnew => exact h.once.append (List.nodup_singleton _) (by simpa using hnew)
    · intro p hp
      rw [map_place_addTo] at hp
      split at hp
      case isTrue => exact h.inside p hp
      case isFalse =>
        rcases List.mem_append.mp hp with hp | hp
        · exact h.inside p hp
        · rw [List.mem_singleton.mp hp]
          exact hin
  · rwa [if_neg haccepts]

theorem kept_ofEntries (a b : Date) (es : List (LedgerEntry Q)) :
    (ofEntries a b es).Kept ∧ (ofEntries a b es).windowStart = a ∧
      (ofEntries a b es).windowEnd = b := by
  refine List.foldlRecOn es _ (motive := fun l : Ledger Q =>
    l.Kept ∧ l.windowStart = a ∧ l.windowEnd = b)
    ⟨⟨List.nodup_nil, List.forall_mem_nil _⟩, rfl, rfl⟩ ?_
  rintro l ⟨hl, hstart, hend⟩ e _
  exact ⟨hl.book _ _ _, (book_windowStart ..).trans hstart, (book_windowEnd ..).trans hend⟩

/-! ### What is committed -/

theorem Kept.committed_of_mem {l : Ledger Q} (h : l.Kept) {e : LedgerEntry Q}
    (he : e ∈ l.entries) : l.committed e.workCenterId e.date = e.hours := by
  have hisAt : e.isAt e.workCenterId e.date = true := LedgerEntry.isAt_iff.mpr rfl
  unfold committed
  cases hfind : l.entries.find? (LedgerEntry.isAt e.workCenterId e.date) with
  | none => exact absurd hisAt (List.find?_eq_none.mp hfind e he)
  | some f =>
    have hplace := LedgerEntry.isAt_iff.mp (List.find?_some hfind)
    obtain rfl := List.inj_on_of_nodup_map h.once (List.mem_of_find?_eq_some hfind) he hplace
    rfl

theorem committed_of_not_mem {l : Ledger Q} {id : String} {d : Date}
    (h : (id, d) ∉ l.entries.map LedgerEntry.place) : l.committed id d = Quantity.zero := by
  unfold committed
  rw [List.find?_eq_none.mpr]
  intro e he hat
  exact h (LedgerEntry.isAt_iff.mp hat ▸ List.mem_map_of_mem he)

/-- Nothing is committed outside the window. -/
theorem Kept.committed_of_not_contains {l : Ledger Q} (h : l.Kept) {d : Date}
    (outside : l.contains d = false) (id : String) : l.committed id d = Quantity.zero := by
  refine committed_of_not_mem fun hmem => ?_
  rw [h.inside _ hmem] at outside
  cases outside

/-! ### The total -/

/-- The days for which a work center has entries, in their order. -/
def daysOf (l : Ledger Q) (id : String) : List Date :=
  ((l.entries.filter (·.workCenterId == id)).map (·.date)).mergeSort fun a b => decide (a ≤ b)

omit [Quantity Q] in
theorem mem_daysOf {l : Ledger Q} {id : String} {d : Date} :
    d ∈ l.daysOf id ↔ (id, d) ∈ l.entries.map LedgerEntry.place := by
  simp [daysOf, LedgerEntry.place, List.mem_mergeSort, and_assoc]

omit [Quantity Q] in
theorem Kept.nodup_daysOf {l : Ledger Q} (h : l.Kept) (id : String) : (l.daysOf id).Nodup := by
  refine (List.mergeSort_perm _ _).nodup_iff.mpr ?_
  have hplaces : ((l.entries.filter (·.workCenterId == id)).map LedgerEntry.place).Nodup :=
    h.once.sublist (List.filter_sublist.map _)
  have hsame : (l.entries.filter (·.workCenterId == id)).map LedgerEntry.place =
      ((l.entries.filter (·.workCenterId == id)).map (·.date)).map fun d => (id, d) := by
    rw [List.map_map]
    refine List.map_congr_left fun e he => ?_
    have hid : e.workCenterId = id := by simpa using (List.mem_filter.mp he).2
    rw [LedgerEntry.place, hid]
    rfl
  exact (hsame ▸ hplaces).of_map _

/-- **The total of a work center** is what is committed there, added up from zero, day by day
    in the order of the days. -/
theorem Kept.total_eq {l : Ledger Q} (h : l.Kept) (id : String) :
    l.total id = (l.daysOf id).foldl (fun sum d => sum + l.committed id d) Quantity.zero := by
  have hsorted : l.daysOf id = ((l.entries.filter (·.workCenterId == id)).mergeSort
      fun a b => decide (a.date ≤ b.date)).map (·.date) := by
    symm
    apply List.map_mergeSort
    exact fun _ _ _ _ => rfl
  rw [hsorted, List.foldl_map]
  refine List.foldl_ext _ _ _ fun sum e he => ?_
  obtain ⟨hmem, hid⟩ := List.mem_filter.mp (List.mem_mergeSort.mp he)
  rw [← h.committed_of_mem hmem, beq_iff_eq.mp hid]

/-- In exact numbers the total of a work center is the sum of what is committed there. -/
theorem Kept.total_eq_finsum {l : Ledger Rat} (h : l.Kept) (id : String) :
    l.total id = finsum fun d => l.committed id d := by
  have hdays : Function.support (fun d => l.committed id d) ⊆ ↑(l.daysOf id).toFinset := by
    intro d hd
    rw [List.coe_toFinset, Set.mem_ofPred_eq, mem_daysOf]
    by_contra hnone
    exact hd (committed_of_not_mem hnone)
  rw [finsum_eq_sum_of_support_subset _ hdays, List.sum_toFinset _ (h.nodup_daysOf id),
    h.total_eq, List.sum_eq_foldl, List.foldl_map]
  rfl

end Ledger

/-- A ledger that is built from a store covers the window that is asked for, and its totals
    are those of its days. -/
theorem Store.kept_of_buildLedger {s : Store Q} {a b : Date} {minHours : Q}
    {counts : String → Bool} {l : Ledger Q} (h : s.buildLedger a b minHours counts = .ok l) :
    l.Kept ∧ l.windowStart = a ∧ l.windowEnd = b := by
  obtain ⟨entries, -, hl⟩ := bind_eq_ok_iff.mp h
  cases hl
  exact Ledger.kept_ofEntries a b _

end Workshop
