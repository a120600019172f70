/-
  Workshop/Proofs/Store/GuardedDates.lean
  =======================================
  **Dates are written under guard.**  A list of placements with distinct operations is
  written as if all at once: an operation gets the dates of its placement when its row
  was open before, and the placements without an open row are rejected
  (`writeSchedule_eq`).

  A store is `Later` than another one when it differs only in what runs of scheduling
  change: dates where there were none, and the master data.
-/
import Workshop.Execution.Scheduling
import Workshop.Proofs.Store.Keys
import Mathlib.Data.List.Basic

namespace Workshop

variable {Q : Type}

theorem Cell.isNull_iff {v : Cell Q} : v.isNull = true ↔ v = .null := by
  cases v <;> simp [isNull]

/-- The row has the dates of a placement. -/
def Placement.Holds (p : Placement Q) (r : Row Operation.Column Q) : Prop :=
  r .scheduledStart = .text (DateText.write p.start) ∧
    r .scheduledEnd = .text (DateText.write p.stop)

namespace Store

/-! ### Open rows -/

theorem isOpen_iff {s : Store Q} {id : String} {r : Row Operation.Column Q} :
    s.isOpen id r = true ↔
      r .operationId = .text id ∧ r .scheduledStart = .null ∧ id ∉ s.disputed := by
  simp [isOpen, Cell.isText_iff, Cell.isNull_iff, and_assoc]

theorem withDates_cell (start stop : Date) (r : Row Operation.Column Q) (c : Operation.Column) :
    (withDates start stop r).cell c =
      if c = .scheduledEnd then .text (DateText.write stop)
      else if c = .scheduledStart then .text (DateText.write start) else r c := by
  rw [withDates, Row.set_cell, Row.set_cell]

theorem isOpen_withDates (s : Store Q) (id : String) (start stop : Date)
    (r : Row Operation.Column Q) : s.isOpen id (withDates start stop r) = false := by
  rw [Bool.eq_false_iff, ne_eq, isOpen_iff, withDates_cell, withDates_cell]
  simp

/-- The row with the dates of a placement, if it is open for it. -/
def dateRow (s : Store Q) (p : Placement Q) (r : Row Operation.Column Q) :
    Row Operation.Column Q :=
  if s.isOpen p.operationId r then withDates p.start p.stop r else r

/-- The row after placements, each of them entered if the row is open for it. -/
def placeRow (s : Store Q) (ps : List (Placement Q)) (r : Row Operation.Column Q) :
    Row Operation.Column Q :=
  ps.foldl (fun r p => s.dateRow p r) r

theorem writeDates_eq (s : Store Q) (p : Placement Q) :
    s.writeDates p.operationId p.start p.stop =
      ({ s with operations := s.operations.map (s.dateRow p) },
        s.operations.any (s.isOpen p.operationId)) := by
  unfold writeDates
  split
  case isTrue h =>
    rw [h]
    rfl
  case isFalse h =>
    rw [Bool.not_eq_true] at h
    have hsame : s.operations.map (s.dateRow p) = s.operations := by
      rw [List.any_eq_false] at h
      exact (List.map_congr_left fun r hr => if_neg (h r hr)).trans (List.map_id _)
    rw [hsame, h]

theorem isOpen_dateRow {s : Store Q} {p : Placement Q} {id : String} (h : p.operationId ≠ id)
    (r : Row Operation.Column Q) : s.isOpen id (s.dateRow p r) = s.isOpen id r := by
  unfold dateRow
  split
  case isFalse => rfl
  case isTrue hp =>
    rw [isOpen_withDates, eq_comm, Bool.eq_false_iff]
    intro hq
    have hid := (isOpen_iff.mp hp).1.symm.trans (isOpen_iff.mp hq).1
    exact h (Cell.text.inj hid)

theorem writeSchedule_fst (s : Store Q) (ps : List (Placement Q)) :
    (s.writeSchedule (ps.map fun p => (p.operationId, p.start, p.stop))).1 =
      { s with operations := s.operations.map (s.placeRow ps) } := by
  induction ps generalizing s with
  | nil =>
    have hsame : s.operations.map (s.placeRow []) = s.operations := List.map_id _
    rw [hsame]
    rfl
  | cons p ps ih =>
    simp only [List.map_cons, writeSchedule, writeDates_eq]
    rw [ih, List.map_map]
    rfl

/-- Placements of distinct operations do not disturb one another: those are rejected for
    which no row was open at first. -/
theorem writeSchedule_snd (s : Store Q) (ps : List (Placement Q))
    (distinct : (ps.map (·.operationId)).Nodup) :
    (s.writeSchedule (ps.map fun p => (p.operationId, p.start, p.stop))).2 =
      (ps.filter fun p => !s.operations.any (s.isOpen p.operationId)).map (·.operationId) := by
  induction ps generalizing s with
  | nil => rfl
  | cons p ps ih =>
    rw [List.map_cons, List.nodup_cons] at distinct
    obtain ⟨hnew, distinct⟩ := distinct
    have hopen : ∀ q ∈ ps, (s.operations.map (s.dateRow p)).any (s.isOpen q.operationId) =
        s.operations.any (s.isOpen q.operationId) := by
      intro q hq
      rw [List.any_map]
      congr 1
      funext r
      apply isOpen_dateRow
      intro h
      exact hnew (h ▸ List.mem_map_of_mem hq)
    have hrest : (ps.filter fun q =>
        !(s.operations.map (s.dateRow p)).any (s.isOpen q.operationId)) =
          ps.filter fun q => !s.operations.any (s.isOpen q.operationId) :=
      List.filter_congr fun q hq => by rw [hopen q hq]
    have hsnd := (ih { s with operations := s.operations.map (s.dateRow p) } distinct).trans
      (congrArg (List.map (·.operationId)) hrest)
    simp only [List.map_cons, writeSchedule, writeDates_eq]
    rw [hsnd, List.filter_cons]
    cases s.operations.any (s.isOpen p.operationId) <;> rfl

/-! ### Later rows and stores -/

/-- A row as it may be after runs of scheduling: its dates were written, if it had none. -/
structure LaterRow (r t : Row Operation.Column Q) : Prop where
  same : ∀ c, c ≠ .scheduledStart → c ≠ .scheduledEnd → t c = r c
  dates : r .scheduledStart ≠ .null →
    t .scheduledStart = r .scheduledStart ∧ t .scheduledEnd = r .scheduledEnd

theorem LaterRow.refl (r : Row Operation.Column Q) : LaterRow r r :=
  ⟨fun _ _ _ => rfl, fun _ => ⟨rfl, rfl⟩⟩

theorem LaterRow.trans {r t u : Row Operation.Column Q} (h : LaterRow r t) (h' : LaterRow t u) :
    LaterRow r u where
  same c hstart hend := (h'.same c hstart hend).trans (h.same c hstart hend)
  dates hr := by
    obtain ⟨hstart, hend⟩ := h.dates hr
    rw [← hstart] at hr
    obtain ⟨hstart', hend'⟩ := h'.dates hr
    exact ⟨hstart'.trans hstart, hend'.trans hend⟩

theorem laterRow_dateRow (s : Store Q) (p : Placement Q) (r : Row Operation.Column Q) :
    LaterRow r (s.dateRow p r) := by
  unfold dateRow
  split
  case isFalse => exact .refl r
  case isTrue hp =>
    constructor
    · intro c hstart hend
      rw [withDates_cell, if_neg hend, if_neg hstart]
    · intro hdated
      exact absurd (isOpen_iff.mp hp).2.1 hdated

theorem laterRow_placeRow (s : Store Q) (ps : List (Placement Q)) (r : Row Operation.Column Q) :
    LaterRow r (s.placeRow ps r) := by
  induction ps generalizing r with
  | nil => exact .refl r
  | cons p ps ih => exact (laterRow_dateRow s p r).trans (ih (s.dateRow p r))

/-- A row that is open for a placement gets its dates. -/
theorem holds_placeRow {s : Store Q} {ps : List (Placement Q)} {p : Placement Q}
    {r : Row Operation.Column Q} (distinct : (ps.map (·.operationId)).Nodup) (hp : p ∈ ps)
    (hopen : s.isOpen p.operationId r = true) : p.Holds (s.placeRow ps r) := by
  induction ps generalizing r with
  | nil => cases hp
  | cons q ps ih =>
    rw [List.map_cons, List.nodup_cons] at distinct
    obtain ⟨hnew, distinct⟩ := distinct
    rcases List.mem_cons.mp hp with rfl | hp
    · have hdated : p.Holds (s.dateRow p r) := by
        rw [dateRow, if_pos hopen]
        constructor
        · rw [withDates_cell]
          rfl
        · rw [withDates_cell]
          rfl
      obtain ⟨hstart, hend⟩ := (laterRow_placeRow s ps (s.dateRow p r)).dates
        (by rw [hdated.1]; nofun)
      exact ⟨hstart.trans hdated.1, hend.trans hdated.2⟩
    · apply ih distinct hp
      rw [isOpen_dateRow, hopen]
      intro h
      exact hnew (h ▸ List.mem_map_of_mem hp)

/-- A row gets no dates but those of a placement that it is open for. -/
theorem placeRow_eq_or (s : Store Q) (ps : List (Placement Q)) (r : Row Operation.Column Q) :
    s.placeRow ps r = r ∨ ∃ p ∈ ps, s.isOpen p.operationId r = true := by
  induction ps with
  | nil => exact Or.inl rfl
  | cons p ps ih =>
    by_cases hp : s.isOpen p.operationId r = true
    · exact Or.inr ⟨p, List.mem_cons_self, hp⟩
    · have hsame : s.placeRow (p :: ps) r = s.placeRow ps r := by
        change s.placeRow ps (s.dateRow p r) = _
        rw [dateRow, if_neg hp]
      rw [hsame]
      rcases ih with h | ⟨q, hq, hopen⟩
      · exact Or.inl h
      · exact Or.inr ⟨q, List.mem_cons_of_mem p hq, hopen⟩

/-- A store as it may be after runs of scheduling. -/
structure Later (s t : Store Q) : Prop where
  operations : List.Forall₂ LaterRow s.operations t.operations
  orders : t.orders = s.orders
  disputed : t.disputed = s.disputed

theorem Later.refl (s : Store Q) : Later s s :=
  ⟨List.forall₂_same.mpr fun r _ => .refl r, rfl, rfl⟩

theorem Later.trans {s t u : Store Q} (h : Later s t) (h' : Later t u) : Later s u where
  operations := forall₂_trans (fun _ _ _ h h' => h.trans h') h.operations h'.operations
  orders := h'.orders.trans h.orders
  disputed := h'.disputed.trans h.disputed

theorem later_writeSchedule (s : Store Q) (ps : List (Placement Q)) :
    Later s (s.writeSchedule (ps.map fun p => (p.operationId, p.start, p.stop))).1 := by
  rw [writeSchedule_fst]
  exact ⟨forall₂_map_self fun r _ => laterRow_placeRow s ps r, rfl, rfl⟩

variable [Quantity Q]

theorem updateAvailabilityRates_eq {s t : Store Q} {rates : List (String × Q)} {n : Nat}
    (h : s.updateAvailabilityRates rates = .ok (t, n)) :
    t = { s with workCenters := t.workCenters } := by
  induction rates generalizing s n with
  | nil =>
    cases h
    rfl
  | cons rate rates ih =>
    obtain ⟨⟨u, m⟩, hset, hrest⟩ := bind_eq_ok_iff.mp h
    obtain ⟨⟨v, k⟩, hv, hdone⟩ := bind_eq_ok_iff.mp hrest
    obtain ⟨rows, -, hset⟩ := bind_eq_ok_iff.mp hset
    cases hset
    cases hdone
    have hrows := ih hv
    exact hrows

/-- A recalculation of availability writes the work centers alone. -/
theorem recalculate_eq {s t : Store Q} {today : Date} {ids : Option (List String)}
    {horizon : Option Nat} {rates : List (String × Q)}
    (h : s.recalculate today ids horizon = .ok (rates, t)) :
    t = { s with workCenters := t.workCenters } := by
  have hwritten : ∃ rates n, s.updateAvailabilityRates rates = .ok (t, n) := by
    cases ids with
    | none =>
      obtain ⟨centers, -, h⟩ := bind_eq_ok_iff.mp h
      obtain ⟨ledger, -, h⟩ := bind_eq_ok_iff.mp h
      obtain ⟨⟨u, n⟩, hu, h⟩ := bind_eq_ok_iff.mp h
      cases h
      exact ⟨_, n, hu⟩
    | some ids =>
      obtain ⟨centers, -, h⟩ := bind_eq_ok_iff.mp h
      obtain ⟨ledger, -, h⟩ := bind_eq_ok_iff.mp h
      obtain ⟨⟨u, n⟩, hu, h⟩ := bind_eq_ok_iff.mp h
      cases h
      exact ⟨_, n, hu⟩
  obtain ⟨rates, n, hwritten⟩ := hwritten
  exact updateAvailabilityRates_eq hwritten

theorem later_recalculate {s t : Store Q} {today : Date} {ids : Option (List String)}
    {horizon : Option Nat} {rates : List (String × Q)}
    (h : s.recalculate today ids horizon = .ok (rates, t)) : Later s t := by
  rw [recalculate_eq h]
  exact ⟨(Later.refl s).operations, rfl, rfl⟩

theorem Later.keyed {s t : Store Q} (h : Later s t) (keyed : s.Keyed) : t.Keyed where
  orders := by
    rw [h.orders]
    exact keyed.orders
  operations := by
    refine keyed.operations.of_forall₂ (h.operations.imp ?_)
    intro r t hr key hkey c hc
    have hdate : c ≠ .scheduledStart ∧ c ≠ .scheduledEnd := by
      revert key c
      decide
    exact hr.same c hdate.1 hdate.2

end Store

end Workshop
