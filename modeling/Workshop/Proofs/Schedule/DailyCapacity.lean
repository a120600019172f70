/-
  Workshop/Proofs/Schedule/DailyCapacity.lean
  ===========================================
  **The capacity of a day.**  A start day needs free only the hours of an operation that
  its work center has in a day, but all hours are booked there.  So a day can hold more
  than its capacity, and then a single operation is the cause: it is longer than a day,
  and nothing else but the tolerance is booked with it (`schedule_withinCapacity`).

  The day after a booking can be judged by that booking alone (`withinCapacity_append`):
  whatever the bookings before it did, the gate has seen their sum.  The tolerance is
  therefore spent once and does not add up.
-/
import Mathlib.Algebra.Order.BigOperators.Group.List
import Mathlib.Algebra.Order.Ring.Rat
import Mathlib.Tactic.Linarith
import Workshop.Proofs.Schedule.Replay

namespace Workshop

/-- The hours of the placements that start at a work center on a day, in their order. -/
def Placement.hoursAt {Q : Type} (ps : List (Placement Q)) (workCenterId : String) (d : Date) :
    List Q :=
  (ps.filter fun p => p.workCenterId == workCenterId && p.start == d).map (·.hours)

/-- The hours a day of the work center that is known by an identifier. -/
def WorkCenters.capacityOf {Q : Type} [Quantity Q] (centers : WorkCenters Q) (id : String) : Q :=
  ((centers id).map (·.capacityHoursPerDay)).getD Quantity.zero

/-- Where each work center is known by its own identifier, an identifier has one capacity. -/
theorem WorkCenters.capacityOf_eq {Q : Type} [Quantity Q] {centers : WorkCenters Q}
    (keyed : ∀ id wc, centers id = some wc → wc.workCenterId = id) {id : String}
    {wc : WorkCenter Q} (h : centers id = some wc) :
    wc.capacityHoursPerDay = centers.capacityOf wc.workCenterId := by
  rw [capacityOf, keyed id wc h, h]
  rfl

namespace FirstFit

/-- What the hours that a run books on a day may be, on top of those committed before. -/
inductive WithinCapacity (capacity before : Rat) (hs : List Rat) : Prop
  | idle (none : hs = [])
  | shared (fits : before + hs.sum ≤ capacity + Quantity.tolerance)
  | oversize (pre : List Rat) (h : Rat) (post : List Rat) (split : hs = pre ++ h :: post)
      (exceeds : capacity < h) (others : ∀ x ∈ pre ++ post, x ≤ capacity)
      (free : before + (pre ++ post).sum ≤ Quantity.tolerance)

/-! ### The gate in exact numbers -/

theorem isNaN_rat (x : Rat) : Quantity.isNaN x = false := by simp [Quantity.isNaN]

theorem le_hoursNeeded (op : Operation Rat) (minHours : Rat) :
    minHours ≤ op.hoursNeeded minHours := by
  unfold Operation.hoursNeeded Quantity.larger
  rw [isNaN_rat, if_neg Bool.false_ne_true]
  split
  · exact le_refl _
  · next h => exact not_lt.mp h

/-- A start day has free the hours of an operation, or is free as a whole when these are
    more than it has. -/
theorem HasRoom.cases {wc : WorkCenter Rat} {ledger : Ledger Rat} {hours : Rat} {d : Date}
    (h : HasRoom wc ledger hours d) :
    (hours ≤ wc.capacityHoursPerDay ∧
      ledger.committed wc.workCenterId d + hours ≤
        wc.capacityHoursPerDay + Quantity.tolerance) ∨
    (wc.capacityHoursPerDay < hours ∧
      ledger.committed wc.workCenterId d ≤ Quantity.tolerance) := by
  unfold HasRoom Quantity.smaller at h
  rw [isNaN_rat, if_neg Bool.false_ne_true] at h
  split at h
  case isTrue hlong =>
    refine Or.inr ⟨hlong, ?_⟩
    linarith
  case isFalse hshort =>
    refine Or.inl ⟨not_lt.mp hshort, ?_⟩
    linarith

/-- What a day has room for, it has room for at a larger capacity.  Hours that are more than
    the smaller capacity only have a free day, where the larger one may let them fit. -/
theorem HasRoom.cases_le {wc : WorkCenter Rat} {ledger : Ledger Rat} {hours capacity : Rat}
    {d : Date} (h : HasRoom wc ledger hours d) (bound : wc.capacityHoursPerDay ≤ capacity) :
    (hours ≤ capacity ∧
      ledger.committed wc.workCenterId d + hours ≤ capacity + Quantity.tolerance) ∨
    (capacity < hours ∧ ledger.committed wc.workCenterId d ≤ Quantity.tolerance) := by
  rcases h.cases with ⟨hshort, hfits⟩ | ⟨-, hfree⟩
  · exact .inl ⟨by linarith, by linarith⟩
  · rcases le_or_gt hours capacity with hle | hgt
    · exact .inl ⟨hle, by linarith⟩
    · exact .inr ⟨hgt, hfree⟩

/-! ### The last booking of a day -/

/-- The last booking decides: either it leaves the day within its capacity, or it is the
    one long operation there. -/
theorem withinCapacity_append {capacity before h : Rat} {hs : List Rat}
    (nonneg : ∀ x ∈ hs, 0 ≤ x) (committed : 0 ≤ before)
    (positive : Quantity.tolerance < capacity)
    (gate : (h ≤ capacity ∧ before + hs.sum + h ≤ capacity + Quantity.tolerance) ∨
      (capacity < h ∧ before + hs.sum ≤ Quantity.tolerance)) :
    WithinCapacity capacity before (hs ++ [h]) := by
  rcases gate with ⟨-, hfits⟩ | ⟨hlong, hfree⟩
  · apply WithinCapacity.shared
    rw [List.sum_append, List.sum_singleton]
    linarith
  · refine .oversize hs h [] rfl hlong ?_ (by simpa using hfree)
    intro x hx
    rw [List.append_nil] at hx
    have := List.single_le_sum nonneg x hx
    linarith

/-! ### A whole run -/

theorem hoursAt_append (ps : List (Placement Rat)) (p : Placement Rat) (id : String) (d : Date) :
    Placement.hoursAt (ps ++ [p]) id d =
      if p.workCenterId = id ∧ p.start = d then Placement.hoursAt ps id d ++ [p.hours]
      else Placement.hoursAt ps id d := by
  unfold Placement.hoursAt
  rw [List.filter_append, List.map_append]
  split
  case isTrue h => simp [h]
  case isFalse h =>
    have : (p.workCenterId == id && p.start == d) = false := by simpa using h
    simp [this]

/-- What the bookings of a run have come to, in terms of its placements. -/
structure Booked (r : ScheduleRequest Rat) (capacity : String → Rat) (ledger : Ledger Rat)
    (s : State Rat) : Prop where
  windowStart : s.ledger.windowStart = r.today
  windowEnd : s.ledger.windowEnd = r.windowEnd
  committed : ∀ id d, s.ledger.committed id d =
    ledger.committed id d + (Placement.hoursAt s.scheduled id d).sum
  nonneg : ∀ p ∈ s.scheduled, 0 ≤ p.hours
  within : ∀ id d, WithinCapacity (capacity id) (ledger.committed id d)
    (Placement.hoursAt s.scheduled id d)

variable {r : ScheduleRequest Rat} {capacity : String → Rat} {ledger : Ledger Rat}
  {s : State Rat}

theorem Booked.hoursAt_nonneg (h : Booked r capacity ledger s) (id : String) (d : Date) :
    ∀ x ∈ Placement.hoursAt s.scheduled id d, 0 ≤ x := by
  intro x hx
  obtain ⟨p, hp, rfl⟩ := List.mem_map.mp hx
  exact h.nonneg p (List.mem_filter.mp hp).1

theorem Booked.accepts (h : Booked r capacity ledger s) {d : Date} (hours : Rat)
    (hstart : r.today ≤ d) (hstop : d ≤ r.windowEnd) : s.ledger.accepts d hours = true := by
  have hfinite : Quantity.isFinite hours = true := rfl
  simp [Ledger.accepts, Ledger.contains, h.windowStart, h.windowEnd, hstart, hstop, hfinite]

theorem Booked.place (h : Booked r capacity ledger s) {wc : WorkCenter Rat}
    {op : Operation Rat} {earliest : Date} {p : Placement Rat}
    (minimum : 0 ≤ r.minOperationHours) (committed : ∀ id d, 0 ≤ ledger.committed id d)
    (positive : Quantity.tolerance < wc.capacityHoursPerDay)
    (bound : wc.capacityHoursPerDay ≤ capacity wc.workCenterId)
    (fits : FirstFits r wc s.ledger op earliest p) : Booked r capacity ledger (s.place p) := by
  have hstart : r.today ≤ p.start := by
    have := fits.start.start_le
    unfold Date.later at this
    split at this
    · exact this
    · next hle =>
        rw [Date.le_iff] at *
        omega
  have haccepts := h.accepts p.hours hstart fits.start.le_stop
  have hcommitted : ∀ id d, (s.place p).ledger.committed id d =
      ledger.committed id d + (Placement.hoursAt (s.place p).scheduled id d).sum := by
    intro id d
    simp only [State.place]
    rw [Ledger.committed_book, hoursAt_append]
    by_cases hat : p.workCenterId = id ∧ p.start = d
    · obtain ⟨rfl, rfl⟩ := hat
      rw [if_pos ⟨haccepts, rfl, rfl⟩, if_pos ⟨rfl, rfl⟩, h.committed, List.sum_append,
        List.sum_singleton, ← add_assoc]
    · rw [if_neg fun hk => hat hk.2, if_neg hat, h.committed]
  refine ⟨?_, ?_, hcommitted, ?_, ?_⟩
  · simp only [State.place, Ledger.book, haccepts, if_true]
    exact h.windowStart
  · simp only [State.place, Ledger.book, haccepts, if_true]
    exact h.windowEnd
  · intro q hq
    rcases List.mem_append.mp hq with hq | hq
    · exact h.nonneg q hq
    · rw [List.mem_singleton.mp hq, fits.hours]
      exact le_trans minimum (le_hoursNeeded op _)
  · intro id d
    simp only [State.place]
    rw [hoursAt_append]
    split
    case isFalse => exact h.within id d
    case isTrue hat =>
      obtain ⟨rfl, rfl⟩ := hat
      have hgate := fits.start.is_fit.2.cases_le bound
      have hpositive := lt_of_lt_of_le positive bound
      rw [← fits.workCenterId, h.committed] at hgate
      rw [← fits.workCenterId] at hpositive
      exact withinCapacity_append (h.hoursAt_nonneg _ _) (committed _ _) hpositive hgate

theorem Booked.taken {centers : WorkCenters Rat} {c : Candidate Rat} {t : State Rat}
    (h : Booked r capacity ledger s) (minimum : 0 ≤ r.minOperationHours)
    (committed : ∀ id d, 0 ≤ ledger.committed id d)
    (capacities : ∀ key wc, centers key = some wc →
      wc.capacityHoursPerDay ≤ capacity wc.workCenterId ∧
        Quantity.tolerance < wc.capacityHoursPerDay)
    (ht : Taken r centers s c t) : Booked r capacity ledger t := by
  cases ht with
  | waits => exact ⟨h.windowStart, h.windowEnd, h.committed, h.nonneg, h.within⟩
  | unknown => exact ⟨h.windowStart, h.windowEnd, h.committed, h.nonneg, h.within⟩
  | full => exact ⟨h.windowStart, h.windowEnd, h.committed, h.nonneg, h.within⟩
  | placed known after fits =>
    obtain ⟨hbound, hpositive⟩ := capacities _ _ known
    exact h.place minimum committed hpositive hbound fits

end FirstFit

open FirstFit

/-- **Daily capacity.**  In exact numbers, the hours that a run books on a day stay within
    the capacity of their work center together with those committed before, or a single
    operation longer than a day owns it.

    Hours are booked under the identifier that a work center has, and the capacity of an
    identifier is any bound of the work centers that have it.  Where each is known by its own
    identifier this is the capacity of the one work center (`WorkCenters.capacityOf_eq`). -/
theorem schedule_withinCapacity (r : ScheduleRequest Rat) (worksets : List (Workset Rat))
    (centers : WorkCenters Rat) (capacity : String → Rat) (ledger : Ledger Rat)
    (minimum : 0 ≤ r.minOperationHours)
    (capacities : ∀ key wc, centers key = some wc →
      wc.capacityHoursPerDay ≤ capacity wc.workCenterId ∧
        Quantity.tolerance < wc.capacityHoursPerDay)
    (window : ledger.windowStart = r.today ∧ ledger.windowEnd = r.windowEnd)
    (committed : ∀ id d, 0 ≤ ledger.committed id d) (workCenterId : String) (d : Date) :
    WithinCapacity (capacity workCenterId) (ledger.committed workCenterId d)
      (Placement.hoursAt (schedule r worksets centers ledger).1.scheduled workCenterId d) := by
  have hrun : Booked r capacity ledger (FirstFit.run r worksets centers ledger) := by
    apply run_induction r worksets centers ledger
    · exact ⟨window.1, window.2, by simp [Placement.hoursAt], by simp, fun _ _ => .idle rfl⟩
    · intro s c t hs ht
      exact hs.taken minimum committed capacities ht
  exact hrun.within workCenterId d

/-! ### A long operation among short ones -/

/-- An order with one operation of so many hours on a lathe. -/
def turningOrder (priority : Int) (hours : Rat) : Workset Rat :=
  let orderId := "T" ++ toString priority
  { order := ⟨orderId, orderId, "SHAFT", 1, .released, priority, none, none, none⟩
    operations := [Draft.toOperation
      ⟨10, none, none, "LATHE", "Turn", none, false, 0, hours⟩ orderId (orderId ++ "/10")] }

def turningOrders : List (Workset Rat) := [turningOrder 1 4, turningOrder 2 10, turningOrder 3 1]

def turningRequest : ScheduleRequest Rat := ⟨saturday, 14, false, 1 / 2, none, none⟩

def turningCenters : WorkCenters Rat := .ofList [⟨"LATHE", "L1", "Lathe", 8, 1, 100, true⟩]

/-- Three hours are committed on Monday, 6 March of year 0. -/
def turningLedger : Ledger Rat :=
  (Ledger.empty saturday turningRequest.windowEnd).book "LATHE" ⟨5, by decide, by decide⟩ 3

theorem select_turning :
    Candidate.select turningRequest turningOrders = turningOrders.flatMap fun w =>
      w.operations.map fun op => ⟨op, w.order.priority, none, "SHAFT", none⟩ := by
  apply Candidate.select_of_sorted
  · apply List.flatMap_congr
    intro w hw
    simp only [turningOrders, List.mem_cons, List.not_mem_nil, or_false] at hw
    rcases hw with rfl | rfl | rfl <;>
      exact Candidate.ofWorkset_of_sorted (List.pairwise_singleton _ _)
  · decide

/-- The long operation gets Tuesday to itself; the short ones fill up Monday. -/
theorem schedule_withinCapacity_turning :
    ((0 ≤ turningRequest.minOperationHours) ∧
      (∀ key wc, turningCenters key = some wc →
        wc.capacityHoursPerDay ≤ 8 ∧ Quantity.tolerance < wc.capacityHoursPerDay) ∧
      (turningLedger.windowStart = turningRequest.today ∧
        turningLedger.windowEnd = turningRequest.windowEnd) ∧
      ∀ id d, 0 ≤ turningLedger.committed id d) ∧
    (schedule turningRequest turningOrders turningCenters turningLedger).1.scheduled.map
      (fun p => (p.start.day, p.hours)) = [(5, 4), (6, 10), (5, 1)] ∧
    ∀ id d, WithinCapacity 8 (turningLedger.committed id d) (Placement.hoursAt
      (schedule turningRequest turningOrders turningCenters turningLedger).1.scheduled id d) := by
  have minimum : 0 ≤ turningRequest.minOperationHours := by decide +kernel
  have capacities : ∀ key wc, turningCenters key = some wc →
      wc.capacityHoursPerDay ≤ 8 ∧ Quantity.tolerance < wc.capacityHoursPerDay := by
    intro key wc hwc
    have := List.mem_of_find?_eq_some hwc
    rw [List.reverse_singleton, List.mem_singleton] at this
    subst this
    decide +kernel
  have window : turningLedger.windowStart = turningRequest.today ∧
      turningLedger.windowEnd = turningRequest.windowEnd := by decide +kernel
  have committed : ∀ id d, 0 ≤ turningLedger.committed id d := by
    intro id d
    unfold turningLedger
    rw [Ledger.committed_book]
    split
    · decide +kernel
    · have hzero : (0 : Rat) ≤ Quantity.zero := by decide +kernel
      exact hzero
  refine ⟨⟨minimum, capacities, window, committed⟩, ?_, ?_⟩
  · rw [FirstFit.schedule_of_select select_turning]
    decide +kernel
  · exact schedule_withinCapacity turningRequest turningOrders turningCenters (fun _ => 8)
      turningLedger minimum capacities window committed

end Workshop
