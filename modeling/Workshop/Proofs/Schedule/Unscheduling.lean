/-
  Workshop/Proofs/Schedule/Unscheduling.lean
  ==========================================
  **Unscheduling and scheduling again changes nothing.**  After a run the dates of an order
  are taken away and its hours are taken out of the ledger.  A run for this order alone then
  gives every operation the dates that it had (`schedule_unscheduled`).

  The second run sees a ledger that holds what the first one placed after the operation at
  hand.  Days before the one that was found have no more room than they had in the first
  run.  The day that was found still has enough (`FirstFit.Stands`): whatever is booked there
  later leaves so much of it that each placement could be made last.  For an operation longer
  than a day that is so because nothing is booked with it any more.
-/
import Workshop.Proofs.Schedule.DailyCapacity
import Workshop.Proofs.Schedule.OtherOrders

namespace Workshop

/-! ### Hours of placements -/

/-- The window of the request lies in that of the ledger. -/
structure Ledger.Spans {Q : Type} (l : Ledger Q) (r : ScheduleRequest Q) : Prop where
  windowStart : l.windowStart ≤ r.today
  windowEnd : r.windowEnd ≤ l.windowEnd

namespace Placement

/-- The hours that placements take at a work center on a day. -/
def hoursOn (ps : List (Placement Rat)) (workCenterId : String) (d : Date) : Rat :=
  (hoursAt ps workCenterId d).sum

variable {ps qs : List (Placement Rat)} {id : String} {d : Date}

theorem hoursOn_append (ps qs : List (Placement Rat)) (id : String) (d : Date) :
    hoursOn (ps ++ qs) id d = hoursOn ps id d + hoursOn qs id d := by
  unfold hoursOn hoursAt
  rw [List.filter_append, List.map_append, List.sum_append]

theorem hoursOn_singleton (p : Placement Rat) (id : String) (d : Date) :
    hoursOn [p] id d = if p.workCenterId = id ∧ p.start = d then p.hours else 0 := by
  unfold hoursOn
  rw [← List.nil_append [p], FirstFit.hoursAt_append]
  split
  · exact List.sum_singleton
  · rfl

/-- Placements that are left out take no hours. -/
theorem hoursOn_filter_le (h : ∀ p ∈ ps, 0 ≤ p.hours) (keep : Placement Rat → Bool) (id : String)
    (d : Date) : hoursOn (ps.filter keep) id d ≤ hoursOn ps id d := by
  refine List.Sublist.sum_le_sum ?_ ?_
  · exact (List.filter_sublist.filter _).map _
  · intro x hx
    obtain ⟨p, hp, rfl⟩ := List.mem_map.mp hx
    exact h p (List.mem_filter.mp hp).1

theorem hours_le_hoursOn (h : ∀ p ∈ ps, 0 ≤ p.hours) {p : Placement Rat} (hp : p ∈ ps) :
    p.hours ≤ hoursOn ps p.workCenterId p.start := by
  refine List.single_le_sum ?_ _ ?_
  · intro x hx
    obtain ⟨q, hq, rfl⟩ := List.mem_map.mp hx
    exact h q (List.mem_filter.mp hq).1
  · exact List.mem_map_of_mem (List.mem_filter.mpr ⟨hp, by simp⟩)

end Placement

/-- Placements add their hours to what is committed. -/
theorem Ledger.committed_bookAll {l : Ledger Rat} {r : ScheduleRequest Rat} (spans : l.Spans r)
    {ps : List (Placement Rat)} (inside : ∀ p ∈ ps, r.today ≤ p.start ∧ p.start ≤ r.windowEnd)
    (id : String) (d : Date) :
    (l.bookAll ps).committed id d = l.committed id d + Placement.hoursOn ps id d := by
  induction ps using List.reverseRecOn with
  | nil => exact (add_zero _).symm
  | append_singleton ps p ih =>
    have hps := ih fun q hq => inside q (List.mem_append_left _ hq)
    obtain ⟨hstart, hstop⟩ := inside p (List.mem_append_right _ List.mem_cons_self)
    have haccepts : (l.bookAll ps).accepts p.start p.hours = true := by
      have hfinite : Quantity.isFinite p.hours = true := rfl
      have hfrom := Int.le_trans spans.windowStart hstart
      have hto := Int.le_trans hstop spans.windowEnd
      simp only [accepts, contains, bookAll_window, hfinite, Bool.and_true, Bool.and_eq_true,
        decide_eq_true_eq]
      exact ⟨hfrom, hto⟩
    rw [bookAll_append, committed_book, Placement.hoursOn_append, Placement.hoursOn_singleton]
    by_cases hat : p.workCenterId = id ∧ p.start = d
    · obtain ⟨rfl, rfl⟩ := hat
      rw [if_pos ⟨haccepts, rfl, rfl⟩, if_pos ⟨rfl, rfl⟩, hps, add_assoc]
    · rw [if_neg fun h => hat h.2, if_neg hat, hps, add_zero]

/-- The ledger that has seen the other placements only is the one that the hours of some have
    been taken out of. -/
theorem Ledger.committed_bookAll_others {l : Ledger Rat} {r : ScheduleRequest Rat}
    (spans : l.Spans r) {ps : List (Placement Rat)}
    (inside : ∀ p ∈ ps, r.today ≤ p.start ∧ p.start ≤ r.windowEnd) (keep : Placement Rat → Bool)
    (id : String) (d : Date) : (l.bookAll (ps.filter fun p => !keep p)).committed id d =
      (l.bookAll ps).committed id d - Placement.hoursOn (ps.filter keep) id d := by
  have hsum : Placement.hoursOn ps id d = Placement.hoursOn (ps.filter keep) id d +
      Placement.hoursOn (ps.filter fun p => !keep p) id d := by
    rw [← Placement.hoursOn_append]
    exact (((List.filter_append_perm keep ps).symm.filter _).map _).sum_eq
  rw [committed_bookAll spans inside, hsum,
    committed_bookAll spans fun p hp => inside p (List.mem_filter.mp hp).1]
  ring

namespace FirstFit

/-! ### Room that stays -/

/-- A day with so many hours committed has room for an operation: the hours fit into the
    capacity, or they are more than it and the day is free. -/
def RoomFor (capacity hours committed : Rat) : Prop :=
  (hours ≤ capacity ∧ committed + hours ≤ capacity + Quantity.tolerance) ∨
    (capacity < hours ∧ committed ≤ Quantity.tolerance)

theorem hasRoom_iff {wc : WorkCenter Rat} {l : Ledger Rat} {hours : Rat} {d : Date} :
    HasRoom wc l hours d ↔
      RoomFor wc.capacityHoursPerDay hours (l.committed wc.workCenterId d) := by
  refine ⟨HasRoom.cases, ?_⟩
  unfold HasRoom Quantity.smaller
  rw [isNaN_rat, if_neg Bool.false_ne_true]
  rintro (⟨hshort, hfits⟩ | ⟨hlong, hfree⟩)
  · rw [if_neg (not_lt.mpr hshort)]
    linarith
  · rw [if_pos hlong]
    linarith

theorem RoomFor.mono {capacity hours x y : Rat} (h : RoomFor capacity hours y) (hle : x ≤ y) :
    RoomFor capacity hours x := by
  rcases h with ⟨hshort, hfits⟩ | ⟨hlong, hfree⟩
  · exact .inl ⟨hshort, by linarith⟩
  · exact .inr ⟨hlong, by linarith⟩

/-- What is booked next to a placement leaves room for it: neither is shorter than the
    tolerance, so neither of them is longer than a day. -/
theorem RoomFor.beside {capacity hours next x : Rat}
    (h : RoomFor capacity hours (x - hours)) (hnext : RoomFor capacity next x)
    (counted : hours ≤ x) (long : Quantity.tolerance < hours)
    (nextLong : Quantity.tolerance < next) : RoomFor capacity hours (x + next - hours) := by
  rcases hnext with ⟨hshort', hfits'⟩ | ⟨hlong', hfree'⟩
  · rcases h with ⟨hshort, hfits⟩ | ⟨hlong, hfree⟩
    · exact .inl ⟨hshort, by linarith⟩
    · linarith
  · linarith

/-- What stands of the placements of a run: each of them has room on its day, whatever has
    been booked there after it. -/
structure Upheld (r : ScheduleRequest Rat) (capacity : String → Rat) (ledger : Ledger Rat)
    (s : State Rat) : Prop where
  ledger_eq : s.ledger = ledger.bookAll s.scheduled
  inside : ∀ p ∈ s.scheduled, r.today ≤ p.start ∧ p.start ≤ r.windowEnd
  hours : ∀ p ∈ s.scheduled, Quantity.tolerance < p.hours
  room : ∀ p ∈ s.scheduled, RoomFor (capacity p.workCenterId) p.hours
    (s.ledger.committed p.workCenterId p.start - p.hours)

variable {r : ScheduleRequest Rat} {centers : WorkCenters Rat} {capacity : String → Rat}
  {ledger : Ledger Rat} {s t : State Rat}

theorem Upheld.hours_nonneg (h : Upheld r capacity ledger s) : ∀ p ∈ s.scheduled, 0 ≤ p.hours := by
  have htolerance : (0 : Rat) ≤ Quantity.tolerance := by decide +kernel
  intro p hp
  exact le_trans htolerance (le_of_lt (h.hours p hp))

theorem Upheld.committed_eq (h : Upheld r capacity ledger s) (spans : ledger.Spans r)
    (id : String) (d : Date) : s.ledger.committed id d =
      ledger.committed id d + Placement.hoursOn s.scheduled id d := by
  rw [h.ledger_eq, Ledger.committed_bookAll spans h.inside]

theorem Upheld.place (h : Upheld r capacity ledger s) (spans : ledger.Spans r)
    (committed : ∀ id d, 0 ≤ ledger.committed id d)
    (minimum : Quantity.tolerance < r.minOperationHours) {wc : WorkCenter Rat}
    {op : Operation Rat} {earliest : Date} {p : Placement Rat}
    (capacity_eq : wc.capacityHoursPerDay = capacity wc.workCenterId)
    (fits : FirstFits r wc s.ledger op earliest p) : Upheld r capacity ledger (s.place p) := by
  have hledger : (s.place p).ledger = ledger.bookAll (s.place p).scheduled := by
    simp only [State.place]
    rw [Ledger.bookAll_append, h.ledger_eq]
  have hinside : ∀ q ∈ (s.place p).scheduled, r.today ≤ q.start ∧ q.start ≤ r.windowEnd := by
    intro q hq
    rcases List.mem_append.mp hq with hq | hq
    · exact h.inside q hq
    · obtain rfl := List.mem_singleton.mp hq
      have hafter := Int.le_trans (Date.le_later_right earliest r.today) fits.start.start_le
      exact ⟨hafter, fits.start.le_stop⟩
  have hlong : Quantity.tolerance < p.hours := by
    rw [fits.hours]
    exact lt_of_lt_of_le minimum (le_hoursNeeded op _)
  have hcommitted : ∀ id d, (s.place p).ledger.committed id d =
      s.ledger.committed id d + if p.workCenterId = id ∧ p.start = d then p.hours else 0 := by
    intro id d
    have hscheduled : (s.place p).scheduled = s.scheduled ++ [p] := rfl
    rw [hledger, Ledger.committed_bookAll spans hinside, hscheduled, Placement.hoursOn_append,
      Placement.hoursOn_singleton, h.committed_eq spans, add_assoc]
  have hroom : RoomFor (capacity p.workCenterId) p.hours
      (s.ledger.committed p.workCenterId p.start) := by
    rw [fits.workCenterId, ← capacity_eq]
    exact hasRoom_iff.mp fits.start.is_fit.2
  refine ⟨hledger, hinside, ?_, ?_⟩
  · intro q hq
    rcases List.mem_append.mp hq with hq | hq
    · exact h.hours q hq
    · exact List.mem_singleton.mp hq ▸ hlong
  · intro q hq
    rw [hcommitted]
    rcases List.mem_append.mp hq with hq | hq
    · split
      · next hat =>
        have hcounted := Placement.hours_le_hoursOn h.hours_nonneg hq
        have hall : q.hours ≤ s.ledger.committed q.workCenterId q.start := by
          rw [h.committed_eq spans]
          linarith [committed q.workCenterId q.start]
        rw [hat.1, hat.2] at hroom
        exact (h.room q hq).beside hroom hall (h.hours q hq) hlong
      · rw [add_zero]
        exact h.room q hq
    · obtain rfl := List.mem_singleton.mp hq
      rw [if_pos ⟨rfl, rfl⟩, add_sub_cancel_right]
      exact hroom

theorem Upheld.taken {c : Candidate Rat} (h : Upheld r capacity ledger s)
    (spans : ledger.Spans r) (committed : ∀ id d, 0 ≤ ledger.committed id d)
    (minimum : Quantity.tolerance < r.minOperationHours)
    (capacities : ∀ key wc, centers key = some wc →
      wc.capacityHoursPerDay = capacity wc.workCenterId)
    (ht : Taken r centers s c t) : Upheld r capacity ledger t := by
  cases ht with
  | waits => exact ⟨h.ledger_eq, h.inside, h.hours, h.room⟩
  | unknown => exact ⟨h.ledger_eq, h.inside, h.hours, h.room⟩
  | full => exact ⟨h.ledger_eq, h.inside, h.hours, h.room⟩
  | placed known after fits => exact h.place spans committed minimum (capacities _ _ known) fits

/-! ### Both runs, turn by turn -/

section Freed

variable (spans : ledger.Spans r) (committed : ∀ id d, 0 ≤ ledger.committed id d)
  (minimum : Quantity.tolerance < r.minOperationHours)
  (capacities : ∀ key wc, centers key = some wc →
    wc.capacityHoursPerDay = capacity wc.workCenterId)

include spans committed minimum capacities in
theorem upheld_foldl (cs : List (Candidate Rat)) :
    Upheld r capacity ledger (cs.foldl (take r centers) ⟨ledger, [], [], []⟩) := by
  induction cs using List.reverseRecOn with
  | nil => exact ⟨rfl, List.forall_mem_nil _, List.forall_mem_nil _, List.forall_mem_nil _⟩
  | append_singleton cs c ih =>
    rw [List.foldl_append]
    exact ih.taken spans committed minimum capacities (taken_take r centers _ c)

variable {freed : Ledger Rat} {final : State Rat} {later : List (Placement Rat)}
  {keep : Placement Rat → Bool}

/-- On its way the second run sees what the first one has seen, and of what came later there
    the placements that it does not make itself. -/
theorem committed_freed (spans : ledger.Spans r) (freedSpans : freed.Spans r)
    (hs : Upheld r capacity ledger s) (hfinal : Upheld r capacity ledger final)
    (split : final.scheduled = s.scheduled ++ later)
    (freed_eq : ∀ id d, freed.committed id d =
      final.ledger.committed id d - Placement.hoursOn (final.scheduled.filter keep) id d)
    (id : String) (d : Date) :
    (freed.bookAll (s.scheduled.filter keep)).committed id d = s.ledger.committed id d +
      (Placement.hoursOn later id d - Placement.hoursOn (later.filter keep) id d) := by
  have hinside : ∀ p ∈ s.scheduled.filter keep, r.today ≤ p.start ∧ p.start ≤ r.windowEnd :=
    fun p hp => hs.inside p (List.mem_filter.mp hp).1
  rw [Ledger.committed_bookAll freedSpans hinside, freed_eq, hfinal.committed_eq spans,
    hs.committed_eq spans, split, List.filter_append, Placement.hoursOn_append,
    Placement.hoursOn_append]
  ring

/-- The same is decided on the freed ledger. -/
theorem verdict_freed (spans : ledger.Spans r) (freedSpans : freed.Spans r)
    (capacities : ∀ key wc, centers key = some wc →
      wc.capacityHoursPerDay = capacity wc.workCenterId)
    (hs : Upheld r capacity ledger s) (hfinal : Upheld r capacity ledger final)
    {c : Candidate Rat} {e? : Option Date} {v : Except Conflict (Placement Rat)}
    (decided : verdict r centers s.ledger e? c = v)
    (split : final.scheduled = s.scheduled ++ (v.toOption.toList ++ later))
    (kept : ∀ p : Placement Rat, p.orderId = c.operation.orderId → keep p = true)
    (freed_eq : ∀ id d, freed.committed id d =
      final.ledger.committed id d - Placement.hoursOn (final.scheduled.filter keep) id d) :
    verdict r centers (freed.bookAll (s.scheduled.filter keep)) e? c = v := by
  have hcommitted := committed_freed spans freedSpans hs hfinal split freed_eq
  have hnonneg : ∀ p ∈ v.toOption.toList ++ later, 0 ≤ p.hours := by
    intro p hp
    exact hfinal.hours_nonneg p (split ▸ List.mem_append_right _ hp)
  rw [← decided]
  apply verdict_of_fewer
  · intro wc _ hours d _ _ hroom
    rw [hasRoom_iff] at hroom ⊢
    refine hroom.mono ?_
    rw [hcommitted]
    linarith [Placement.hoursOn_filter_le hnonneg keep wc.workCenterId d]
  · intro p hp wc hknown hcenter
    have hnamed := orderId_of_verdict r centers s.ledger e? c
    rw [hp] at hnamed
    have hplaced : p ∈ v.toOption.toList ++ later := by
      rw [← decided, hp]
      exact List.mem_cons_self
    have hmem : p ∈ final.scheduled := split ▸ List.mem_append_right _ hplaced
    have hroom := hfinal.room p hmem
    rw [hasRoom_iff, capacities _ _ hknown, ← hcenter]
    refine hroom.mono ?_
    -- the placement itself is one of those that the second run makes
    have hown := Placement.hours_le_hoursOn
      (fun q hq => hnonneg q (List.mem_filter.mp hq).1)
      (List.mem_filter.mpr ⟨hplaced, kept p hnamed⟩)
    have hall := hfinal.committed_eq spans p.workCenterId p.start
    rw [split, Placement.hoursOn_append, ← add_assoc, ← hs.committed_eq spans] at hall
    rw [hcommitted, hall]
    linarith

include spans committed minimum capacities

/-- A run for some orders on the freed ledger answers, at every turn, what the first run has
    answered about them. -/
theorem foldl_freed {keep : String → Bool} (freedSpans : freed.Spans r)
    {cs pre post : List (Candidate Rat)} (hcs : cs = pre ++ post)
    (hn : (cs.map (·.operation.operationId)).Nodup)
    (apart : ∀ c ∈ cs, keep c.operation.orderId = true → WaitsApart keep cs c)
    (freed_eq : ∀ id d, freed.committed id d =
      (cs.foldl (take r centers) ⟨ledger, [], [], []⟩).ledger.committed id d -
        Placement.hoursOn ((cs.foldl (take r centers) ⟨ledger, [], [], []⟩).scheduled.filter
          fun p => keep p.orderId) id d) :
    AnswersFor keep (pre.foldl (take r centers) ⟨ledger, [], [], []⟩)
      ((pre.filter fun c => keep c.operation.orderId).foldl (take r centers)
        ⟨freed, [], [], []⟩) := by
  induction pre using List.reverseRecOn generalizing post with
  | nil => exact ⟨rfl, rfl⟩
  | append_singleton pre c ih =>
    have hcs : cs = pre ++ c :: post := by simpa using hcs
    have answers := ih hcs
    have hpre : (pre.map (·.operation.operationId)).Nodup := by
      rw [hcs, List.map_append] at hn
      exact hn.of_append_left
    have hkept : ((pre.filter fun c => keep c.operation.orderId).map
        (·.operation.operationId)).Nodup := hpre.sublist (List.filter_sublist.map _)
    have hmem : c ∈ cs := hcs ▸ List.mem_append_right _ List.mem_cons_self
    have hbefore : ∀ d ∈ pre, d ∈ cs := fun d hd => hcs ▸ List.mem_append_left _ hd
    rw [List.filter_append, List.foldl_append, List.foldl_append, List.foldl_cons, List.foldl_nil]
    cases hin : keep c.operation.orderId with
    | false =>
      have hlast : [c].filter (fun c => keep c.operation.orderId) = [] := by simp [hin]
      rw [hlast]
      exact answers.take_left hin
    | true =>
      have hlast : [c].filter (fun c => keep c.operation.orderId) = [c] := by simp [hin]
      have hs := upheld_foldl spans committed minimum capacities pre
      have hfinal := upheld_foldl spans committed minimum capacities cs
      obtain ⟨later, hlater⟩ := exists_continues r centers post
        (take r centers (pre.foldl (take r centers) ⟨ledger, [], [], []⟩) c)
      have hsplit := hlater.scheduled
      rw [← List.foldl_cons, ← List.foldl_append, ← hcs, take_eq_settle, scheduled_settle,
        List.append_assoc] at hsplit
      rw [hlast]
      refine answers.take_both hin ?_
      have htracks : Tracks r centers freed _ _ := tracks_foldl hkept
      rw [earliest?_alone hpre hkept (tracks_foldl hpre) htracks answers
        fun b hb d hd => apart c hmem hin b hb d (hbefore d hd), htracks.ledger_eq,
        answers.scheduled]
      refine verdict_freed spans freedSpans capacities hs hfinal rfl hsplit ?_ freed_eq
      intro p hp
      rw [hp, hin]

end Freed

end FirstFit

/-! ### Dates that are taken away -/

variable {Q : Type}

/-- The operation without its dates, if it is one of the order and has not begun. -/
def Operation.unscheduled (orderId : String) (op : Operation Q) : Operation Q :=
  if op.orderId == orderId && op.status.isSchedulable then
    { op with scheduledStart := none, scheduledEnd := none }
  else op

/-- The workset without the dates of the operations of the order that have not begun. -/
def Workset.unscheduled (orderId : String) (w : Workset Q) : Workset Q :=
  { w with operations := w.operations.map (Operation.unscheduled orderId) }

/-- The operations of the order that have not begun have no dates. -/
def Workset.Undated (orderId : String) (w : Workset Q) : Prop :=
  ∀ op ∈ w.operations, op.orderId = orderId → op.status.isSchedulable = true →
    op.scheduledStart = none ∧ op.scheduledEnd = none

variable {orderId : String} {w : Workset Q}

theorem Operation.unscheduled_of_ne {op : Operation Q} (h : op.orderId ≠ orderId) :
    op.unscheduled orderId = op := by
  simp [unscheduled, h]

theorem Workset.unscheduled_of_ne (h : ∀ op ∈ w.operations, op.orderId ≠ orderId) :
    w.unscheduled orderId = w := by
  have hsame : w.operations.map (Operation.unscheduled orderId) = w.operations := by
    refine (List.map_congr_left fun op hop => ?_).trans (List.map_id _)
    exact Operation.unscheduled_of_ne (h op hop)
  rw [Workset.unscheduled, hsame]

namespace Placement

variable {ps : List (Placement Q)}

/-- Placements of other operations may be left out. -/
theorem placeAll_filter {keep : Placement Q → Bool} {op : Operation Q}
    (kept : ∀ p ∈ ps, p.operationId = op.operationId → keep p = true) :
    placeAll (ps.filter keep) op = placeAll ps op := by
  induction ps generalizing op with
  | nil => rfl
  | cons p ps ih =>
    obtain ⟨hp, hps⟩ := List.forall_mem_cons.mp kept
    have hid : (p.place op).operationId = op.operationId := by
      unfold place
      split <;> rfl
    have hrest : placeAll (ps.filter keep) (p.place op) = placeAll ps (p.place op) :=
      ih fun q hq hqid => hps q hq (hqid.trans hid)
    cases hkeep : keep p with
    | true =>
      rw [List.filter_cons_of_pos hkeep]
      exact hrest
    | false =>
      have hother : p.place op = op := by
        unfold place
        split
        · next hid =>
          rw [hp (beq_iff_eq.mp hid).symm] at hkeep
          cases hkeep
        · rfl
      rw [List.filter_cons_of_neg (by rw [hkeep]; exact Bool.false_ne_true)]
      rw [hother] at hrest
      exact hrest.trans (congrArg (placeAll ps) hother).symm

end Placement

variable [Quantity Q] {r : ScheduleRequest Q} {worksets : List (Workset Q)}
  {centers : WorkCenters Q} {ledger : Ledger Q} {ps : List (Placement Q)}

/-- A placement is about an operation that may be placed, and it names its order. -/
theorem FirstFit.Replay.operation
    (replay : Replay r centers ledger (Candidate.select r worksets) ps)
    (distinct : ((worksets.flatMap (·.operations)).map (·.operationId)).Nodup)
    (hw : w ∈ worksets) {op : Operation Q} (hop : op ∈ w.operations) {p : Placement Q}
    (hp : p ∈ ps) (hid : p.operationId = op.operationId) :
    op.status.isSchedulable = true ∧ p.orderId = op.orderId := by
  obtain ⟨c, hc, _, _, _, -, fits⟩ := replay.exists_fits hp
  obtain ⟨v, hv, hcv, hfollows⟩ := Candidate.exists_of_mem_select hc
  have hsame : c.operation = op :=
    List.inj_on_of_nodup_map distinct (List.mem_flatMap.mpr ⟨v, hv, hfollows.mem⟩)
      (List.mem_flatMap.mpr ⟨w, hw, hop⟩) (fits.operationId.symm.trans hid)
  have heligible := (Candidate.mem_ofWorkset hcv).2.2.2.1
  rw [hsame, Candidate.isEligible, Bool.and_eq_true, Bool.and_eq_true] at heligible
  exact ⟨heligible.1.1, hsame ▸ fits.orderId⟩

/-- What a run has written into an undated order is taken away again. -/
theorem Workset.unscheduled_withPlacements
    (replay : FirstFit.Replay r centers ledger (Candidate.select r worksets) ps)
    (distinct : ((worksets.flatMap (·.operations)).map (·.operationId)).Nodup)
    (hw : w ∈ worksets) (named : ∀ op ∈ w.operations, op.orderId = orderId)
    (undated : w.Undated orderId) : (w.withPlacements ps).unscheduled orderId = w := by
  have hsame : ∀ op ∈ w.operations, (Placement.placeAll ps op).unscheduled orderId = op := by
    intro op hop
    have horder := named op hop
    by_cases hschedulable : op.status.isSchedulable = true
    · obtain ⟨hstart, hend⟩ := undated op hop horder hschedulable
      obtain ⟨start, stop, hplaced⟩ := Placement.exists_placeAll_eq ps op
      rw [hplaced, Operation.unscheduled, if_pos (by simp [horder, hschedulable])]
      cases op
      cases hstart
      cases hend
      rfl
    · have hunnamed : Placement.names ps op = false := by
        rw [Placement.names, List.any_eq_false]
        intro p hp hid
        exact hschedulable (replay.operation distinct hw hop hp (beq_iff_eq.mp hid)).1
      rw [Placement.placeAll_of_not_named hunnamed, Operation.unscheduled, if_neg]
      simp [hschedulable]
  have hoperations : (w.operations.map (Placement.placeAll ps)).map
      (Operation.unscheduled orderId) = w.operations := by
    rw [List.map_map]
    exact (List.map_congr_left hsame).trans (List.map_id _)
  unfold Workset.unscheduled Workset.withPlacements
  rw [hoperations]

omit [Quantity Q] in
/-- A run for one order takes the candidates of this order, whatever has been done to the
    other ones. -/
theorem Candidate.select_orderFilter (unfiltered : r.orderFilter = none)
    (named : ∀ w ∈ worksets, w.Named) {change : Workset Q → Workset Q}
    (order : ∀ w, (change w).order = w.order)
    (same : ∀ w ∈ worksets, w.order.orderId = orderId → change w = w) :
    select { r with orderFilter := some orderId } (worksets.map change) =
      (select r worksets).filter fun c => c.operation.orderId == orderId := by
  have hflat : (worksets.map change).flatMap (ofWorkset { r with orderFilter := some orderId }) =
      (worksets.flatMap (ofWorkset r)).filter fun c => c.operation.orderId == orderId := by
    rw [List.flatMap_map, List.filter_flatMap]
    refine List.flatMap_congr fun w hw => ?_
    by_cases hid : w.order.orderId = orderId
    · have hall : (ofWorkset r w).filter (fun c => c.operation.orderId == orderId) =
          ofWorkset r w := by
        rw [List.filter_eq_self]
        intro c hc
        rw [beq_iff_eq, orderId_of_mem_ofWorkset (named w hw) hc, hid]
      have hincluded : ScheduleRequest.includesOrder { r with orderFilter := some orderId }
          w.order.orderId = r.includesOrder w.order.orderId := by
        simp [ScheduleRequest.includesOrder, unfiltered, hid]
      rw [hall, same w hw hid, ofWorkset, ofWorkset, hincluded]
      rfl
    · have hnone : (ofWorkset r w).filter (fun c => c.operation.orderId == orderId) = [] := by
        rw [List.filter_eq_nil_iff]
        intro c hc
        rw [beq_iff_eq, orderId_of_mem_ofWorkset (named w hw) hc]
        exact hid
      have hexcluded : ScheduleRequest.includesOrder { r with orderFilter := some orderId }
          (change w).order.orderId = false := by
        rw [order]
        exact beq_eq_false_iff_ne.mpr (Ne.symm hid)
      rw [hnone, ofWorkset, hexcluded, Bool.and_false, if_neg Bool.false_ne_true]
  unfold select
  rw [hflat, filter_mergeSort (compareTurn_trans _) (compareTurn_total _)]

/-- What the second run writes is what was there before its dates were taken away. -/
theorem Workset.withPlacements_again
    (replay : FirstFit.Replay r centers ledger (Candidate.select r worksets) ps)
    (distinct : ((worksets.flatMap (·.operations)).map (·.operationId)).Nodup)
    (hw : w ∈ worksets) (named : w.Named)
    (undated : w.order.orderId = orderId → w.Undated orderId) :
    ((w.withPlacements ps).unscheduled orderId).withPlacements
      (ps.filter fun p => p.orderId == orderId) = w.withPlacements ps := by
  have horders : ∀ op ∈ w.operations, ∀ p ∈ ps, p.operationId = op.operationId →
      p.orderId = w.order.orderId := by
    intro op hop p hp hid
    exact (replay.operation distinct hw hop hp hid).2.trans (named op hop)
  by_cases hid : w.order.orderId = orderId
  · have hown : ∀ op ∈ w.operations, op.orderId = orderId :=
      fun op hop => (named op hop).trans hid
    rw [unscheduled_withPlacements replay distinct hw hown (undated hid)]
    have hsame : w.operations.map (Placement.placeAll (ps.filter fun p => p.orderId == orderId)) =
        w.operations.map (Placement.placeAll ps) := by
      refine List.map_congr_left fun op hop => Placement.placeAll_filter fun p hp hpid => ?_
      exact beq_iff_eq.mpr ((horders op hop p hp hpid).trans hid)
    unfold withPlacements
    rw [hsame]
  · have hother : ∀ op ∈ (w.withPlacements ps).operations, op.orderId ≠ orderId := by
      intro op hop
      obtain ⟨old, hold, rfl⟩ := List.mem_map.mp hop
      obtain ⟨start, stop, hplaced⟩ := Placement.exists_placeAll_eq ps old
      rw [hplaced]
      exact fun h => hid ((named old hold).symm.trans h)
    rw [unscheduled_of_ne hother]
    have hsame : (w.withPlacements ps).operations.map
        (Placement.placeAll (ps.filter fun p => p.orderId == orderId)) =
          (w.withPlacements ps).operations := by
      refine (List.map_congr_left fun op hop => ?_).trans (List.map_id _)
      obtain ⟨old, hold, rfl⟩ := List.mem_map.mp hop
      obtain ⟨start, stop, hplaced⟩ := Placement.exists_placeAll_eq ps old
      refine Placement.placeAll_of_not_named ?_
      rw [Placement.names, List.any_eq_false]
      intro p hp hpid
      obtain ⟨hp, hkept⟩ := List.mem_filter.mp hp
      rw [hplaced, beq_iff_eq] at hpid
      exact hid ((horders old hold p hp hpid).symm.trans (beq_iff_eq.mp hkept))
    rw [withPlacements, hsame]

open FirstFit

/-- **Unscheduling and scheduling again changes nothing.**  An order without dates is placed
    by a run together with others.  Its dates are taken away, and its hours are taken out of
    the ledger.  A run for this order alone then places it where it was.

    Hours are booked under the identifier that a work center has, and all work centers that
    have one identifier have one capacity here: the bookings of a larger one could fill the day
    of a smaller one.  So it is wherever each work center is known by its own identifier
    (`WorkCenters.capacityOf_eq`). -/
theorem schedule_unscheduled (r : ScheduleRequest Rat) (worksets : List (Workset Rat))
    (centers : WorkCenters Rat) (capacity : String → Rat) (ledger freed : Ledger Rat)
    (orderId : String) (unfiltered : r.orderFilter = none)
    (minimum : Quantity.tolerance < r.minOperationHours)
    (capacities : ∀ key wc, centers key = some wc →
      wc.capacityHoursPerDay = capacity wc.workCenterId)
    (spans : ledger.Spans r) (committed : ∀ id d, 0 ≤ ledger.committed id d)
    (distinct : ((worksets.flatMap (·.operations)).map (·.operationId)).Nodup)
    (named : ∀ w ∈ worksets, w.Named)
    (undated : ∀ w ∈ worksets, w.order.orderId = orderId → w.Undated orderId)
    (freedSpans : freed.Spans r)
    (freed_eq : ∀ id d, freed.committed id d =
      (schedule r worksets centers ledger).2.committed id d -
        Placement.hoursOn ((schedule r worksets centers ledger).1.scheduled.filter
          fun p => p.orderId == orderId) id d) :
    let first := (schedule r worksets centers ledger).1
    let written := worksets.map (.withPlacements first.scheduled)
    let cleared := written.map (.unscheduled orderId)
    let second := (schedule { r with orderFilter := some orderId } cleared centers freed).1
    cleared.map (.withPlacements second.scheduled) = written ∧
      second.scheduled = first.scheduled.filter (fun p => p.orderId == orderId) ∧
      second.conflicts = first.conflicts.filter (fun x => x.orderId == orderId) := by
  intro first written cleared second
  have hn := Candidate.nodup_select (r := r) distinct
  have hrun : Tracks r centers ledger (Candidate.select r worksets)
      (run r worksets centers ledger) := tracks_foldl hn
  have hcleared : cleared = worksets.map fun w =>
      (w.withPlacements first.scheduled).unscheduled orderId := List.map_map
  have hselect : Candidate.select { r with orderFilter := some orderId } cleared =
      (Candidate.select r worksets).filter fun c => c.operation.orderId == orderId := by
    rw [hcleared]
    refine Candidate.select_orderFilter unfiltered named (fun _ => rfl) fun w hw hid => ?_
    exact Workset.unscheduled_withPlacements hrun.replay distinct hw
      (fun op hop => (named w hw op hop).trans hid) (undated w hw hid)
  have answers : AnswersFor (fun id => id == orderId) (run r worksets centers ledger)
      (run { r with orderFilter := some orderId } cleared centers freed) := by
    unfold run
    rw [hselect]
    exact foldl_freed spans committed minimum capacities freedSpans
      (List.append_nil _).symm hn (fun c hc hin => waitsApart_of_mem distinct named hc hin)
      freed_eq
  refine ⟨?_, answers.scheduled, answers.conflicts⟩
  have hsecond : second.scheduled = first.scheduled.filter (fun p => p.orderId == orderId) :=
    answers.scheduled
  rw [hsecond, hcleared, List.map_map]
  refine List.map_congr_left fun w hw => ?_
  exact Workset.withPlacements_again hrun.replay distinct hw (named w hw) (undated w hw)

/-! ### The first order on the lathe -/

def turningRun : ScheduleResult Rat :=
  (schedule turningRequest turningOrders turningCenters turningLedger).1

/-- The ledger that has seen the other two orders only. -/
def turningFreed : Ledger Rat :=
  turningLedger.bookAll (turningRun.scheduled.filter fun p => !(p.orderId == "T1"))

/-- The first order goes back to its Monday, between what was committed before and the last
    order, which has come to that day after it. -/
theorem schedule_unscheduled_turning :
    (turningRequest.orderFilter = none ∧ Quantity.tolerance < turningRequest.minOperationHours ∧
      (∀ key wc, turningCenters key = some wc →
        wc.capacityHoursPerDay = turningCenters.capacityOf wc.workCenterId) ∧
      turningLedger.Spans turningRequest ∧ (∀ id d, 0 ≤ turningLedger.committed id d) ∧
      ((turningOrders.flatMap (·.operations)).map (·.operationId)).Nodup ∧
      (∀ w ∈ turningOrders, w.Named) ∧
      (∀ w ∈ turningOrders, w.order.orderId = "T1" → w.Undated "T1") ∧
      turningFreed.Spans turningRequest ∧
      ∀ id d, turningFreed.committed id d =
        (schedule turningRequest turningOrders turningCenters turningLedger).2.committed id d -
          Placement.hoursOn (turningRun.scheduled.filter fun p => p.orderId == "T1") id d) ∧
    turningRun.scheduled.map (fun p => (p.operationId, p.start.day, p.hours)) =
      [("T1/10", 5, 4), ("T2/10", 6, 10), ("T3/10", 5, 1)] ∧
    let written := turningOrders.map (.withPlacements turningRun.scheduled)
    let cleared := written.map (.unscheduled "T1")
    let second := (schedule { turningRequest with orderFilter := some "T1" } cleared
      turningCenters turningFreed).1
    cleared.map (.withPlacements second.scheduled) = written ∧
      second.scheduled = turningRun.scheduled.filter (fun p => p.orderId == "T1") ∧
      second.conflicts = turningRun.conflicts.filter (fun x => x.orderId == "T1") := by
  have minimum : Quantity.tolerance < turningRequest.minOperationHours := by decide +kernel
  have capacities : ∀ key wc, turningCenters key = some wc →
      wc.capacityHoursPerDay = turningCenters.capacityOf wc.workCenterId :=
    fun _ _ hwc => WorkCenters.capacityOf_eq (keyed_ofList _) hwc
  have spans : turningLedger.Spans turningRequest := ⟨by decide +kernel, by decide +kernel⟩
  have committed : ∀ id d, 0 ≤ turningLedger.committed id d := by
    intro id d
    unfold turningLedger
    rw [Ledger.committed_book]
    split
    · decide +kernel
    · exact le_refl (0 : Rat)
  have distinct : ((turningOrders.flatMap (·.operations)).map (·.operationId)).Nodup := by
    decide +kernel
  have named : ∀ w ∈ turningOrders, w.Named := by
    intro w hw op hop
    simp only [turningOrders, List.mem_cons, List.not_mem_nil, or_false] at hw
    rcases hw with rfl | rfl | rfl <;> exact List.mem_singleton.mp hop ▸ rfl
  have undated : ∀ w ∈ turningOrders, w.order.orderId = "T1" → w.Undated "T1" := by
    intro w hw _ op hop _ _
    simp only [turningOrders, List.mem_cons, List.not_mem_nil, or_false] at hw
    rcases hw with rfl | rfl | rfl <;> exact List.mem_singleton.mp hop ▸ ⟨rfl, rfl⟩
  have hrun : Upheld turningRequest turningCenters.capacityOf turningLedger
      (run turningRequest turningOrders turningCenters turningLedger) :=
    upheld_foldl spans committed minimum capacities _
  have freedSpans : turningFreed.Spans turningRequest := by
    unfold turningFreed
    constructor
    · rw [(Ledger.bookAll_window _ _).1]
      exact spans.windowStart
    · rw [(Ledger.bookAll_window _ _).2]
      exact spans.windowEnd
  have freed_eq : ∀ id d, turningFreed.committed id d =
      (schedule turningRequest turningOrders turningCenters turningLedger).2.committed id d -
        Placement.hoursOn (turningRun.scheduled.filter fun p => p.orderId == "T1") id d := by
    intro id d
    have hledger : (schedule turningRequest turningOrders turningCenters turningLedger).2 =
        turningLedger.bookAll turningRun.scheduled := hrun.ledger_eq
    rw [hledger]
    exact Ledger.committed_bookAll_others spans hrun.inside _ id d
  refine ⟨⟨rfl, minimum, capacities, spans, committed, distinct, named, undated, freedSpans,
    freed_eq⟩, ?_, ?_⟩
  · rw [turningRun, FirstFit.schedule_of_select select_turning]
    decide +kernel
  · exact schedule_unscheduled turningRequest turningOrders turningCenters _
      turningLedger turningFreed "T1" rfl minimum capacities spans committed distinct named
      undated freedSpans freed_eq

end Workshop
