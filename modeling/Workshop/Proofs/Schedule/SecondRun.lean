/-
  Workshop/Proofs/Schedule/SecondRun.lean
  =======================================
  **A second run finds nothing more to do.**  When the placements of a run are written into
  its worksets, the same request on the ledger that the run left behind places nothing, and
  reports what was reported (`schedule_again`).

  The placed operations have a date now and are no candidates any more; the others keep
  their turns (`Candidate.select_withPlacements`).  Each of them is reported again:

  * what it waited for is found where it was, because an operation takes its turn after the
    one that it waits for (`endOf_append_later`);
  * its work center has no start date for it in the ledger of the second run either,
    because bookings only take hours away (`FirstFit.startDate?_bookAll`).  That needs the
    laws of `Quantity.Accumulating`, which doubles obey too.

  The first of these fails for two operations of an order that share a sequence number but
  not the identifier of their order: the one behind may take its turn first, and finds a
  date to wait for only in the second run (`schedule_goes_on`).
-/
import Workshop.Proofs.Quantity.BinaryAccumulation
import Workshop.Proofs.Schedule.Arrangement

namespace Workshop

variable {Q : Type}

/-! ### Placements written into worksets -/

def Placement.placeAll (ps : List (Placement Q)) (op : Operation Q) : Operation Q :=
  ps.foldl (fun op p => p.place op) op

/-- The workset with the dates of placements written into its operations. -/
def Workset.withPlacements (ps : List (Placement Q)) (w : Workset Q) : Workset Q :=
  { w with operations := w.operations.map (Placement.placeAll ps) }

namespace Placement

/-- One of the placements is about the operation. -/
def names (ps : List (Placement Q)) (op : Operation Q) : Bool :=
  ps.any (·.operationId == op.operationId)

variable {ps : List (Placement Q)} {op : Operation Q}

theorem placeAll_of_not_named (h : names ps op = false) : placeAll ps op = op := by
  induction ps with
  | nil => rfl
  | cons p ps ih =>
    simp only [names, List.any_cons, Bool.or_eq_false_iff] at h
    have hplace : p.place op = op := by
      have hne : (op.operationId == p.operationId) = false := by
        rw [← h.1]
        exact Bool.beq_comm
      simp [place, hne]
    unfold placeAll
    rw [List.foldl_cons, hplace]
    exact ih h.2

/-- Only the dates of an operation are written. -/
theorem exists_placeAll_eq (ps : List (Placement Q)) (op : Operation Q) :
    ∃ start stop, placeAll ps op = { op with scheduledStart := start, scheduledEnd := stop } := by
  induction ps generalizing op with
  | nil => exact ⟨op.scheduledStart, op.scheduledEnd, rfl⟩
  | cons p ps ih =>
    obtain ⟨start, stop, h⟩ := ih (p.place op)
    refine ⟨start, stop, ?_⟩
    change placeAll ps (p.place op) = _
    rw [h]
    unfold place
    split <;> rfl

theorem placeAll_sequence (ps : List (Placement Q)) (op : Operation Q) :
    (placeAll ps op).sequence = op.sequence := by
  obtain ⟨start, stop, h⟩ := exists_placeAll_eq ps op
  rw [h]

theorem placeAll_isComplete (ps : List (Placement Q)) (op : Operation Q) :
    (placeAll ps op).isComplete = op.isComplete := by
  obtain ⟨start, stop, h⟩ := exists_placeAll_eq ps op
  rw [h]
  rfl

theorem placeAll_of_mem (hn : (ps.map (·.operationId)).Nodup) {p : Placement Q} (hp : p ∈ ps)
    (hid : p.operationId = op.operationId) :
    placeAll ps op = { op with scheduledStart := some p.start, scheduledEnd := some p.stop } := by
  induction ps with
  | nil => cases hp
  | cons q ps ih =>
    rw [List.map_cons, List.nodup_cons] at hn
    change placeAll ps (q.place op) = _
    rcases List.mem_cons.mp hp with rfl | hp
    · have hplace : p.place op =
          { op with scheduledStart := some p.start, scheduledEnd := some p.stop } := by
        simp [place, hid]
      rw [hplace]
      apply placeAll_of_not_named
      rw [names, List.any_eq_false]
      intro q hq hqid
      apply hn.1
      rw [hid, ← beq_iff_eq.mp hqid]
      exact List.mem_map_of_mem hq
    · have hne : q.operationId ≠ op.operationId := by
        intro heq
        apply hn.1
        rw [heq, ← hid]
        exact List.mem_map_of_mem hp
      have hplace : q.place op = op := by simp [place, hne.symm]
      rw [hplace]
      exact ih hn.2 hp

theorem placeAll_scheduledEnd (hn : (ps.map (·.operationId)).Nodup) (op : Operation Q) :
    (placeAll ps op).scheduledEnd = FirstFit.endOf ps op := by
  cases hfind : ps.find? (·.operationId == op.operationId) with
  | none =>
    rw [placeAll_of_not_named]
    · simp [FirstFit.endOf, hfind]
    · simpa [names] using hfind
  | some p =>
    rw [placeAll_of_mem hn (List.mem_of_find?_eq_some hfind) (by simpa using List.find?_some hfind)]
    simp [FirstFit.endOf, hfind]

end Placement

theorem Placement.workCenters_nil : workCenters ([] : List (Placement Q)) = [] := by
  simp [workCenters, Text.ascending, Text.dropRepeats]

namespace Candidate

open Placement

def withPlacements (ps : List (Placement Q)) (c : Candidate Q) : Candidate Q :=
  { c with operation := placeAll ps c.operation, predecessor := c.predecessor.map (placeAll ps) }

variable {ps : List (Placement Q)} {r : ScheduleRequest Q}

theorem withPredecessors_map (f : Operation Q → Operation Q) (first : Option (Operation Q))
    (ops : List (Operation Q)) :
    withPredecessors (first.map f) (ops.map f) =
      (withPredecessors first ops).map fun p => (f p.1, p.2.map f) := by
  induction ops generalizing first with
  | nil => rfl
  | cons op ops ih =>
    have ih := ih (some op)
    rw [Option.map_some] at ih
    rw [List.map_cons, withPredecessors, withPredecessors, List.map_cons, ih]

/-- Operations with a date are no candidates any more; nothing changes for the others. -/
theorem isEligible_placeAll (hn : (ps.map (·.operationId)).Nodup) (op : Operation Q) :
    isEligible r (placeAll ps op) = (isEligible r op && !names ps op) := by
  cases hnames : names ps op with
  | false => rw [placeAll_of_not_named hnames, Bool.not_false, Bool.and_true]
  | true =>
    rw [names, List.any_eq_true] at hnames
    obtain ⟨p, hp, hid⟩ := hnames
    rw [placeAll_of_mem hn hp (beq_iff_eq.mp hid)]
    simp [isEligible]

theorem ofWorkset_withPlacements (hn : (ps.map (·.operationId)).Nodup) (w : Workset Q) :
    ofWorkset r (w.withPlacements ps) =
      ((ofWorkset r w).filter fun c => !names ps c.operation).map (withPlacements ps) := by
  have hsequence : (w.operations.map (placeAll ps)).mergeSort
      (fun a b => decide (a.sequence ≤ b.sequence)) = w.inSequence.map (placeAll ps) := by
    symm
    apply List.map_mergeSort
    intro a _ b _
    rw [placeAll_sequence, placeAll_sequence]
  have hpairs := withPredecessors_map (placeAll ps) none w.inSequence
  rw [Option.map_none] at hpairs
  unfold ofWorkset Workset.withPlacements
  dsimp only
  split
  · rw [hsequence, hpairs, List.filter_map, List.map_map]
    change _ = (List.filter _ (List.map _ (List.filter _
      (withPredecessors none w.inSequence)))).map _
    rw [List.filter_map, List.map_map, List.filter_filter]
    have hkeep : ∀ p ∈ withPredecessors none w.inSequence,
        isEligible r (placeAll ps p.1) = (!names ps p.1 && isEligible r p.1) := by
      intro p _
      rw [isEligible_placeAll hn, Bool.and_comm]
    exact congrArg _ (List.filter_congr hkeep)
  · rfl

/-- After placements were written, those candidates are left that are not placed, with the
    same turns. -/
theorem select_withPlacements (hn : (ps.map (·.operationId)).Nodup)
    (worksets : List (Workset Q)) :
    select r (worksets.map (Workset.withPlacements ps)) =
      ((select r worksets).filter fun c => !names ps c.operation).map (withPlacements ps) := by
  have hflat : (worksets.map (Workset.withPlacements ps)).flatMap (ofWorkset r) =
      ((worksets.flatMap (ofWorkset r)).filter fun c => !names ps c.operation).map
        (withPlacements ps) := by
    rw [List.flatMap_map, List.filter_flatMap, List.map_flatMap]
    apply List.flatMap_congr
    intro w _
    exact ofWorkset_withPlacements hn w
  unfold select
  rw [hflat, filter_mergeSort (compareTurn_trans _) (compareTurn_total _)]
  symm
  apply List.map_mergeSort
  intro a _ b _
  obtain ⟨start, stop, ha⟩ := exists_placeAll_eq ps a.operation
  obtain ⟨start', stop', hb⟩ := exists_placeAll_eq ps b.operation
  simp only [compareTurn, withPlacements, ha, hb]

end Candidate

/-! ### Free hours do not come back -/

open Quantity (Coherent Accumulating)

variable [Quantity Q]

theorem Operation.hoursNeeded_nonneg [Quantity.Ordered Q] [Coherent Q] (op : Operation Q)
    {minHours : Q} (hfinite : Quantity.isFinite minHours = true)
    (hmin : Quantity.zero ≤ minHours)
    (h : Quantity.isFinite (op.hoursNeeded minHours) = true) :
    Quantity.zero ≤ op.hoursNeeded minHours := by
  unfold Operation.hoursNeeded Quantity.larger at h ⊢
  split at h
  · rwa [if_pos ‹_›]
  · rw [if_neg ‹_›]
    split at h
    · rwa [if_pos ‹_›]
    · rename_i hless
      rw [if_neg hless]
      by_contra hneg
      apply hless
      apply Quantity.Ordered.lt_of_not_le hfinite h
      intro hle
      exact hneg (Coherent.le_trans hmin hle)

namespace FirstFit

variable [Coherent Q] [Accumulating Q] {wc : WorkCenter Q} {hours : Q} {d : Date}

theorem HasRoom.of_book (capacity : Quantity.isFinite wc.capacityHoursPerDay = true)
    {l : Ledger Q} {id : String} {date : Date} {h : Q}
    (nonneg : Quantity.isFinite h = true → Quantity.zero ≤ h)
    (hroom : HasRoom wc (l.book id date h) hours d) : HasRoom wc l hours d := by
  unfold HasRoom at hroom ⊢
  rw [Ledger.committed_book] at hroom
  split at hroom
  case isFalse => exact hroom
  case isTrue hbooked =>
    obtain ⟨haccepts, rfl, rfl⟩ := hbooked
    have hfinite : Quantity.isFinite h = true := by
      simp only [Ledger.accepts, Bool.and_eq_true] at haccepts
      exact haccepts.2
    have hsum := Coherent.number_of_sub hroom
    have hnumber := Coherent.number_of_add hsum
    have hle := Accumulating.le_add hnumber hfinite (nonneg hfinite)
    exact Coherent.le_trans hroom (Accumulating.sub_le_sub capacity hle)

theorem HasRoom.of_bookAll (capacity : Quantity.isFinite wc.capacityHoursPerDay = true)
    {l : Ledger Q} {ps : List (Placement Q)}
    (nonneg : ∀ p ∈ ps, Quantity.isFinite p.hours = true → Quantity.zero ≤ p.hours)
    (hroom : HasRoom wc (l.bookAll ps) hours d) : HasRoom wc l hours d := by
  induction ps generalizing l with
  | nil => exact hroom
  | cons p ps ih =>
    rw [List.forall_mem_cons] at nonneg
    exact HasRoom.of_book capacity nonneg.1 (ih nonneg.2 hroom)

theorem startDate?_bookAll {l : Ledger Q} {ps : List (Placement Q)} {startFrom stop : Date}
    (nonneg : ∀ p ∈ ps, Quantity.isFinite p.hours = true → Quantity.zero ≤ p.hours)
    (h : startDate? l wc hours startFrom stop = none) :
    startDate? (l.bookAll ps) wc hours startFrom stop = none := by
  rw [startDate?_eq_none_iff] at h ⊢
  intro hcapacity e hstart hstop hroom
  apply h hcapacity e hstart hstop
  refine ⟨hroom.1, ?_⟩
  apply HasRoom.of_bookAll _ nonneg hroom.2
  simp only [hasCapacity, Bool.and_eq_true] at hcapacity
  exact hcapacity.1

end FirstFit

/-! ### The same verdict again -/

namespace FirstFit

variable {r : ScheduleRequest Q} {centers : WorkCenters Q} {s s' : State Q} {c c' : Candidate Q}

omit [Quantity Q] in
theorem State.report_injective {x y : Conflict} (h : s.report x = s.report y) : x = y := by
  have hconflicts := congrArg State.conflicts h
  simpa [State.report] using hconflicts

theorem State.place_ne_report {p : Placement Q} {x : Conflict} : s.place p ≠ s.report x := by
  intro h
  have hlength := congrArg (fun t => t.scheduled.length) h
  simp [State.place, State.report] at hlength

/-- A candidate is reported again, in the same words, when it may start as early as it
    might, and no start date has come up for it. -/
theorem take_again {x : Conflict} (h : take r centers s c = s.report x)
    (hop : c'.operation = c.operation)
    (hsequence : c'.predecessor.map (·.sequence) = c.predecessor.map (·.sequence))
    (hearliest : earliest? r s' c' = earliest? r s c)
    (hfull : ∀ wc hours startFrom, startDate? s.ledger wc hours startFrom r.windowEnd = none →
      startDate? s'.ledger wc hours startFrom r.windowEnd = none) :
    take r centers s' c' = s'.report x := by
  unfold take at h ⊢
  dsimp only at h ⊢
  rw [hop, hsequence, hearliest]
  cases hafter : earliest? r s c with
  | none =>
    rw [hafter] at h
    exact congrArg s'.report (State.report_injective h)
  | some earliest =>
    rw [hafter] at h
    cases hknown : centers c.operation.workCenterId with
    | none =>
      rw [hknown] at h
      exact congrArg s'.report (State.report_injective h)
    | some wc =>
      rw [hknown] at h
      dsimp only at h ⊢
      split at h
      · exact absurd h State.place_ne_report
      · next hnone =>
        rw [hfull _ _ _ hnone]
        exact congrArg s'.report (State.report_injective h)

theorem take_cases [Quantity.Ordered Q] (r : ScheduleRequest Q) (centers : WorkCenters Q)
    (s : State Q) (c : Candidate Q) :
    (∃ x, take r centers s c = s.report x) ∨
      ∃ p, take r centers s c = s.place p ∧ p.operationId = c.operation.operationId ∧
        p.hours = c.operation.hoursNeeded r.minOperationHours := by
  have htaken := taken_take r centers s c
  generalize take r centers s c = t at htaken
  cases htaken with
  | waits => exact Or.inl ⟨_, rfl⟩
  | unknown => exact Or.inl ⟨_, rfl⟩
  | full => exact Or.inl ⟨_, rfl⟩
  | placed _ _ fits => exact Or.inr ⟨_, rfl, fits.operationId, fits.hours⟩

/-- What a run places from some candidate on: placements of the candidates that are left,
    with the hours that these need. -/
structure Continues (r : ScheduleRequest Q) (cs : List (Candidate Q)) (s t : State Q)
    (later : List (Placement Q)) : Prop where
  scheduled : t.scheduled = s.scheduled ++ later
  ledger : t.ledger = s.ledger.bookAll later
  ofCandidate : ∀ p ∈ later, ∃ d ∈ cs, d.operation.operationId = p.operationId ∧
    p.hours = d.operation.hoursNeeded r.minOperationHours

theorem exists_continues [Quantity.Ordered Q] (r : ScheduleRequest Q) (centers : WorkCenters Q)
    (cs : List (Candidate Q)) (s : State Q) :
    ∃ later, Continues r cs s (cs.foldl (take r centers) s) later := by
  induction cs generalizing s with
  | nil => exact ⟨[], by simp, rfl, by simp⟩
  | cons c cs ih =>
    obtain ⟨later, h⟩ := ih (take r centers s c)
    have hlater : ∀ p ∈ later, ∃ d ∈ c :: cs, d.operation.operationId = p.operationId ∧
        p.hours = d.operation.hoursNeeded r.minOperationHours := by
      intro p hp
      obtain ⟨d, hd, hid⟩ := h.ofCandidate p hp
      exact ⟨d, List.mem_cons_of_mem c hd, hid⟩
    rw [List.foldl_cons]
    rcases take_cases r centers s c with ⟨x, hx⟩ | ⟨p, hp, hid, hhours⟩
    · rw [hx] at h ⊢
      exact ⟨later, h.scheduled, h.ledger, hlater⟩
    · rw [hp] at h ⊢
      refine ⟨p :: later, ?_, h.ledger, ?_⟩
      · rw [h.scheduled]
        simp [State.place]
      · rw [List.forall_mem_cons]
        exact ⟨⟨c, List.mem_cons_self, hid.symm, hhours⟩, hlater⟩

/-! ### The second run -/

variable {worksets : List (Workset Q)} {ledger : Ledger Q} {pre post : List (Candidate Q)}

omit [Quantity Q] in
theorem earliest?_withPlacements {ps : List (Placement Q)}
    (hn : (ps.map (·.operationId)).Nodup) (l : Ledger Q) (conflicts : List Conflict)
    (c : Candidate Q) : earliest? r ⟨l, [], [], conflicts⟩ (c.withPlacements ps) =
      earliestAfter r ps c.predecessor := by
  unfold earliest? earliestAfter Candidate.withPlacements
  cases c.predecessor with
  | none => rfl
  | some before =>
    dsimp only [Option.map_some]
    rw [Placement.placeAll_isComplete]
    simp only [predecessorEnd, List.lookup_nil, Placement.placeAll_scheduledEnd hn]

/-- The state of the first run just before a candidate, and what it places from then on. -/
theorem exists_state_before [Quantity.Ordered Q] (r : ScheduleRequest Q)
    (centers : WorkCenters Q) (ledger : Ledger Q) {c : Candidate Q}
    (hselect : Candidate.select r worksets = pre ++ c :: post) :
    ∃ later, Continues r post
      (take r centers (pre.foldl (take r centers) ⟨ledger, [], [], []⟩) c)
      (run r worksets centers ledger) later := by
  unfold run
  rw [hselect, List.foldl_append, List.foldl_cons]
  exact exists_continues r centers post _

theorem named_of_place [Quantity.Ordered Q] {c : Candidate Q} {p : Placement Q}
    (hselect : Candidate.select r worksets = pre ++ c :: post)
    (h : take r centers (pre.foldl (take r centers) ⟨ledger, [], [], []⟩) c =
      (pre.foldl (take r centers) ⟨ledger, [], [], []⟩).place p)
    (hid : p.operationId = c.operation.operationId) :
    Placement.names (run r worksets centers ledger).scheduled c.operation = true := by
  obtain ⟨later, hcontinues⟩ := exists_state_before r centers ledger hselect
  have hscheduled := hcontinues.scheduled
  rw [h] at hscheduled
  rw [Placement.names, List.any_eq_true]
  refine ⟨p, ?_, beq_iff_eq.mpr hid⟩
  rw [hscheduled]
  simp [State.place]

theorem tracks_before [Quantity.Ordered Q] (centers : WorkCenters Q) (ledger : Ledger Q)
    (distinct : ((worksets.flatMap (·.operations)).map (·.operationId)).Nodup)
    {c : Candidate Q} (hselect : Candidate.select r worksets = pre ++ c :: post) :
    (pre.map (·.operation.operationId)).Nodup ∧
      Tracks r centers ledger pre (pre.foldl (take r centers) ⟨ledger, [], [], []⟩) := by
  have hnodup := Candidate.nodup_select (r := r) distinct
  rw [hselect, List.map_append] at hnodup
  exact ⟨hnodup.of_append_left, tracks_foldl hnodup.of_append_left⟩

section Reported

variable [Quantity.Ordered Q] {c : Candidate Q} {later : List (Placement Q)}
  (distinct : ((worksets.flatMap (·.operations)).map (·.operationId)).Nodup)
  (hselect : Candidate.select r worksets = pre ++ c :: post)
  (hcontinues : Continues r post (pre.foldl (take r centers) ⟨ledger, [], [], []⟩)
    (run r worksets centers ledger) later)

include distinct hselect hcontinues

/-- No placement is about a candidate whose turn adds none. -/
theorem not_named_of_continues :
    Placement.names (run r worksets centers ledger).scheduled c.operation = false := by
  have hnodup := Candidate.nodup_select (r := r) distinct
  rw [hselect, List.map_append, List.map_cons, List.nodup_append, List.nodup_cons] at hnodup
  obtain ⟨-, ⟨hpost, -⟩, happart⟩ := hnodup
  obtain ⟨-, hbefore⟩ := tracks_before centers ledger distinct hselect
  rw [Placement.names, List.any_eq_false, hcontinues.scheduled]
  intro p hp hid
  rw [beq_iff_eq] at hid
  rcases List.mem_append.mp hp with hp | hp
  · have hmem := hbefore.replay.ids_sublist.subset (List.mem_map_of_mem hp)
    exact happart _ hmem _ List.mem_cons_self hid
  · obtain ⟨d, hd, hdid, -⟩ := hcontinues.ofCandidate p hp
    apply hpost
    rw [← hid, ← hdid]
    exact List.mem_map_of_mem hd

theorem earliest?_again (ties : ∀ w ∈ worksets, ∀ a ∈ w.operations, ∀ b ∈ w.operations,
      a.sequence = b.sequence → a.orderId = b.orderId) (l : Ledger Q)
    (conflicts : List Conflict) :
    earliest? r ⟨l, [], [], conflicts⟩
        (c.withPlacements (run r worksets centers ledger).scheduled) =
      earliest? r (pre.foldl (take r centers) ⟨ledger, [], [], []⟩) c := by
  have hnodup := Candidate.nodup_select (r := r) distinct
  have hrun : Tracks r centers ledger (Candidate.select r worksets)
      (run r worksets centers ledger) := tracks_foldl hnodup
  obtain ⟨hpre, hbefore⟩ := tracks_before centers ledger distinct hselect
  obtain ⟨w, hw, hcw, hfollows⟩ := Candidate.exists_of_mem_select
    (show c ∈ Candidate.select r worksets by simp [hselect])
  rw [earliest?_withPlacements (hnodup.sublist hrun.replay.ids_sublist),
    hbefore.earliest?_eq hpre, hcontinues.scheduled]
  cases hb : c.predecessor with
  | none => rfl
  | some b =>
    rw [hb] at hfollows
    have hties := ties w hw b hfollows.mem_before _ hfollows.mem
    have hlater : ∀ q ∈ later, ∃ d ∈ c :: post, d.operation.operationId = q.operationId := by
      intro q hq
      obtain ⟨d, hd, hid, -⟩ := hcontinues.ofCandidate q hq
      exact ⟨d, List.mem_cons_of_mem c hd, hid⟩
    simp only [earliestAfter, endOf_append_later distinct hw hties hcw hb hselect hlater]

end Reported

variable (distinct : ((worksets.flatMap (·.operations)).map (·.operationId)).Nodup)
  (ties : ∀ w ∈ worksets, ∀ a ∈ w.operations, ∀ b ∈ w.operations,
    a.sequence = b.sequence → a.orderId = b.orderId)
  (minFinite : Quantity.isFinite r.minOperationHours = true)
  (minNonneg : Quantity.zero ≤ r.minOperationHours)

include distinct ties minFinite minNonneg

/-- What the first run reports about a candidate the second run reports too. -/
theorem take_withPlacements [Quantity.Ordered Q] [Coherent Q] [Accumulating Q]
    {c : Candidate Q} {x : Conflict}
    (hselect : Candidate.select r worksets = pre ++ c :: post)
    (h : take r centers (pre.foldl (take r centers) ⟨ledger, [], [], []⟩) c =
      (pre.foldl (take r centers) ⟨ledger, [], [], []⟩).report x) (conflicts : List Conflict) :
    Placement.names (run r worksets centers ledger).scheduled c.operation = false ∧
      take r centers ⟨(run r worksets centers ledger).ledger, [], [], conflicts⟩
          (c.withPlacements (run r worksets centers ledger).scheduled) =
        ⟨(run r worksets centers ledger).ledger, [], [], conflicts ++ [x]⟩ := by
  obtain ⟨later, hturn⟩ := exists_state_before r centers ledger hselect
  rw [h] at hturn
  have hcontinues : Continues r post (pre.foldl (take r centers) ⟨ledger, [], [], []⟩)
      (run r worksets centers ledger) later := ⟨hturn.scheduled, hturn.ledger, hturn.ofCandidate⟩
  have hunnamed := not_named_of_continues distinct hselect hcontinues
  refine ⟨hunnamed, take_again h ?_ ?_ ?_ ?_⟩
  · exact Placement.placeAll_of_not_named hunnamed
  · simp only [Candidate.withPlacements, Option.map_map]
    congr 1
    funext op
    exact Placement.placeAll_sequence _ op
  · exact earliest?_again distinct hselect hcontinues ties _ conflicts
  · intro wc hours startFrom hnone
    dsimp only
    rw [hcontinues.ledger]
    apply startDate?_bookAll _ hnone
    intro p hp
    obtain ⟨d, -, -, hhours⟩ := hcontinues.ofCandidate p hp
    rw [hhours]
    exact Operation.hoursNeeded_nonneg d.operation minFinite minNonneg

/-- As far as the second run has come, it has placed nothing, and it has reported what the
    first run had reported when it was there. -/
theorem foldl_withPlacements [Quantity.Ordered Q] [Coherent Q] [Accumulating Q]
    (hselect : Candidate.select r worksets = pre ++ post) :
    ((pre.filter fun c =>
        !Placement.names (run r worksets centers ledger).scheduled c.operation).map
      (Candidate.withPlacements (run r worksets centers ledger).scheduled)).foldl
        (take r centers) ⟨(run r worksets centers ledger).ledger, [], [], []⟩ =
      ⟨(run r worksets centers ledger).ledger, [], [],
        (pre.foldl (take r centers) ⟨ledger, [], [], []⟩).conflicts⟩ := by
  induction pre using List.reverseRecOn generalizing post with
  | nil => rfl
  | append_singleton pre c ih =>
    have hselect : Candidate.select r worksets = pre ++ c :: post := by simpa using hselect
    rw [List.filter_append, List.map_append, List.foldl_append, ih hselect, List.foldl_append,
      List.foldl_cons, List.foldl_nil]
    rcases take_cases r centers (pre.foldl (take r centers) ⟨ledger, [], [], []⟩) c with
      ⟨x, hx⟩ | ⟨p, hp, hid, -⟩
    · obtain ⟨hunnamed, hagain⟩ := take_withPlacements distinct ties minFinite minNonneg hselect hx
        (pre.foldl (take r centers) ⟨ledger, [], [], []⟩).conflicts
      rw [hx, List.filter_singleton, hunnamed]
      exact hagain
    · have hnamed := named_of_place hselect hp hid
      rw [hp, List.filter_singleton, hnamed]
      rfl

end FirstFit

/-- **A second run finds nothing more to do.**  When the placements of a run are written
    into the worksets, the same request on the ledger that the run left behind places
    nothing and reports what was reported, in the same order. -/
theorem schedule_again [Quantity.Ordered Q] [Coherent Q] [Accumulating Q]
    (r : ScheduleRequest Q) (worksets : List (Workset Q)) (centers : WorkCenters Q)
    (ledger : Ledger Q)
    (distinct : ((worksets.flatMap (·.operations)).map (·.operationId)).Nodup)
    (ties : ∀ w ∈ worksets, ∀ a ∈ w.operations, ∀ b ∈ w.operations,
      a.sequence = b.sequence → a.orderId = b.orderId)
    (minFinite : Quantity.isFinite r.minOperationHours = true)
    (minNonneg : Quantity.zero ≤ r.minOperationHours) :
    schedule r
        (worksets.map (.withPlacements (schedule r worksets centers ledger).1.scheduled)) centers
        (schedule r worksets centers ledger).2 =
      (⟨[], (schedule r worksets centers ledger).1.conflicts, []⟩,
        (schedule r worksets centers ledger).2) := by
  have hnodup := Candidate.nodup_select (r := r) distinct
  have hrun : FirstFit.Tracks r centers ledger (Candidate.select r worksets)
      (FirstFit.run r worksets centers ledger) := FirstFit.tracks_foldl hnodup
  have hn := hnodup.sublist hrun.replay.ids_sublist
  have hagain : FirstFit.run r
      (worksets.map (.withPlacements (FirstFit.run r worksets centers ledger).scheduled)) centers
      (FirstFit.run r worksets centers ledger).ledger =
        ⟨(FirstFit.run r worksets centers ledger).ledger, [], [],
          (FirstFit.run r worksets centers ledger).conflicts⟩ := by
    rw [FirstFit.run, Candidate.select_withPlacements hn]
    exact FirstFit.foldl_withPlacements distinct ties minFinite minNonneg
      (List.append_nil _).symm
  unfold schedule
  dsimp only
  rw [hagain, Placement.workCenters_nil]

/-! ### A run that fills the lathe -/

/-- A request that leaves only Monday for starts. -/
def mondayRequest : ScheduleRequest Float := { saturdayRequest with horizonDays := 2 }

/-- Two orders for a shaft, the second one less urgent. -/
def shaftOrders : List (Workset Float) :=
  [shaftWorkset, { secondShaft with order := { secondShaft.order with priority := 2 } }]

def mondayRun : ScheduleResult Float × Ledger Float :=
  schedule mondayRequest shaftOrders (.ofList [lathe])
    (.empty saturday mondayRequest.windowEnd)

theorem select_shaftOrders :
    Candidate.select mondayRequest shaftOrders = shaftOrders.flatMap fun w =>
      (Candidate.withPredecessors none w.operations).map fun p =>
        ⟨p.1, w.order.priority, none, "SHAFT", p.2⟩ := by
  apply Candidate.select_of_sorted
  · unfold shaftOrders
    rw [List.flatMap_cons, List.flatMap_singleton, Candidate.ofWorkset_of_sorted (by decide),
      Candidate.ofWorkset_of_sorted (by decide)]
    rfl
  · decide

/-- The first operation takes Monday; the other order finds it taken in both runs. -/
theorem schedule_again_monday :
    (((shaftOrders.flatMap (·.operations)).map (·.operationId)).Nodup ∧
      (∀ w ∈ shaftOrders, ∀ a ∈ w.operations, ∀ b ∈ w.operations,
        a.sequence = b.sequence → a.orderId = b.orderId) ∧
      Quantity.isFinite mondayRequest.minOperationHours = true ∧
      Quantity.zero ≤ mondayRequest.minOperationHours) ∧
    mondayRun.1.scheduled.map (·.operationId) = ["S1/10"] ∧
    mondayRun.1.conflicts.map (fun x => (x.operationId, x.reason)) =
      [("S1/20", .noCapacityInHorizon), ("S2/10", .noCapacityInHorizon),
        ("S2/20", .predecessorUnscheduled)] ∧
    schedule mondayRequest (shaftOrders.map (.withPlacements mondayRun.1.scheduled))
        (.ofList [lathe]) mondayRun.2 = (⟨[], mondayRun.1.conflicts, []⟩, mondayRun.2) := by
  have distinct : ((shaftOrders.flatMap (·.operations)).map (·.operationId)).Nodup := by decide
  have ties : ∀ w ∈ shaftOrders, ∀ a ∈ w.operations, ∀ b ∈ w.operations,
      a.sequence = b.sequence → a.orderId = b.orderId := by decide
  have minFinite : Quantity.isFinite mondayRequest.minOperationHours = true := by decide
  have minNonneg : Quantity.zero ≤ mondayRequest.minOperationHours := by decide
  refine ⟨⟨distinct, ties, minFinite, minNonneg⟩, ?_, ?_,
    schedule_again mondayRequest shaftOrders (.ofList [lathe])
      (.empty saturday mondayRequest.windowEnd) distinct ties minFinite minNonneg⟩
  · rw [mondayRun, FirstFit.schedule_of_select select_shaftOrders]
    decide +kernel
  · rw [mondayRun, FirstFit.schedule_of_select select_shaftOrders]
    decide +kernel

/-! ### Two operations of one sequence number -/

/-- Operations of one sequence number, which do not name one order. -/
def tiedWorkset : Workset Float where
  order := shaftWorkset.order
  operations := [("S2", "T/1"), ("S1", "T/2")].map fun ids =>
    Draft.toOperation ⟨10, none, none, "LATHE", "Turn", none, false, 0, 4⟩ ids.1 ids.2

def tiedRun : ScheduleResult Float × Ledger Float :=
  schedule saturdayRequest [tiedWorkset] (.ofList [lathe])
    (.empty saturday saturdayRequest.windowEnd)

/-- The second of the operations takes its turn first, and waits for the first. -/
def tiedCandidates : List (Candidate Float) :=
  ((Candidate.withPredecessors none tiedWorkset.operations).map fun p =>
    ⟨p.1, 1, none, "SHAFT", p.2⟩).reverse

theorem select_tied : Candidate.select saturdayRequest [tiedWorkset] = tiedCandidates := by
  have hcandidates : [tiedWorkset].flatMap (Candidate.ofWorkset saturdayRequest) =
      tiedCandidates.reverse := by
    rw [List.flatMap_singleton, Candidate.ofWorkset_of_sorted (by decide)]
    rfl
  unfold Candidate.select
  rw [hcandidates, mergeSort_eq_of_perm (Candidate.compareTurn_trans _)
    (Candidate.compareTurn_total _) _ (List.reverse_perm tiedCandidates)]
  · exact List.mergeSort_of_pairwise (by decide)
  · intro a ha b hb hab hba
    rw [List.mem_reverse] at ha hb
    rcases List.mem_pair.mp ha with rfl | rfl
    · rcases List.mem_pair.mp hb with rfl | rfl
      · rfl
      · exact absurd hba (by decide)
    · rcases List.mem_pair.mp hb with rfl | rfl
      · exact absurd hab (by decide)
      · rfl

/-- The second run places an operation that the first one could not. -/
theorem schedule_goes_on :
    ((([tiedWorkset].flatMap (·.operations)).map (·.operationId)).Nodup ∧
      Quantity.isFinite saturdayRequest.minOperationHours = true ∧
      Quantity.zero ≤ saturdayRequest.minOperationHours) ∧
    ((schedule saturdayRequest ([tiedWorkset].map (.withPlacements tiedRun.1.scheduled))
      (.ofList [lathe]) tiedRun.2).1.scheduled.map (·.operationId)) = ["T/2"] := by
  have distinct : (([tiedWorkset].flatMap (·.operations)).map (·.operationId)).Nodup := by decide
  refine ⟨⟨distinct, by decide, by decide⟩, ?_⟩
  have hn : (tiedRun.1.scheduled.map (·.operationId)).Nodup := by
    rw [tiedRun, FirstFit.schedule_of_select select_tied]
    decide +kernel
  rw [FirstFit.schedule_of_select (Candidate.select_withPlacements hn _), select_tied, tiedRun,
    FirstFit.schedule_of_select select_tied]
  decide +kernel

end Workshop
