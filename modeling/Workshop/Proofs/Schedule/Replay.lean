/-
  Workshop/Proofs/Schedule/Replay.lean
  ====================================
  **A scheduling run is a first-fit replay.**  The placements of a run, booked in their
  order, lead from the ledger before the run to the one after it.  Each of them is the
  first fit of its operation on the ledger as it is at its turn, after the end of the
  operation before it (`schedule_isReplay`).

  A run carries a ledger and the ends of the operations placed so far.  Both can be read
  off the placements (`Tracks`), so a replay needs the placements alone (`Replay`).
-/
import Workshop.Proofs.Quantity.Ordered
import Workshop.Proofs.Schedule.Search
import Workshop.Proofs.Schedule.Turns

namespace Workshop

variable {Q : Type}

namespace FirstFit

/-! ### The ends of operations -/

/-- The end of an operation: the one of its placement, or the stored one. -/
def endOf (placed : List (Placement Q)) (op : Operation Q) : Option Date :=
  match placed.find? (·.operationId == op.operationId) with
  | some p => some p.stop
  | none => op.scheduledEnd

/-- The ends of placements, the last one first. -/
def ends (ps : List (Placement Q)) : List (String × Date) :=
  (ps.map fun p => (p.operationId, p.stop)).reverse

theorem lookup_ends {ps : List (Placement Q)} (hn : (ps.map (·.operationId)).Nodup) (id : String) :
    (ends ps).lookup id = (ps.find? (·.operationId == id)).map (·.stop) := by
  induction ps using List.reverseRecOn with
  | nil => rfl
  | append_singleton ps p ih =>
    rw [List.map_append, List.nodup_append] at hn
    obtain ⟨hn, -, hp⟩ := hn
    have hends : ends (ps ++ [p]) = (p.operationId, p.stop) :: ends ps := by simp [ends]
    rw [hends, List.find?_append, List.lookup_cons]
    by_cases hid : p.operationId = id
    · subst hid
      have hnone : ps.find? (·.operationId == p.operationId) = none := by
        rw [List.find?_eq_none]
        intro q hq
        simpa using hp q.operationId (List.mem_map_of_mem hq) p.operationId (by simp)
      simp [hnone]
    · have hne : (id == p.operationId) = false := by simpa using fun h => hid h.symm
      rw [hne, ih hn]
      simp [hid]

end FirstFit

variable [Quantity Q]

/-! ### First fits -/

/-- Books placements, one after the other. -/
def Ledger.bookAll (l : Ledger Q) (ps : List (Placement Q)) : Ledger Q :=
  ps.foldl (fun l p => l.book p.workCenterId p.start p.hours) l

theorem Ledger.book_windowStart (l : Ledger Q) (id : String) (d : Date) (h : Q) :
    (l.book id d h).windowStart = l.windowStart := by
  unfold book
  split <;> rfl

theorem Ledger.book_windowEnd (l : Ledger Q) (id : String) (d : Date) (h : Q) :
    (l.book id d h).windowEnd = l.windowEnd := by
  unfold book
  split <;> rfl

/-- Bookings leave the window of a ledger what it is. -/
theorem Ledger.bookAll_window (l : Ledger Q) (ps : List (Placement Q)) :
    (l.bookAll ps).windowStart = l.windowStart ∧ (l.bookAll ps).windowEnd = l.windowEnd := by
  induction ps generalizing l with
  | nil => exact ⟨rfl, rfl⟩
  | cons p ps ih =>
    have hrest := ih (l.book p.workCenterId p.start p.hours)
    rwa [book_windowStart, book_windowEnd] at hrest

theorem Ledger.bookAll_append (l : Ledger Q) (ps : List (Placement Q)) (p : Placement Q) :
    l.bookAll (ps ++ [p]) = (l.bookAll ps).book p.workCenterId p.start p.hours :=
  List.foldl_append

namespace FirstFit

/-- The earliest start that placements allow behind an operation. -/
def earliestAfter (r : ScheduleRequest Q) (placed : List (Placement Q)) :
    Option (Operation Q) → Option Date
  | none => some r.today
  | some before =>
    if before.isComplete then some r.today else (endOf placed before).bind Date.next?

/-- The start day has room for the operation, as far as the ledger knows. -/
def HasRoom (wc : WorkCenter Q) (ledger : Ledger Q) (hours : Q) (d : Date) : Prop :=
  Quantity.smaller hours wc.capacityHoursPerDay - Quantity.tolerance ≤
    wc.capacityHoursPerDay - ledger.committed wc.workCenterId d

/-- The placement is the first fit of an operation at a work center. -/
structure FirstFits (r : ScheduleRequest Q) (wc : WorkCenter Q) (ledger : Ledger Q)
    (op : Operation Q) (earliest : Date) (p : Placement Q) : Prop where
  operationId : p.operationId = op.operationId
  orderId : p.orderId = op.orderId
  sequence : p.sequence = op.sequence
  workCenterId : p.workCenterId = wc.workCenterId
  finite : Quantity.isFinite wc.capacityHoursPerDay = true
  positive : Quantity.zero < wc.capacityHoursPerDay
  hours : p.hours = op.hoursNeeded r.minOperationHours
  start : Date.IsFirst (fun d => d.isBusinessDay = true ∧ HasRoom wc ledger p.hours d)
    (earliest.later r.today) r.windowEnd p.start
  skipped : p.weekendDaysSkipped =
    (Date.weekendDays (earliest.later r.today) p.start).ncard
  stop : p.stop = endDate p.start p.hours wc.capacityHoursPerDay

/-! ### One candidate -/

theorem canBook_iff {wc : WorkCenter Q} {l : Ledger Q} {hours : Q} {d : Date} :
    (l.day wc.workCenterId d wc.capacityHoursPerDay).canBook
      (requiredHours wc.capacityHoursPerDay hours) = true ↔ HasRoom wc l hours d :=
  decide_eq_true_iff

theorem startDate?_eq_some [Quantity.Ordered Q] {l : Ledger Q} {wc : WorkCenter Q} {hours : Q}
    {startFrom stop d : Date} {n : Nat} (h : startDate? l wc hours startFrom stop = some (d, n)) :
    Quantity.isFinite wc.capacityHoursPerDay = true ∧ Quantity.zero < wc.capacityHoursPerDay ∧
      Date.IsFirst (fun d => d.isBusinessDay = true ∧ HasRoom wc l hours d) startFrom stop d ∧
        n = (Date.weekendDays startFrom d).ncard := by
  unfold startDate? at h
  split at h
  case isFalse => cases h
  case isTrue hc =>
    simp only [hasCapacity, Bool.and_eq_true, Bool.not_eq_true', decide_eq_false_iff_not] at hc
    obtain ⟨hfirst, hn⟩ := Date.searchFrom_eq_some h
    refine ⟨hc.1, Quantity.pos_of_not_le_zero hc.1 hc.2, ?_, by simpa using hn⟩
    simpa only [canBook_iff] using hfirst

/-- There is no start date when the work center has no capacity, or no room on any working
    day of the range. -/
theorem startDate?_eq_none_iff {l : Ledger Q} {wc : WorkCenter Q} {hours : Q}
    {startFrom stop : Date} : startDate? l wc hours startFrom stop = none ↔
      (hasCapacity wc = true → ∀ d, startFrom ≤ d → d ≤ stop →
        ¬ (d.isBusinessDay = true ∧ HasRoom wc l hours d)) := by
  unfold startDate?
  split
  case isTrue hc =>
    dsimp only
    rw [Date.searchFrom_eq_none_iff]
    simp only [canBook_iff, hc, true_imp_iff]
  case isFalse hc => simp [hc]

/-- What one candidate can do to the state of a run: it is reported, for one of three
    reasons, or placed. -/
inductive Taken (r : ScheduleRequest Q) (centers : WorkCenters Q) (s : State Q)
    (c : Candidate Q) : State Q → Prop
  | waits (detail : String) (after : earliest? r s c = none) :
      Taken r centers s c (s.report (.about c.operation .predecessorUnscheduled detail))
  | unknown (detail : String) {earliest : Date} (after : earliest? r s c = some earliest)
      (unknown : centers c.operation.workCenterId = none) :
      Taken r centers s c (s.report (.about c.operation .unknownWorkCenter detail))
  | full (detail : String) {wc : WorkCenter Q} {earliest : Date}
      (known : centers c.operation.workCenterId = some wc)
      (after : earliest? r s c = some earliest)
      (full : startDate? s.ledger wc (c.operation.hoursNeeded r.minOperationHours)
        (earliest.later r.today) r.windowEnd = none) :
      Taken r centers s c (s.report (.about c.operation .noCapacityInHorizon detail))
  | placed {wc : WorkCenter Q} {earliest : Date} {p : Placement Q}
      (known : centers c.operation.workCenterId = some wc)
      (after : earliest? r s c = some earliest)
      (fits : FirstFits r wc s.ledger c.operation earliest p) : Taken r centers s c (s.place p)

theorem taken_take [Quantity.Ordered Q] (r : ScheduleRequest Q) (centers : WorkCenters Q)
    (s : State Q) (c : Candidate Q) : Taken r centers s c (take r centers s c) := by
  unfold take
  dsimp only
  cases hafter : earliest? r s c with
  | none => exact .waits _ hafter
  | some earliest =>
    cases hknown : centers c.operation.workCenterId with
    | none => exact .unknown _ hafter hknown
    | some wc =>
      dsimp only
      split
      case h_2 hfull => exact .full _ hknown hafter hfull
      case h_1 start skipped hstart =>
        obtain ⟨hf, hpos, hfirst, hn⟩ := startDate?_eq_some hstart
        apply Taken.placed hknown hafter
        exact ⟨rfl, rfl, rfl, rfl, hf, hpos, rfl, hfirst, hn, rfl⟩

/-! ### The run -/

/-- What holds at first and is kept by each candidate holds at the end of a run. -/
theorem run_induction [Quantity.Ordered Q] {motive : State Q → Prop} (r : ScheduleRequest Q)
    (worksets : List (Workset Q)) (centers : WorkCenters Q) (ledger : Ledger Q)
    (start : motive ⟨ledger, [], [], []⟩)
    (step : ∀ s c t, motive s → Taken r centers s c t → motive t) :
    motive (run r worksets centers ledger) := by
  unfold run
  generalize Candidate.select r worksets = cs
  induction cs using List.reverseRecOn with
  | nil => exact start
  | append_singleton cs c ih =>
    rw [List.foldl_append]
    exact step _ c _ ih (taken_take r centers _ c)

/-- Placements that a replay makes of candidates: each is the first fit of its operation
    on the ledger that the placements before it have booked. -/
inductive Replay (r : ScheduleRequest Q) (centers : WorkCenters Q) (ledger : Ledger Q) :
    List (Candidate Q) → List (Placement Q) → Prop
  | nil : Replay r centers ledger [] []
  | skip {cs ps} (h : Replay r centers ledger cs ps) (c : Candidate Q) :
      Replay r centers ledger (cs ++ [c]) ps
  | place {cs ps} (h : Replay r centers ledger cs ps) {c : Candidate Q} {wc : WorkCenter Q}
      {earliest : Date} {p : Placement Q} (known : centers c.operation.workCenterId = some wc)
      (after : earliestAfter r ps c.predecessor = some earliest)
      (fits : FirstFits r wc (ledger.bookAll ps) c.operation earliest p) :
      Replay r centers ledger (cs ++ [c]) (ps ++ [p])

variable {r : ScheduleRequest Q} {centers : WorkCenters Q} {ledger : Ledger Q}
  {cs : List (Candidate Q)} {ps : List (Placement Q)}

theorem Replay.ids_sublist (h : Replay r centers ledger cs ps) :
    (ps.map (·.operationId)).Sublist (cs.map (·.operation.operationId)) := by
  induction h with
  | nil => exact .refl _
  | skip h c ih =>
    rw [List.map_append]
    exact ih.trans (List.sublist_append_left _ _)
  | place h known after fits ih =>
    rw [List.map_append, List.map_append]
    exact ih.append (by simp [fits.operationId])

/-- A placement is the one of a candidate; what is placed later comes from later ones. -/
theorem Replay.split (h : Replay r centers ledger cs ps) {before after : List (Placement Q)}
    {p : Placement Q} (hps : ps = before ++ p :: after) :
    ∃ pre c post, cs = pre ++ c :: post ∧
      (∀ q ∈ p :: after, ∃ d ∈ c :: post, d.operation.operationId = q.operationId) ∧
      ∃ wc earliest, centers c.operation.workCenterId = some wc ∧
        earliestAfter r before c.predecessor = some earliest ∧
        FirstFits r wc (ledger.bookAll before) c.operation earliest p := by
  induction h generalizing after with
  | nil => simp at hps
  | skip h d ih =>
    obtain ⟨pre, c, post, rfl, hlater, hfits⟩ := ih hps
    refine ⟨pre, c, post ++ [d], by simp, ?_, hfits⟩
    intro q hq
    obtain ⟨e, he, hid⟩ := hlater q hq
    exact ⟨e, by simpa using List.mem_append_left [d] he, hid⟩
  | @place cs ps h d wc earliest q known hafter fits ih =>
    rcases after.eq_nil_or_concat' with rfl | ⟨after, last, rfl⟩
    · obtain ⟨rfl, hq⟩ := List.append_inj' hps rfl
      obtain rfl : q = p := by simpa using hq
      refine ⟨cs, d, [], rfl, ?_, wc, earliest, known, hafter, fits⟩
      intro x hx
      obtain rfl : x = q := by simpa using hx
      exact ⟨d, List.mem_cons_self, fits.operationId.symm⟩
    · rw [← List.cons_append, ← List.append_assoc] at hps
      obtain ⟨rfl, hq⟩ := List.append_inj' hps rfl
      obtain rfl : q = last := by simpa using hq
      obtain ⟨pre, c, post, rfl, hlater, hfits⟩ := ih rfl
      refine ⟨pre, c, post ++ [d], by simp, ?_, hfits⟩
      intro x hx
      rw [← List.cons_append] at hx
      rcases List.mem_append.mp hx with hx | hx
      · obtain ⟨e, he, hid⟩ := hlater x hx
        exact ⟨e, by simpa using List.mem_append_left [d] he, hid⟩
      · obtain rfl : x = q := by simpa using hx
        exact ⟨d, by simp, fits.operationId.symm⟩

/-- A placement is the first fit of a candidate. -/
theorem Replay.exists_fits (h : Replay r centers ledger cs ps) {p : Placement Q} (hp : p ∈ ps) :
    ∃ c ∈ cs, ∃ wc l earliest, centers c.operation.workCenterId = some wc ∧
      FirstFits r wc l c.operation earliest p := by
  obtain ⟨before, after, hsplit⟩ := List.append_of_mem hp
  obtain ⟨pre, c, post, rfl, -, wc, earliest, known, -, fits⟩ := h.split hsplit
  exact ⟨c, by simp, wc, ledger.bookAll before, earliest, known, fits⟩

/-- How the state of a run can be read off its placements. -/
structure Tracks (r : ScheduleRequest Q) (centers : WorkCenters Q) (ledger : Ledger Q)
    (cs : List (Candidate Q)) (s : State Q) : Prop where
  replay : Replay r centers ledger cs s.scheduled
  ledger_eq : s.ledger = ledger.bookAll s.scheduled
  ends_eq : s.ends = ends s.scheduled

theorem Tracks.earliest?_eq {s : State Q} (h : Tracks r centers ledger cs s)
    (hn : (cs.map (·.operation.operationId)).Nodup) (c : Candidate Q) :
    earliest? r s c = earliestAfter r s.scheduled c.predecessor := by
  unfold earliest? earliestAfter
  cases c.predecessor with
  | none => rfl
  | some before =>
    have hlookup := lookup_ends (hn.sublist h.replay.ids_sublist) before.operationId
    rw [← h.ends_eq] at hlookup
    simp only [predecessorEnd, endOf, hlookup]
    cases s.scheduled.find? (·.operationId == before.operationId) <;> rfl

theorem Tracks.taken {s t : State Q} {c : Candidate Q} (h : Tracks r centers ledger cs s)
    (hn : (cs.map (·.operation.operationId)).Nodup) (ht : Taken r centers s c t) :
    Tracks r centers ledger (cs ++ [c]) t := by
  cases ht with
  | waits => exact ⟨h.replay.skip c, h.ledger_eq, h.ends_eq⟩
  | unknown => exact ⟨h.replay.skip c, h.ledger_eq, h.ends_eq⟩
  | full => exact ⟨h.replay.skip c, h.ledger_eq, h.ends_eq⟩
  | @placed wc earliest p known after fits =>
    rw [h.earliest?_eq hn] at after
    rw [h.ledger_eq] at fits
    refine ⟨h.replay.place known after fits, ?_, ?_⟩
    · simp only [State.place]
      rw [Ledger.bookAll_append, h.ledger_eq]
    · simp [State.place, ends, h.ends_eq]

theorem tracks_foldl [Quantity.Ordered Q] (hn : (cs.map (·.operation.operationId)).Nodup) :
    Tracks r centers ledger cs (cs.foldl (take r centers) ⟨ledger, [], [], []⟩) := by
  induction cs using List.reverseRecOn with
  | nil => exact ⟨.nil, rfl, rfl⟩
  | append_singleton cs c ih =>
    rw [List.map_append] at hn
    rw [List.foldl_append]
    exact (ih hn.of_append_left).taken hn.of_append_left (taken_take r centers _ c)

omit [Quantity Q] in
/-- At the turn of an operation the end of the one before it is settled: what is placed
    from then on has no say in it. -/
theorem endOf_append_later {worksets : List (Workset Q)} {w : Workset Q} {c : Candidate Q}
    {b : Operation Q} {pre post : List (Candidate Q)} {before later : List (Placement Q)}
    (distinct : ((worksets.flatMap (·.operations)).map (·.operationId)).Nodup)
    (hw : w ∈ worksets)
    (ties : b.sequence = c.operation.sequence → b.orderId = c.operation.orderId)
    (hc : c ∈ Candidate.ofWorkset r w) (hb : c.predecessor = some b)
    (hselect : Candidate.select r worksets = pre ++ c :: post)
    (hlater : ∀ q ∈ later, ∃ d ∈ c :: post, d.operation.operationId = q.operationId) :
    endOf (before ++ later) b = endOf before b := by
  have hnone : later.find? (·.operationId == b.operationId) = none := by
    rw [List.find?_eq_none]
    intro q hq hqb
    obtain ⟨d, hd, hdq⟩ := hlater q hq
    have hid : d.operation.operationId = b.operationId := hdq.trans (by simpa using hqb)
    have hmem : d ∈ Candidate.select r worksets := by
      rw [hselect]
      exact List.mem_append_right _ hd
    obtain ⟨e, he, heb⟩ :=
      Candidate.before_of_predecessor distinct hw ties hselect hc hb hmem hid
    have hn := Candidate.nodup_select (r := r) distinct
    rw [hselect, List.map_append, List.nodup_append] at hn
    exact hn.2.2 _ (List.mem_map_of_mem he) _ (List.mem_map_of_mem hd) (heb.trans hid.symm)
  unfold endOf
  rw [List.find?_append, hnone, Option.or_none]

omit [Quantity Q] in
/-- When the operations of an order name it, an end that a placement gives to the
    operation before is there at the turn of an operation. -/
theorem endOf_eq_of_follows {worksets : List (Workset Q)} {w : Workset Q} {c : Candidate Q}
    {b : Operation Q} {pre post : List (Candidate Q)} {before after : List (Placement Q)}
    {p : Placement Q}
    (distinct : ((worksets.flatMap (·.operations)).map (·.operationId)).Nodup)
    (hw : w ∈ worksets) (hkeyed : ∀ op ∈ w.operations, op.orderId = w.order.orderId)
    (hc : c ∈ Candidate.ofWorkset r w) (hb : c.predecessor = some b)
    (hselect : Candidate.select r worksets = pre ++ c :: post)
    (hlater : ∀ q ∈ p :: after, ∃ d ∈ c :: post, d.operation.operationId = q.operationId) :
    endOf before b = endOf (before ++ p :: after) b := by
  have hpair := (Candidate.mem_ofWorkset hc).2.2.2.2
  rw [hb] at hpair
  have hfollows := Candidate.follows_of_mem_withPredecessors hpair
  symm
  apply endOf_append_later distinct hw _ hc hb hselect hlater
  intro _
  rw [hkeyed _ hfollows.mem_before, hkeyed _ hfollows.mem]

end FirstFit

open FirstFit

/-- A run, told by its placements alone: booked in their order they give the ledger that
    it leaves behind, and each is the first fit of its operation on the ledger just before
    its booking. -/
structure IsReplay (r : ScheduleRequest Q) (worksets : List (Workset Q))
    (centers : WorkCenters Q) (ledger : Ledger Q) (run : ScheduleResult Q × Ledger Q) :
    Prop where
  ledger_eq : run.2 = ledger.bookAll run.1.scheduled
  fits : ∀ before p after, run.1.scheduled = before ++ p :: after →
    ∃ w ∈ worksets, ∃ op previous, w.Follows op previous ∧
      p.workCenterId = op.workCenterId ∧
      (∃ wc earliest, centers p.workCenterId = some wc ∧
        earliestAfter r before previous = some earliest ∧
        FirstFits r wc (ledger.bookAll before) op earliest p) ∧
      -- what the run places later has no say in the end of the operation before
      ((∀ o ∈ w.operations, o.orderId = w.order.orderId) →
        ∀ b, previous = some b → endOf before b = endOf run.1.scheduled b)

/-- **A scheduling run is a first-fit replay.** -/
theorem schedule_isReplay [Quantity.Ordered Q] (r : ScheduleRequest Q)
    (worksets : List (Workset Q)) (centers : WorkCenters Q) (ledger : Ledger Q)
    (distinct : ((worksets.flatMap (·.operations)).map (·.operationId)).Nodup)
    (keyed : ∀ id wc, centers id = some wc → wc.workCenterId = id) :
    IsReplay r worksets centers ledger (schedule r worksets centers ledger) := by
  have hrun : Tracks r centers ledger (Candidate.select r worksets)
      (FirstFit.run r worksets centers ledger) :=
    tracks_foldl (Candidate.nodup_select distinct)
  constructor
  · exact hrun.ledger_eq
  · intro before p after hsplit
    obtain ⟨pre, c, post, hselect, hlater, wc, earliest, known, hafter, fits⟩ :=
      hrun.replay.split hsplit
    have hc : c ∈ Candidate.select r worksets := by simp [hselect]
    obtain ⟨w, hw, hcw, hfollows⟩ := Candidate.exists_of_mem_select hc
    have hcenter : p.workCenterId = c.operation.workCenterId :=
      fits.workCenterId.trans (keyed _ _ known)
    refine ⟨w, hw, c.operation, c.predecessor, hfollows, hcenter,
      ⟨wc, earliest, ?_, hafter, fits⟩, ?_⟩
    · rwa [hcenter]
    · intro hkeyed b hb
      rw [hsplit]
      exact endOf_eq_of_follows distinct hw hkeyed hcw hb hselect hlater

/-! ### A run over a weekend -/

omit [Quantity Q] in
theorem keyed_ofList (centers : List (WorkCenter Q)) (id : String) (wc : WorkCenter Q)
    (h : WorkCenters.ofList centers id = some wc) : wc.workCenterId = id := by
  simpa using List.find?_some h

/-- An order for a shaft: two operations of ten hours each. -/
def shaftWorkset : Workset Float where
  order := ⟨"S1", "MO-2", "SHAFT", 1, .released, 1, none, none, none⟩
  operations := [10, 20].map fun n =>
    Draft.toOperation ⟨n, none, none, "LATHE", "Turn", none, false, 2, 8⟩ "S1"
      ("S1/" ++ toString n)

/-- A lathe that runs eight hours a day. -/
def lathe : WorkCenter Float := ⟨"LATHE", "L1", "Lathe", 8, 1, 100, true⟩

/-- Saturday, 4 March of year 0. -/
def saturday : Date := ⟨3, by decide, by decide⟩

/-- A request for the two weeks from that day on. -/
def saturdayRequest : ScheduleRequest Float := ⟨saturday, 14, false, 0.5, none, none⟩

/-- An order for a bolt: one operation of so many hours. -/
def boltWorkset (orderId : String) (priority : Int) (hours : Float) : Workset Float where
  order := ⟨orderId, orderId, "BOLT", 1, .released, priority, none, none, none⟩
  operations := [Draft.toOperation ⟨10, none, none, "LATHE", "Turn", none, false, 0, hours⟩
    orderId (orderId ++ "/10")]

/-- A shaft and two bolts, which have their turns after it. -/
def latheOrders : List (Workset Float) :=
  [shaftWorkset, boltWorkset "B1" 2 6, boltWorkset "B2" 3 4]

def latheRun : ScheduleResult Float × Ledger Float :=
  schedule saturdayRequest latheOrders (.ofList [lathe])
    (.empty saturday saturdayRequest.windowEnd)

/-- The candidates of an order for one part. -/
def orderCandidates (w : Workset Float) : List (Candidate Float) :=
  (Candidate.withPredecessors none w.operations).map fun p =>
    ⟨p.1, w.order.priority, none, w.order.partId, p.2⟩

theorem select_lathe :
    Candidate.select saturdayRequest latheOrders = latheOrders.flatMap orderCandidates := by
  apply Candidate.select_of_sorted
  · refine List.flatMap_congr fun w hw => ?_
    simp only [latheOrders, List.mem_cons, List.not_mem_nil, or_false] at hw
    rcases hw with rfl | rfl | rfl <;> exact Candidate.ofWorkset_of_sorted (by decide)
  · decide

/-- The shaft books Monday and Wednesday, so the first bolt is moved to Tuesday, and the
    second one, for which Tuesday has too few hours left, to Thursday. -/
theorem schedule_isReplay_shaft :
    (((latheOrders.flatMap (·.operations)).map (·.operationId)).Nodup ∧
      ∀ id wc, WorkCenters.ofList [lathe] id = some wc → wc.workCenterId = id) ∧
    latheRun.1.scheduled.map (fun p =>
      (p.operationId, p.start.day, p.stop.day, p.weekendDaysSkipped)) =
        [("S1/10", 5, 6, 2), ("S1/20", 7, 8, 0), ("B1/10", 6, 6, 2), ("B2/10", 8, 8, 2)] ∧
    IsReplay saturdayRequest latheOrders (.ofList [lathe])
      (.empty saturday saturdayRequest.windowEnd) latheRun := by
  have distinct : ((latheOrders.flatMap (·.operations)).map (·.operationId)).Nodup := by decide
  have keyed := keyed_ofList [lathe]
  refine ⟨⟨distinct, keyed⟩, ?_, schedule_isReplay _ _ _ _ distinct keyed⟩
  rw [latheRun, FirstFit.schedule_of_select select_lathe]
  decide +kernel

end Workshop
