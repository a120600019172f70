/-
  Workshop/Proofs/Schedule/EarlierWork.lean
  =========================================
  **Waiting for earlier work.**  A run looks only at the operation directly before the one
  that it places.  When that one is not complete it has an end, and the placement starts
  after it (`FirstFit.ends_before_of_follows`).

  Work further ahead is waited for through the operations in between, one after the other
  (`FirstFit.ends_before_of_between`).  The chain holds as long as each of them keeps up: it
  is not complete, and it was placed by the run itself or does not end before the one
  before it (`FirstFit.KeepsUp`).  An operation that is complete breaks the chain, because
  nothing waits for it, and so do stored dates that overtook one another
  (`schedule_overtakes`).
-/
import Workshop.Proofs.Schedule.Replay

namespace Workshop

variable {Q : Type}

/-! ### Dates -/

namespace Date

theorem le_later_left (a b : Date) : a ≤ a.later b := by
  unfold later
  split
  · assumption
  · exact Int.le_refl _

end Date

theorem FirstFit.le_endDate [Quantity Q] (start : Date) (hours capacity : Q) :
    start ≤ endDate start hours capacity := by
  unfold endDate
  cases h : start.nthBusinessDay (daysNeeded hours capacity) with
  | none => exact Int.le_refl _
  | some d => exact Date.le_nthBusinessDay h

/-! ### The sequence of an order -/

namespace Workset

variable {w : Workset Q}

theorem eq_of_mem_operations {worksets : List (Workset Q)} {v : Workset Q} {op : Operation Q}
    (distinct : ((worksets.flatMap (·.operations)).map (·.operationId)).Nodup)
    (hv : v ∈ worksets) (hw : w ∈ worksets) (hop : op ∈ v.operations)
    (hop' : op ∈ w.operations) : v = w := by
  by_contra hne
  have hdisjoint := (List.nodup_flatMap.mp distinct.of_map).2
  have hsymm : Std.Symm (Function.onFun List.Disjoint fun w : Workset Q => w.operations) :=
    ⟨fun _ _ h => List.Disjoint.symm h⟩
  exact hdisjoint.forall hv hw hne hop hop'

theorem Follows.unique (nodup : w.inSequence.Nodup) {op b : Operation Q}
    {previous : Option (Operation Q)}
    (h : (op, previous) ∈ Candidate.withPredecessors none w.inSequence)
    (hb : w.Follows op (some b)) : previous = some b := by
  obtain ⟨earlier, later, hsequence⟩ := hb
  have hpair : (op, some b) ∈ Candidate.withPredecessors none w.inSequence := by
    rw [hsequence, Candidate.withPredecessors_append]
    exact List.mem_append_right _ List.mem_cons_self
  rw [← Candidate.map_fst_withPredecessors none w.inSequence] at nodup
  exact congrArg Prod.snd (List.inj_on_of_nodup_map nodup h hpair rfl)

theorem pairwise_inSequence (sequences : (w.operations.map (·.sequence)).Nodup) :
    w.inSequence.Pairwise fun a b => a.sequence < b.sequence := by
  have hdistinct : w.inSequence.Pairwise fun a b => a.sequence ≠ b.sequence := by
    apply List.pairwise_map.mp
    exact ((List.mergeSort_perm w.operations _).map _).nodup_iff.mpr sequences
  refine w.sorted_inSequence.imp₂ ?_ hdistinct
  intro a b hle hne
  omega

theorem nodup_inSequence (sequences : (w.operations.map (·.sequence)).Nodup) :
    w.inSequence.Nodup := by
  refine (pairwise_inSequence sequences).imp ?_
  intro a b hlt heq
  rw [heq] at hlt
  omega

theorem Follows.sequence_lt (sequences : (w.operations.map (·.sequence)).Nodup)
    {op b : Operation Q} (h : w.Follows op (some b)) : b.sequence < op.sequence := by
  obtain ⟨earlier, later, hsequence⟩ := h
  have hsorted := pairwise_inSequence sequences
  rw [hsequence, List.pairwise_append, List.pairwise_cons] at hsorted
  exact hsorted.2.1.1 op List.mem_cons_self

/-- Two operations of an order with those between them, by sequence number. -/
theorem exists_between (sequences : (w.operations.map (·.sequence)).Nodup) {a b : Operation Q}
    (ha : a ∈ w.operations) (hb : b ∈ w.operations) (hab : a.sequence < b.sequence) :
    ∃ pre mids later, w.inSequence = pre ++ a :: (mids ++ b :: later) ∧
      ∀ y ∈ mids, y ∈ w.operations ∧ a.sequence < y.sequence ∧ y.sequence < b.sequence := by
  have hsorted := pairwise_inSequence sequences
  obtain ⟨pre, rest, hpre⟩ := List.append_of_mem (mem_inSequence.mpr ha)
  have hb' := mem_inSequence.mpr hb
  rw [hpre, List.pairwise_append, List.pairwise_cons] at hsorted
  obtain ⟨-, ⟨hafter, hrest⟩, hbefore⟩ := hsorted
  have hmem : b ∈ rest := by
    rw [hpre] at hb'
    rcases List.mem_append.mp hb' with h | h
    · have := hbefore b h a List.mem_cons_self
      omega
    · rcases List.mem_cons.mp h with rfl | h
      · omega
      · exact h
  obtain ⟨mids, later, rfl⟩ := List.append_of_mem hmem
  refine ⟨pre, mids, later, hpre, ?_⟩
  intro y hy
  refine ⟨?_, hafter y (List.mem_append_left _ hy), ?_⟩
  · apply mem_inSequence.mp
    rw [hpre]
    simp [hy]
  · exact (List.pairwise_append.mp hrest).2.2 y hy b List.mem_cons_self

end Workset

/-! ### One operation after the other -/

namespace FirstFit

/-- The end that an operation has in the answer of a run lies before a date. -/
def EndsBefore (placed : List (Placement Q)) (op : Operation Q) (d : Date) : Prop :=
  ∃ e, endOf placed op = some e ∧ e < d

instance (placed : List (Placement Q)) (op : Operation Q) (d : Date) :
    Decidable (EndsBefore placed op d) :=
  decidable_of_iff ((endOf placed op).any (fun e => decide (e < d)) = true) <| by
    cases h : endOf placed op <;> simp [EndsBefore, h]

/-- The operation directly before another one is complete, or it ends before a date. -/
def WaitsUntil (placed : List (Placement Q)) (w : Workset Q) (op : Operation Q) (d : Date) :
    Prop :=
  ∀ b, w.Follows op (some b) → b.isComplete = false → EndsBefore placed b d

/-- An operation that passes on to those behind it what it waits for itself: it is not
    complete, and it was placed in the run or does not end before the one before it. -/
structure KeepsUp (placed : List (Placement Q)) (w : Workset Q) (op : Operation Q) : Prop where
  incomplete : op.isComplete = false
  inStep : (∃ p ∈ placed, p.operationId = op.operationId) ∨
    ∀ b, w.Follows op (some b) →
      ∃ d e, endOf placed b = some d ∧ endOf placed op = some e ∧ d ≤ e

theorem endOf_of_mem {placed : List (Placement Q)} (hn : (placed.map (·.operationId)).Nodup)
    {p : Placement Q} {op : Operation Q} (hp : p ∈ placed) (hid : p.operationId = op.operationId) :
    endOf placed op = some p.stop := by
  cases hfind : placed.find? (·.operationId == op.operationId) with
  | none =>
    rw [List.find?_eq_none] at hfind
    exact absurd (beq_iff_eq.mpr hid) (hfind p hp)
  | some q =>
    have hq : q.operationId = op.operationId := by simpa using List.find?_some hfind
    obtain rfl := List.inj_on_of_nodup_map hn (List.mem_of_find?_eq_some hfind) hp
      (hq.trans hid.symm)
    unfold endOf
    rw [hfind]

/-- What the last of a row of operations waits for, all of them wait for, when those in
    between pass it on. -/
theorem ends_before_of_between {placed : List (Placement Q)} {w : Workset Q} {d : Date}
    {a b : Operation Q} {pre mids later : List (Operation Q)}
    (hsequence : w.inSequence = pre ++ a :: (mids ++ b :: later)) (ha : a.isComplete = false)
    (hb : WaitsUntil placed w b d)
    (hmids : ∀ y ∈ mids, y.isComplete = false ∧
      (EndsBefore placed y d → WaitsUntil placed w y d)) : EndsBefore placed a d := by
  -- from the last operation towards the first, each in the place of `b`
  induction mids using List.reverseRecOn generalizing b later with
  | nil => exact hb a ⟨pre, later, hsequence⟩ ha
  | append_singleton mids y ih =>
    have hsequence : w.inSequence = pre ++ a :: (mids ++ y :: (b :: later)) := by
      simpa using hsequence
    obtain ⟨hy, hpass⟩ := hmids y (by simp)
    have hend : EndsBefore placed y d := by
      apply hb y _ hy
      exact ⟨pre ++ a :: mids, later, by simpa using hsequence⟩
    apply ih hsequence (hpass hend)
    intro x hx
    exact hmids x (List.mem_append_left _ hx)

variable [Quantity Q] [Quantity.Ordered Q] {r : ScheduleRequest Q} {worksets : List (Workset Q)}
  {centers : WorkCenters Q} {ledger : Ledger Q}

/-- The operation directly before a placed one is complete, or it ends before the start. -/
theorem ends_before_of_follows
    (distinct : ((worksets.flatMap (·.operations)).map (·.operationId)).Nodup)
    {w : Workset Q} (hw : w ∈ worksets) (sequences : (w.operations.map (·.sequence)).Nodup)
    {p : Placement Q} (hp : p ∈ (run r worksets centers ledger).scheduled) {op : Operation Q}
    (hop : op ∈ w.operations) (hid : op.operationId = p.operationId) :
    WaitsUntil (run r worksets centers ledger).scheduled w op p.start := by
  have hrun : Tracks r centers ledger (Candidate.select r worksets)
      (run r worksets centers ledger) := tracks_foldl (Candidate.nodup_select distinct)
  obtain ⟨before, after, hsplit⟩ := List.append_of_mem hp
  obtain ⟨pre, c, post, hselect, hlater, wc, earliest, -, hafter, fits⟩ := hrun.replay.split hsplit
  obtain ⟨v, hv, hcv, hfollows⟩ := Candidate.exists_of_mem_select
    (show c ∈ Candidate.select r worksets by simp [hselect])
  have hc : c.operation = op := by
    apply List.inj_on_of_nodup_map distinct
    · exact List.mem_flatMap.mpr ⟨v, hv, hfollows.mem⟩
    · exact List.mem_flatMap.mpr ⟨w, hw, hop⟩
    · exact fits.operationId.symm.trans hid.symm
  obtain rfl : v = w := Workset.eq_of_mem_operations distinct hv hw hfollows.mem (hc ▸ hop)
  intro b hb hincomplete
  have hbefore : c.predecessor = some b := by
    apply Workset.Follows.unique (Workset.nodup_inSequence sequences) _ hb
    rw [← hc]
    exact (Candidate.mem_ofWorkset hcv).2.2.2.2
  have hlt := hb.sequence_lt sequences
  rw [hbefore] at hafter
  simp only [earliestAfter, hincomplete, Bool.false_eq_true, if_false] at hafter
  obtain ⟨d, hd, hnext⟩ := Option.bind_eq_some_iff.mp hafter
  refine ⟨d, ?_, ?_⟩
  · rw [hsplit, endOf_append_later distinct hv _ hcv hbefore hselect hlater, hd]
    intro heq
    rw [hc] at heq
    omega
  · have hday := Date.next?_eq_some_iff.mp hnext
    have hle := Date.le_iff.mp fits.start.start_le
    have hlater := Date.le_iff.mp (Date.le_later_left earliest r.today)
    rw [Date.lt_iff]
    omega

/-- A placed operation passes on what it waits for, because it does not end before its
    start. -/
theorem KeepsUp.waitsUntil
    (distinct : ((worksets.flatMap (·.operations)).map (·.operationId)).Nodup)
    {w : Workset Q} (hw : w ∈ worksets) (sequences : (w.operations.map (·.sequence)).Nodup)
    {op : Operation Q} (hop : op ∈ w.operations) {d : Date}
    (h : KeepsUp (run r worksets centers ledger).scheduled w op)
    (hend : EndsBefore (run r worksets centers ledger).scheduled op d) :
    WaitsUntil (run r worksets centers ledger).scheduled w op d := by
  have hcandidates := Candidate.nodup_select (r := r) distinct
  have hrun : Tracks r centers ledger (Candidate.select r worksets)
      (run r worksets centers ledger) := tracks_foldl hcandidates
  obtain ⟨e, he, hed⟩ := hend
  rw [Date.lt_iff] at hed
  intro b hb hincomplete
  rcases h.inStep with ⟨p, hp, hid⟩ | hstored
  · obtain ⟨x, hx, hlt⟩ := ends_before_of_follows distinct hw sequences hp hop hid.symm b hb
      hincomplete
    refine ⟨x, hx, ?_⟩
    rw [endOf_of_mem (hcandidates.sublist hrun.replay.ids_sublist) hp hid] at he
    have hstop := Option.some.inj he
    obtain ⟨before, after, hsplit⟩ := List.append_of_mem hp
    obtain ⟨_, _, _, _, _, wc, _, _, _, fits⟩ := hrun.replay.split hsplit
    have hle := Date.le_iff.mp (le_endDate p.start p.hours wc.capacityHoursPerDay)
    rw [← fits.stop, hstop] at hle
    rw [Date.lt_iff] at hlt ⊢
    omega
  · obtain ⟨x, y, hx, hy, hle⟩ := hstored b hb
    refine ⟨x, hx, ?_⟩
    obtain rfl : y = e := Option.some.inj (hy.symm.trans he)
    rw [Date.le_iff] at hle
    rw [Date.lt_iff]
    omega

end FirstFit

open FirstFit

/-- **A placement waits for earlier work.**  An earlier operation of the same order that is
    not complete ends before the placement starts, if the operations between them keep up. -/
theorem schedule_waitsForEarlierWork [Quantity Q] [Quantity.Ordered Q] (r : ScheduleRequest Q)
    (worksets : List (Workset Q)) (centers : WorkCenters Q) (ledger : Ledger Q)
    (distinct : ((worksets.flatMap (·.operations)).map (·.operationId)).Nodup)
    (sequences : ∀ w ∈ worksets, (w.operations.map (·.sequence)).Nodup) :
    ∀ p ∈ (schedule r worksets centers ledger).1.scheduled,
      ∀ w ∈ worksets, ∀ b ∈ w.operations, b.operationId = p.operationId →
        ∀ a ∈ w.operations, a.sequence < b.sequence → a.isComplete = false →
          (∀ y ∈ w.operations, a.sequence < y.sequence → y.sequence < b.sequence →
            KeepsUp (schedule r worksets centers ledger).1.scheduled w y) →
          EndsBefore (schedule r worksets centers ledger).1.scheduled a p.start := by
  intro p hp w hw b hb hid a ha hab hincomplete hbetween
  obtain ⟨pre, mids, later, hsequence, hmids⟩ :=
    Workset.exists_between (sequences w hw) ha hb hab
  apply ends_before_of_between hsequence hincomplete
  · exact ends_before_of_follows distinct hw (sequences w hw) hp hb hid
  · intro y hy
    obtain ⟨hy, hay, hyb⟩ := hmids y hy
    have hkeeps := hbetween y hy hay hyb
    exact ⟨hkeeps.incomplete, hkeeps.waitsUntil distinct hw (sequences w hw) hy⟩

/-! ### An order that waits, and orders that overtake -/

/-- An operation of four hours on the lathe, with its state and its dates. -/
def turn (orderId : String) (sequence : Int) (status : OperationStatus)
    (dates : Option (Date × Date)) : Operation Float :=
  { Draft.toOperation ⟨sequence, none, none, "LATHE", "Turn", none, false, 0, 4⟩ orderId
      (orderId ++ "/" ++ toString sequence) with
    status := status
    scheduledStart := dates.map (·.1)
    scheduledEnd := dates.map (·.2) }

def turns (orderId : String) (operations : List (Operation Float)) : Workset Float :=
  ⟨⟨orderId, orderId, "SHAFT", 1, .inProgress, 1, none, none, none⟩, operations⟩

/-- The Monday after that Saturday. -/
def monday : Date := saturday.addDaysClamped 2

/-- The Friday of the same week. -/
def friday : Date := saturday.addDaysClamped 6

/-- Two operations behind one that is under way until Monday. -/
def waitingOrder : Workset Float :=
  turns "W" [turn "W" 10 .inProgress (some (monday, monday)), turn "W" 20 .pending none,
    turn "W" 30 .pending none]

/-- A wave of two, of which one is held without dates and the other is complete. -/
def halfDoneOrder : Workset Float :=
  turns "H" [turn "H" 10 .onHold none, turn "H" 20 .complete none, turn "H" 30 .pending none]

/-- A second operation whose stored dates overtook those of the first. -/
def overtakenOrder : Workset Float :=
  turns "T" [turn "T" 10 .inProgress (some (monday, friday)),
    turn "T" 20 .ready (some (monday, monday)), turn "T" 30 .pending none]

def turnRun (w : Workset Float) : List (Placement Float) :=
  (schedule saturdayRequest [w] (.ofList [lathe])
    (.empty saturday saturdayRequest.windowEnd)).1.scheduled

/-- The candidates of one such order. -/
def turnCandidates (w : Workset Float) : List (Candidate Float) :=
  ((Candidate.withPredecessors none w.operations).filter fun p =>
    Candidate.isEligible saturdayRequest p.1).map fun p => ⟨p.1, 1, none, "SHAFT", p.2⟩

theorem select_turns {orderId : String} {operations : List (Operation Float)}
    (hsequence : operations.Pairwise fun a b => decide (a.sequence ≤ b.sequence) = true)
    (hturns : (turnCandidates (turns orderId operations)).Pairwise fun a b =>
      (Candidate.compareTurn false a b != .gt) = true) :
    Candidate.select saturdayRequest [turns orderId operations] =
      turnCandidates (turns orderId operations) := by
  apply Candidate.select_of_sorted _ hturns
  rw [List.flatMap_singleton]
  exact Candidate.ofWorkset_of_sorted (w := turns orderId operations) hsequence

theorem select_waitingOrder :
    Candidate.select saturdayRequest [waitingOrder] = turnCandidates waitingOrder :=
  select_turns (by decide) (by decide)

theorem schedule_waitsForEarlierWork_turns :
    ((([waitingOrder].flatMap (·.operations)).map (·.operationId)).Nodup ∧
      (∀ w ∈ [waitingOrder], (w.operations.map (·.sequence)).Nodup) ∧
      KeepsUp (turnRun waitingOrder) waitingOrder (turn "W" 20 .pending none)) ∧
    ∃ p ∈ turnRun waitingOrder, p.operationId = "W/30" ∧
      EndsBefore (turnRun waitingOrder) (turn "W" 10 .inProgress (some (monday, monday)))
        p.start := by
  have distinct : (([waitingOrder].flatMap (·.operations)).map (·.operationId)).Nodup := by decide
  have sequences : ∀ w ∈ [waitingOrder], (w.operations.map (·.sequence)).Nodup := by decide
  have hplaced : (∃ p ∈ turnRun waitingOrder, p.operationId = "W/20") ∧
      ∃ p ∈ turnRun waitingOrder, p.operationId = "W/30" := by
    rw [turnRun, schedule_of_select select_waitingOrder]
    decide +kernel
  have keepsUp : KeepsUp (turnRun waitingOrder) waitingOrder (turn "W" 20 .pending none) :=
    ⟨rfl, Or.inl hplaced.1⟩
  obtain ⟨p, hp, hid⟩ := hplaced.2
  refine ⟨⟨distinct, sequences, keepsUp⟩, p, hp, hid, ?_⟩
  apply schedule_waitsForEarlierWork saturdayRequest [waitingOrder] (.ofList [lathe])
    (.empty saturday saturdayRequest.windowEnd) distinct sequences p hp waitingOrder
    List.mem_cons_self (turn "W" 30 .pending none) (by simp [waitingOrder, turns]) hid.symm
  · simp [waitingOrder, turns]
  · decide
  · rfl
  · intro y hy hlow hhigh
    simp only [waitingOrder, turns, List.mem_cons, List.not_mem_nil, or_false] at hy
    rcases hy with rfl | rfl | rfl
    · cases hlow
    · exact keepsUp
    · cases hhigh

/-- No placement of a run starts before earlier work of its order has ended. -/
def NeverOvertakes (worksets : List (Workset Q)) (placed : List (Placement Q)) : Prop :=
  ∀ p ∈ placed, ∀ w ∈ worksets, ∀ b ∈ w.operations, b.operationId = p.operationId →
    ∀ a ∈ w.operations, a.sequence < b.sequence → a.isComplete = false →
      EndsBefore placed a p.start

instance (worksets : List (Workset Q)) (placed : List (Placement Q)) :
    Decidable (NeverOvertakes worksets placed) :=
  inferInstanceAs (Decidable (∀ p ∈ placed, ∀ w ∈ worksets, ∀ b ∈ w.operations,
    b.operationId = p.operationId → ∀ a ∈ w.operations, a.sequence < b.sequence →
      a.isComplete = false → EndsBefore placed a p.start))

/-- Nothing waits for the operation that is held, nor for the one that was overtaken. -/
theorem schedule_overtakes :
    ((([halfDoneOrder].flatMap (·.operations)).map (·.operationId)).Nodup ∧
      (([overtakenOrder].flatMap (·.operations)).map (·.operationId)).Nodup ∧
      ∀ w ∈ [halfDoneOrder, overtakenOrder], (w.operations.map (·.sequence)).Nodup) ∧
    ¬ NeverOvertakes [halfDoneOrder] (turnRun halfDoneOrder) ∧
    ¬ NeverOvertakes [overtakenOrder] (turnRun overtakenOrder) := by
  refine ⟨⟨by decide, by decide, by decide⟩, ?_, ?_⟩
  · rw [turnRun, halfDoneOrder, schedule_of_select (select_turns (by decide) (by decide))]
    decide +kernel
  · rw [turnRun, overtakenOrder, schedule_of_select (select_turns (by decide) (by decide))]
    decide +kernel

end Workshop
