/-
  Workshop/Proofs/Schedule/Horizon.lean
  =====================================
  **A longer horizon moves nothing.**  The placements of a run are those placements of a
  run with a longer horizon that start inside the shorter window (`schedule_eq_startingBy`).

  Both runs take the same candidates in the same turns.  What carries the induction is that
  the placements of the shorter run can be read off those of the longer one at every turn:
  the ledgers then agree on the days of the shorter window
  (`Ledger.Shortened.bookAll_startingBy`), and what only the longer run places ends behind
  it, so that nothing that waits for it starts inside.

  For that an operation must not have an end of its own that lies inside although it has no
  start.  The shorter run waits for such an end, the longer one for the placement that it
  gives to the operation (`schedule_moves`).
-/
import Workshop.Proofs.Schedule.Verdict

namespace Workshop

theorem Date.addDaysClamped_mono (d : Date) {m n : Nat} (h : m ≤ n) :
    d.addDaysClamped m ≤ d.addDaysClamped n := by
  have hday : ∀ k : Nat, (d.addDaysClamped k).day = min (d.day + k) lastDay := by
    intro k
    unfold addDaysClamped addDays?
    split
    · simp only [Option.getD_some, lastDay]
      omega
    · simp only [Option.getD_none, last, lastDay]
      omega
  rw [le_iff, hday, hday]
  omega

/-- Among members with distinct keys, a search in some of them finds what a search in all
    finds, if that is one of them. -/
theorem find?_filter_of_nodup {α : Type} {key : α → String} {xs : List α}
    (hn : (xs.map key).Nodup) (keep : α → Bool) (k : String) :
    (xs.filter keep).find? (key · == k) = (xs.find? (key · == k)).filter keep := by
  induction xs with
  | nil => rfl
  | cons x xs ih =>
    rw [List.map_cons, List.nodup_cons] at hn
    by_cases hx : key x = k
    · have hrest : (xs.filter keep).find? (key · == k) = none := by
        rw [List.find?_eq_none]
        intro y hy hyk
        apply hn.1
        rw [hx, ← beq_iff_eq.mp hyk]
        exact List.mem_map_of_mem (List.mem_filter.mp hy).1
      have hfound : (x :: xs).find? (key · == k) = some x :=
        List.find?_cons_of_pos (by simpa using hx)
      rw [hfound, Option.filter_some, List.filter_cons]
      cases keep x with
      | true => simp [hx]
      | false => simpa using hrest
    · have hne : (key x == k) = false := beq_false_of_ne hx
      rw [List.find?_cons_of_neg (by simp [hne]), ← ih hn.2, List.filter_cons]
      cases keep x with
      | true => simp [hne]
      | false => rfl

variable {Q : Type}

/-! ### What starts in time -/

/-- The placements that start by a date. -/
def Placement.startingBy (last : Date) (ps : List (Placement Q)) : List (Placement Q) :=
  ps.filter fun p => decide (p.start ≤ last)

namespace FirstFit

open Placement (startingBy)

/-- An end that a placement gives to an operation is there in the shorter run too, or it is
    given by a placement that starts too late for it. -/
theorem endOf_startingBy {ps : List (Placement Q)} (hn : (ps.map (·.operationId)).Nodup)
    (last : Date) (op : Operation Q) :
    endOf (startingBy last ps) op = endOf ps op ∨
      ∃ p ∈ ps, p.operationId = op.operationId ∧ last < p.start ∧ endOf ps op = some p.stop ∧
        endOf (startingBy last ps) op = op.scheduledEnd := by
  have hfind := find?_filter_of_nodup hn (fun p => decide (p.start ≤ last)) op.operationId
  unfold endOf startingBy
  rw [hfind]
  cases hfound : ps.find? (·.operationId == op.operationId) with
  | none => exact Or.inl rfl
  | some p =>
    rw [Option.filter_some]
    by_cases hp : p.start ≤ last
    · rw [if_pos (decide_eq_true hp)]
      exact Or.inl rfl
    · rw [if_neg (by simpa using hp)]
      refine Or.inr ⟨p, List.mem_of_find?_eq_some hfound, ?_, Int.not_le.mp hp, rfl, rfl⟩
      simpa using List.find?_some hfound

end FirstFit

variable [Quantity Q]

/-! ### Ledgers over windows of different length -/

namespace Ledger

/-- One ledger covers the first days of the window of another one, with the same hours. -/
structure Shortened (l l' : Ledger Q) : Prop where
  windowStart : l.windowStart = l'.windowStart
  windowEnd : l.windowEnd ≤ l'.windowEnd
  agree : ∀ id, FirstFit.AgreeAt id l.windowStart l.windowEnd l l'

variable {l l' : Ledger Q}

theorem Shortened.accepts_eq (h : l.Shortened l') {d : Date} (hd : d ≤ l.windowEnd) (hours : Q) :
    l.accepts d hours = l'.accepts d hours := by
  have hd' : d ≤ l'.windowEnd := Int.le_trans hd h.windowEnd
  simp only [accepts, contains, h.windowStart, hd, hd']

theorem Shortened.book (h : l.Shortened l') (id : String) {d : Date} (hd : d ≤ l.windowEnd)
    (hours : Q) : (l.book id d hours).Shortened (l'.book id d hours) := by
  constructor
  · rw [book_windowStart, book_windowStart, h.windowStart]
  · rw [book_windowEnd, book_windowEnd]
    exact h.windowEnd
  · intro id' e hstart hstop
    rw [book_windowStart] at hstart
    rw [book_windowEnd] at hstop
    rw [committed_book, committed_book, h.accepts_eq hd, h.agree id' e hstart hstop]
    split
    · next hbooked =>
      obtain ⟨-, rfl, rfl⟩ := hbooked
      rw [h.agree id d hstart hstop]
    · rfl

theorem Shortened.book_later (h : l.Shortened l') (id : String) {d : Date}
    (hd : l.windowEnd < d) (hours : Q) : l.Shortened (l'.book id d hours) := by
  constructor
  · rw [book_windowStart, h.windowStart]
  · rw [book_windowEnd]
    exact h.windowEnd
  · intro id' e hstart hstop
    rw [committed_book, h.agree id' e hstart hstop, if_neg]
    rintro ⟨-, -, rfl⟩
    exact Int.not_le.mpr hd hstop

/-- Bookings behind the window of the shorter ledger leave it behind in nothing. -/
theorem Shortened.bookAll_startingBy (h : l.Shortened l') (ps : List (Placement Q)) :
    (l.bookAll (Placement.startingBy l.windowEnd ps)).Shortened (l'.bookAll ps) := by
  induction ps generalizing l l' with
  | nil => exact h
  | cons p ps ih =>
    by_cases hp : p.start ≤ l.windowEnd
    · have hstarting : Placement.startingBy l.windowEnd (p :: ps) =
          p :: Placement.startingBy l.windowEnd ps := List.filter_cons_of_pos (by simpa using hp)
      have hrest := ih (h.book p.workCenterId hp p.hours)
      rw [book_windowEnd] at hrest
      rw [hstarting]
      exact hrest
    · have hstarting : Placement.startingBy l.windowEnd (p :: ps) =
          Placement.startingBy l.windowEnd ps := List.filter_cons_of_neg (by simpa using hp)
      rw [hstarting]
      exact ih (h.book_later p.workCenterId (Int.not_le.mp hp) p.hours)

end Ledger

namespace FirstFit

open Placement (startingBy)

/-! ### Runs of different length -/

/-- One request is another one with a window that is not longer. -/
structure Shorter (r r' : ScheduleRequest Q) : Prop where
  today : r.today = r'.today
  minOperationHours : r.minOperationHours = r'.minOperationHours
  windowEnd : r.windowEnd ≤ r'.windowEnd

/-- No end inside the window is stored for an operation that is placed behind it. -/
def Unended (r : ScheduleRequest Q) (ps : List (Placement Q)) (b : Operation Q) : Prop :=
  ∀ p ∈ ps, p.operationId = b.operationId → r.windowEnd < p.start →
    ∀ d, b.scheduledEnd = some d → r.windowEnd ≤ d

variable {r r' : ScheduleRequest Q} {centers : WorkCenters Q} {ledger ledger' : Ledger Q}
  {cs : List (Candidate Q)} {ps : List (Placement Q)}

theorem Replay.start_le_stop (h : Replay r centers ledger cs ps) {p : Placement Q}
    (hp : p ∈ ps) : p.start ≤ p.stop := by
  obtain ⟨c, _, wc, _, _, _, fits⟩ := h.exists_fits hp
  rw [fits.stop]
  exact le_endDate p.start p.hours wc.capacityHoursPerDay

omit [Quantity Q] in
theorem lt_of_next? {stop d e : Date} (hd : stop ≤ d) (he : d.next? = some e) : stop < e := by
  have hday := Date.next?_eq_some_iff.mp he
  rw [Date.le_iff] at hd
  rw [Date.lt_iff]
  omega

omit [Quantity Q] in
/-- The longer run and the shorter one wait for the same date, or both for dates behind the
    shorter window. -/
theorem earliestAfter_startingBy (shorter : Shorter r r') {before : Option (Operation Q)}
    (hn : (ps.map (·.operationId)).Nodup) (start_le_stop : ∀ p ∈ ps, p.start ≤ p.stop)
    (unended : ∀ b, before = some b → Unended r ps b) :
    earliestAfter r (startingBy r.windowEnd ps) before = earliestAfter r' ps before ∨
      (∀ e, earliestAfter r (startingBy r.windowEnd ps) before = some e → r.windowEnd < e) ∧
        ∀ e, earliestAfter r' ps before = some e → r.windowEnd < e := by
  unfold earliestAfter
  rw [← shorter.today]
  cases before with
  | none => exact Or.inl rfl
  | some b =>
    dsimp only
    by_cases hcomplete : b.isComplete = true
    · rw [if_pos hcomplete, if_pos hcomplete]
      exact Or.inl rfl
    · rw [if_neg hcomplete, if_neg hcomplete]
      rcases endOf_startingBy hn r.windowEnd b with hsame | ⟨p, hp, hid, hlate, hlong, hshort⟩
      · rw [hsame]
        exact Or.inl rfl
      · rw [hlong, hshort]
        refine Or.inr ⟨?_, ?_⟩
        · intro e he
          obtain ⟨d, hd, he⟩ := Option.bind_eq_some_iff.mp he
          exact lt_of_next? (unended b rfl p hp hid hlate d hd) he
        · intro e he
          have hstop : r.windowEnd < p.stop := Int.lt_of_lt_of_le hlate (start_le_stop p hp)
          exact lt_of_next? (Int.le_of_lt hstop) he

theorem filter_toOption_verdict {e? : Option Date} {stop : Date} {c : Candidate Q}
    (late : ∀ e, e? = some e → stop < e) :
    ((verdict r centers ledger e? c).toOption.filter fun p => decide (p.start ≤ stop)) = none := by
  cases hv : verdict r centers ledger e? c with
  | error x => rfl
  | ok p =>
    obtain ⟨e, he, hle, -⟩ := start_of_verdict hv
    have hstart : ¬ p.start ≤ stop := Int.not_le.mpr (Int.lt_of_lt_of_le (late e he) hle)
    simp [Except.toOption, Option.filter_some, hstart]

theorem toOption_verdict_eq_none {e? : Option Date} {c : Candidate Q}
    (late : ∀ e, e? = some e → r.windowEnd < e) :
    (verdict r centers ledger e? c).toOption = none := by
  cases hv : verdict r centers ledger e? c with
  | error x => rfl
  | ok p =>
    obtain ⟨e, he, hle, hstop⟩ := start_of_verdict hv
    exact absurd (Int.lt_of_lt_of_le (late e he) hle) (Int.not_lt.mpr hstop)

/-- A candidate keeps the placements of the shorter run those of the longer one that start
    in time. -/
theorem take_eq_startingBy {s s' : State Q} {c : Candidate Q} (shorter : Shorter r r')
    (hn : (cs.map (·.operation.operationId)).Nodup) (hs : Tracks r centers ledger cs s)
    (hs' : Tracks r' centers ledger' cs s') (hstart : ledger.windowStart = r.today)
    (hstop : ledger.windowEnd = r.windowEnd) (shortened : ledger.Shortened ledger')
    (unended : ∀ b, c.predecessor = some b → Unended r s'.scheduled b)
    (heq : s.scheduled = startingBy r.windowEnd s'.scheduled) :
    (take r centers s c).scheduled = startingBy r.windowEnd (take r' centers s' c).scheduled := by
  have hledgers : s.ledger.Shortened s'.ledger := by
    have := shortened.bookAll_startingBy s'.scheduled
    rwa [hstop, ← heq, ← hs.ledger_eq, ← hs'.ledger_eq] at this
  have agree : ∀ wc, centers c.operation.workCenterId = some wc →
      AgreeAt wc.workCenterId r.today r.windowEnd s.ledger s'.ledger := by
    intro wc _
    obtain ⟨hfirst, hlast⟩ := ledger.bookAll_window s.scheduled
    rw [← hstart, ← hstop, ← hfirst, ← hlast, ← hs.ledger_eq]
    exact hledgers.agree wc.workCenterId
  have hverdict : (verdict r centers s.ledger (earliest? r s c) c).toOption =
      (verdict r' centers s'.ledger (earliest? r' s' c) c).toOption.filter
        fun p => decide (p.start ≤ r.windowEnd) := by
    rw [hs.earliest?_eq hn, hs'.earliest?_eq hn, heq]
    rcases earliestAfter_startingBy shorter (hn.sublist hs'.replay.ids_sublist)
      (fun p => hs'.replay.start_le_stop) unended with hsame | ⟨hlate, hlate'⟩
    · rw [hsame]
      exact toOption_verdict_shorter shorter.today shorter.minOperationHours shorter.windowEnd
        agree _
    · rw [filter_toOption_verdict hlate', toOption_verdict_eq_none hlate]
  rw [take_eq_settle, take_eq_settle, scheduled_settle, scheduled_settle, hverdict,
    Option.toList_filter, heq]
  exact (List.filter_append _ _).symm

variable [Quantity.Ordered Q]

/-- At every turn the shorter run has placed what the longer one has placed in time. -/
theorem foldl_eq_startingBy (shorter : Shorter r r')
    (hn : (cs.map (·.operation.operationId)).Nodup) (hstart : ledger.windowStart = r.today)
    (hstop : ledger.windowEnd = r.windowEnd) (shortened : ledger.Shortened ledger')
    (unended : ∀ c ∈ cs, ∀ b, c.predecessor = some b →
      Unended r (cs.foldl (take r' centers) ⟨ledger', [], [], []⟩).scheduled b) :
    (cs.foldl (take r centers) ⟨ledger, [], [], []⟩).scheduled =
      startingBy r.windowEnd (cs.foldl (take r' centers) ⟨ledger', [], [], []⟩).scheduled := by
  induction cs using List.reverseRecOn with
  | nil => rfl
  | append_singleton cs c ih =>
    rw [List.map_append] at hn
    have hncs := hn.of_append_left
    simp only [List.foldl_append, List.foldl_cons, List.foldl_nil] at unended ⊢
    -- what holds of all that the longer run has placed holds of what it had placed before
    have hbefore : ∀ d ∈ cs ++ [c], ∀ b, d.predecessor = some b →
        Unended r (cs.foldl (take r' centers) ⟨ledger', [], [], []⟩).scheduled b := by
      intro d hd b hb p hp
      apply unended d hd b hb p
      rw [take_eq_settle, scheduled_settle]
      exact List.mem_append_left _ hp
    apply take_eq_startingBy shorter hncs (tracks_foldl hncs) (tracks_foldl hncs) hstart hstop
      shortened (hbefore c (List.mem_append_right _ List.mem_cons_self))
    exact ih hncs fun d hd => hbefore d (List.mem_append_left _ hd)

end FirstFit

open FirstFit

/-- The same request over a window of another length. -/
def ScheduleRequest.over (r : ScheduleRequest Q) (horizonDays : Nat) : ScheduleRequest Q :=
  { r with horizonDays := horizonDays }

/-- The ledger covers the window of the request. -/
def Ledger.Covers (l : Ledger Q) (r : ScheduleRequest Q) : Prop :=
  l.windowStart = r.today ∧ l.windowEnd = r.windowEnd

/-- **A longer horizon moves nothing.**  A run places what the run with the longer horizon
    places by the end of the shorter window, and nothing else. -/
theorem schedule_eq_startingBy [Quantity.Ordered Q] (r : ScheduleRequest Q) (horizonDays : Nat)
    (worksets : List (Workset Q)) (centers : WorkCenters Q) (ledger ledger' : Ledger Q)
    (longer : r.horizonDays ≤ horizonDays)
    (distinct : ((worksets.flatMap (·.operations)).map (·.operationId)).Nodup)
    (covers : ledger.Covers r) (covers' : ledger'.Covers (r.over horizonDays))
    (agree : ∀ id, AgreeAt id r.today r.windowEnd ledger ledger')
    (unended : ∀ w ∈ worksets, ∀ op ∈ w.operations,
      Unended r (schedule (r.over horizonDays) worksets centers ledger').1.scheduled op) :
    (schedule r worksets centers ledger).1.scheduled =
      Placement.startingBy r.windowEnd
        (schedule (r.over horizonDays) worksets centers ledger').1.scheduled := by
  have shorter : Shorter r (r.over horizonDays) :=
    ⟨rfl, rfl, Date.addDaysClamped_mono r.today longer⟩
  have shortened : ledger.Shortened ledger' := by
    refine ⟨covers.1.trans covers'.1.symm, ?_, ?_⟩
    · rw [covers.2, covers'.2]
      exact shorter.windowEnd
    · rw [covers.1, covers.2]
      exact agree
  apply foldl_eq_startingBy shorter (Candidate.nodup_select distinct) covers.1 covers.2 shortened
  intro c hc b hb
  obtain ⟨w, hw, -, hfollows⟩ := Candidate.exists_of_mem_select hc
  rw [hb] at hfollows
  exact unended w hw b hfollows.mem_before

/-! ### Runs until Monday and until Wednesday -/

/-- An operation of two hours. -/
def shortTurn (sequence : Int) : Operation Float :=
  { turn "E" sequence .pending none with runHours := 2 }

/-- A short operation and a longer one behind it. -/
def freshOrder : Workset Float := turns "E" [shortTurn 10, turn "E" 20 .pending none]

/-- A short operation behind a longer one that has an end, on Saturday, but no start. -/
def endedOrder : Workset Float :=
  turns "E" [{ turn "E" 10 .pending none with scheduledEnd := some saturday }, shortTurn 20]

/-- A ledger for a number of days, with six hours committed on Monday. -/
def mondayLedger (horizonDays : Nat) : Ledger Float :=
  (Ledger.empty saturday (saturdayRequest.over horizonDays).windowEnd).book "LATHE" monday 6

/-- What is placed within a number of days. -/
def placedWithin (horizonDays : Nat) (w : Workset Float) : List (Placement Float) :=
  (schedule (saturdayRequest.over horizonDays) [w] (.ofList [lathe])
    (mondayLedger horizonDays)).1.scheduled

/-- The operations of placements, with the days on which they start. -/
def startDays (ps : List (Placement Float)) : List (String × Int) :=
  ps.map fun p => (p.operationId, p.start.day)

theorem agree_mondayLedger (id : String) :
    AgreeAt id saturday (saturdayRequest.over 2).windowEnd (mondayLedger 2) (mondayLedger 4) :=
  fun _ _ _ => rfl

theorem startDays_placedWithin {operations : List (Operation Float)} {n : Nat}
    (hsequence : operations.Pairwise fun a b => decide (a.sequence ≤ b.sequence) = true)
    (hturns : (turnCandidates (turns "E" operations)).Pairwise fun a b =>
      (Candidate.compareTurn false a b != .gt) = true) :
    startDays (placedWithin n (turns "E" operations)) =
      startDays ((turnCandidates (turns "E" operations)).foldl
        (take (saturdayRequest.over n) (.ofList [lathe]))
        ⟨mondayLedger n, [], [], []⟩).scheduled := by
  have hselect : Candidate.select (saturdayRequest.over n) [turns "E" operations] =
      turnCandidates (turns "E" operations) := select_turns hsequence hturns
  rw [placedWithin, schedule_of_select hselect]
  rfl

theorem schedule_eq_startingBy_fresh :
    (2 ≤ 4 ∧ (([freshOrder].flatMap (·.operations)).map (·.operationId)).Nodup) ∧
    startDays (placedWithin 2 freshOrder) = [("E/10", monday.day)] ∧
    startDays (placedWithin 4 freshOrder) = [("E/10", monday.day), ("E/20", monday.day + 1)] ∧
    placedWithin 2 freshOrder =
      Placement.startingBy (saturdayRequest.over 2).windowEnd (placedWithin 4 freshOrder) := by
  have distinct : (([freshOrder].flatMap (·.operations)).map (·.operationId)).Nodup := by decide
  refine ⟨⟨by decide, distinct⟩, ?_, ?_, ?_⟩
  · rw [freshOrder, startDays_placedWithin (by decide) (by decide)]
    decide +kernel
  · rw [freshOrder, startDays_placedWithin (by decide) (by decide)]
    decide +kernel
  · apply schedule_eq_startingBy (saturdayRequest.over 2) 4 _ _ _ _ (by decide) distinct ⟨rfl, rfl⟩
      ⟨rfl, rfl⟩ agree_mondayLedger
    intro w hw op hop p _ _ _ d hd
    obtain rfl := List.mem_singleton.mp hw
    simp only [freshOrder, turns, List.mem_cons, List.not_mem_nil, or_false] at hop
    rcases hop with rfl | rfl <;> cases hd

/-- The second operation starts on Monday within two days, and on Wednesday within four:
    then the first one is placed, on Tuesday. -/
theorem schedule_moves :
    ((([endedOrder].flatMap (·.operations)).map (·.operationId)).Nodup ∧
      (mondayLedger 2).Covers (saturdayRequest.over 2) ∧
      (mondayLedger 4).Covers (saturdayRequest.over 4) ∧
      ∀ id, AgreeAt id saturday (saturdayRequest.over 2).windowEnd (mondayLedger 2)
        (mondayLedger 4)) ∧
    startDays (placedWithin 2 endedOrder) = [("E/20", monday.day)] ∧
    startDays (placedWithin 4 endedOrder) =
      [("E/10", monday.day + 1), ("E/20", monday.day + 2)] := by
  refine ⟨⟨by decide, ⟨rfl, rfl⟩, ⟨rfl, rfl⟩, agree_mondayLedger⟩, ?_, ?_⟩
  · rw [endedOrder, startDays_placedWithin (by decide) (by decide)]
    decide +kernel
  · rw [endedOrder, startDays_placedWithin (by decide) (by decide)]
    decide +kernel

end Workshop
