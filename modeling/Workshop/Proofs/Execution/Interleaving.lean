/-
  Workshop/Proofs/Execution/Interleaving.lean
  ===========================================
  **Scheduling runs side by side.**  Runs share a store.  Each of them reads, later writes
  under guard, and availability may be recalculated at any time; the steps of different
  runs mix in any order (`Floor.Step`).  However they do, nothing is overwritten and
  nothing is lost: `reachable_nothingLost`.

  What carries the proof is where dates come from.  A row with dates had them at the
  beginning, or one run reports it (`Consistent.origin`); a run therefore loses a placement
  only to a run that reports it.
-/
import Workshop.Proofs.Execution.Plans
import Workshop.Quantity.Exact
import Mathlib.Logic.Relation

namespace Workshop

variable {Q : Type}

variable [Quantity Q]

/-! ### Runs and their steps -/

/-- How far a run has come: it has not begun, it has read a store and made a plan, or it
    has written and answered. -/
inductive RunStage (Q : Type) where
  | waiting
  | planned (snapshot : Store Q) (request : ScheduleRequest Q) (plan : ScheduleResult Q)
  | answered (snapshot : Store Q) (request : ScheduleRequest Q) (plan answer : ScheduleResult Q)

/-- A store with the runs that share it. -/
structure Floor (Q : Type) where
  store : Store Q
  runs : Nat → RunStage Q

namespace Floor

/-- Before any run has begun. -/
def start (s : Store Q) : Floor Q := ⟨s, fun _ => .waiting⟩

/-- The run with a number has come to a stage. -/
def advance (w : Floor Q) (i : Nat) (stage : RunStage Q) : Floor Q :=
  { w with runs := fun j => if j = i then stage else w.runs j }

/-- One step of one of the runs: it reads and plans, or it writes and answers.  In between
    the availability of work centers is recalculated. -/
inductive Step : Floor Q → Floor Q → Prop
  | read {w : Floor Q} {i : Nat} {request : ScheduleRequest Q} {plan : ScheduleResult Q}
      {ledger : Ledger Q} (waits : w.runs i = .waiting)
      (reads : w.store.planSchedule request = .ok (plan, ledger)) :
      Step w (w.advance i (.planned w.store request plan))
  | write {w : Floor Q} {i : Nat} {snapshot : Store Q} {request : ScheduleRequest Q}
      {plan : ScheduleResult Q} (planned : w.runs i = .planned snapshot request plan) :
      Step w ({ w with store := (w.store.commitSchedule plan).1 }.advance i
        (.answered snapshot request plan (w.store.commitSchedule plan).2))
  | recalculate {w : Floor Q} {today : Date} {ids : Option (List String)}
      {horizon : Option Nat} {rates : List (String × Q)} {t : Store Q}
      (writes : w.store.recalculate today ids horizon = .ok (rates, t)) :
      Step w { w with store := t }

/-- The run has answered that it placed an operation. -/
def Reports (w : Floor Q) (i : Nat) (p : Placement Q) : Prop :=
  ∃ snapshot request plan answer,
    w.runs i = .answered snapshot request plan answer ∧ p ∈ answer.scheduled

/-! ### What holds throughout -/

/-- What holds of runs that began on a store, however far they have come. -/
structure Consistent (s : Store Q) (w : Floor Q) : Prop where
  later : Store.Later s w.store
  planned : ∀ i snapshot request plan, w.runs i = .planned snapshot request plan →
    Store.Later s snapshot ∧ Store.Later snapshot w.store ∧ snapshot.Plans request plan
  answered : ∀ i snapshot request plan answer,
    w.runs i = .answered snapshot request plan answer →
      snapshot.Plans request plan ∧ ∃ rejected, answer = plan.withLost rejected ∧
        ∀ p ∈ plan.scheduled, (p.operationId ∈ s.disputed → p.operationId ∈ rejected) ∧
          (p.operationId ∈ rejected → p.operationId ∈ s.disputed ∨
            ∃ j, j ≠ i ∧ ∃ q, w.Reports j q ∧ q.operationId = p.operationId)
  holds : ∀ i p, w.Reports i p →
    ∃ r ∈ w.store.operations, r .operationId = .text p.operationId ∧ p.Holds r
  once : ∀ i j p q, w.Reports i p → w.Reports j q → p.operationId = q.operationId →
    i = j ∧ p = q
  origin : ∀ r ∈ w.store.operations, ∀ id, r .operationId = .text id →
    r .scheduledStart ≠ .null →
      (∃ r₀ ∈ s.operations, r₀ .operationId = .text id ∧ r₀ .scheduledStart ≠ .null) ∨
        ∃ i p, w.Reports i p ∧ p.operationId = id

omit [Quantity Q] in
theorem not_reports_start (s : Store Q) (i : Nat) (p : Placement Q) :
    ¬ (start s).Reports i p := by
  rintro ⟨_, _, _, _, h, -⟩
  cases h

theorem consistent_start (s : Store Q) : Consistent s (start s) where
  later := .refl s
  planned _ _ _ _ h := by cases h
  answered _ _ _ _ _ h := by cases h
  holds i p h := absurd h (not_reports_start s i p)
  once i _ p _ h := absurd h (not_reports_start s i p)
  origin r hr id hid hdated := Or.inl ⟨r, hr, hid, hdated⟩

variable {s : Store Q} {w : Floor Q}

/-- A step that answers nothing and leaves the rows of orders and operations alone. -/
theorem Consistent.quiet {w' : Floor Q} (h : Consistent s w)
    (operations : w'.store.operations = w.store.operations)
    (orders : w'.store.orders = w.store.orders)
    (disputed : w'.store.disputed = w.store.disputed)
    (planned : ∀ i snapshot request plan, w'.runs i = .planned snapshot request plan →
      w.runs i = .planned snapshot request plan ∨
        (snapshot = w.store ∧ snapshot.Plans request plan))
    (answered : ∀ i snapshot request plan answer,
      w'.runs i = .answered snapshot request plan answer ↔
        w.runs i = .answered snapshot request plan answer) : Consistent s w' := by
  have hlater : Store.Later w.store w'.store := by
    refine ⟨?_, orders, disputed⟩
    rw [operations]
    exact (Store.Later.refl w.store).operations
  have hreports : ∀ i p, w'.Reports i p ↔ w.Reports i p := by
    intro i p
    simp only [Reports, answered]
  refine ⟨h.later.trans hlater, ?_, ?_, ?_, ?_, ?_⟩
  · intro i snapshot request plan hi
    rcases planned i snapshot request plan hi with hold | ⟨rfl, hplans⟩
    · obtain ⟨hs, hw, hplans⟩ := h.planned i snapshot request plan hold
      exact ⟨hs, hw.trans hlater, hplans⟩
    · exact ⟨h.later, hlater, hplans⟩
  · intro i snapshot request plan answer hi
    simp only [hreports]
    exact h.answered i snapshot request plan answer ((answered ..).mp hi)
  · intro i p hp
    rw [operations]
    exact h.holds i p ((hreports i p).mp hp)
  · intro i j p q hp hq
    exact h.once i j p q ((hreports i p).mp hp) ((hreports j q).mp hq)
  · intro r hr id hid hdated
    simp only [hreports]
    rw [operations] at hr
    exact h.origin r hr id hid hdated

theorem Consistent.read (keyed : s.Keyed) (h : Consistent s w) {i : Nat}
    {request : ScheduleRequest Q} {plan : ScheduleResult Q} {ledger : Ledger Q}
    (waits : w.runs i = .waiting)
    (reads : w.store.planSchedule request = .ok (plan, ledger)) :
    Consistent s (w.advance i (.planned w.store request plan)) := by
  have hplans := Store.plans_of_planSchedule (h.later.keyed keyed) reads
  refine h.quiet rfl rfl rfl ?_ ?_
  · intro j snapshot request' plan' hj
    simp only [advance] at hj
    split at hj
    · cases hj
      exact Or.inr ⟨rfl, hplans⟩
    · exact Or.inl hj
  · intro j snapshot request' plan' answer
    simp only [advance]
    split
    case isTrue hji => simp [hji, waits]
    case isFalse => rfl

theorem Consistent.recalculate (h : Consistent s w) {today : Date} {ids : Option (List String)}
    {horizon : Option Nat} {rates : List (String × Q)} {t : Store Q}
    (writes : w.store.recalculate today ids horizon = .ok (rates, t)) :
    Consistent s { w with store := t } := by
  have heq := Store.recalculate_eq writes
  refine h.quiet ?_ ?_ ?_ (fun _ _ _ _ => Or.inl) (fun _ _ _ _ _ => Iff.rfl)
  · change t.operations = _
    rw [heq]
  · change t.orders = _
    rw [heq]
  · change t.disputed = _
    rw [heq]

/-! ### The write of a run -/

/-- The floor after the write of a run. -/
def written (w : Floor Q) (i : Nat) (snapshot : Store Q) (request : ScheduleRequest Q)
    (plan : ScheduleResult Q) : Floor Q :=
  { w with store := (w.store.commitSchedule plan).1 }.advance i
    (.answered snapshot request plan (w.store.commitSchedule plan).2)

section Written

variable {i : Nat} {snapshot : Store Q} {request : ScheduleRequest Q} {plan : ScheduleResult Q}

omit [Quantity Q] in
theorem reports_written (planned : w.runs i = .planned snapshot request plan) (j : Nat)
    (p : Placement Q) : (w.written i snapshot request plan).Reports j p ↔
      (j = i ∧ p ∈ (w.store.commitSchedule plan).2.scheduled) ∨ w.Reports j p := by
  by_cases hji : j = i
  · subst hji
    simp [Reports, written, advance, planned]
  · simp [Reports, written, advance, hji]

omit [Quantity Q] in
theorem later_written (w : Floor Q) (i : Nat) (snapshot : Store Q) (request : ScheduleRequest Q)
    (plan : ScheduleResult Q) :
    Store.Later w.store (w.written i snapshot request plan).store :=
  w.store.later_writeSchedule plan.scheduled

/-- A placement is rejected because its operation is in dispute or another run reports it. -/
theorem Consistent.lost_to (keyed : s.Keyed) (h : Consistent s w)
    (planned : w.runs i = .planned snapshot request plan) {p : Placement Q}
    (hp : p ∈ plan.scheduled)
    (hlost : ∀ r ∈ w.store.operations, w.store.isOpen p.operationId r = false) :
    p.operationId ∈ s.disputed ∨
      ∃ j, j ≠ i ∧ ∃ q, w.Reports j q ∧ q.operationId = p.operationId := by
  obtain ⟨hs, hw, hplans⟩ := h.planned i snapshot request plan planned
  obtain ⟨r, hr, hid, hnull, -⟩ := hplans.rows p hp
  obtain ⟨t, ht, hrt⟩ := forall₂_mem_left hw.operations hr
  have htid : t .operationId = .text p.operationId :=
    (hrt.same .operationId (by decide) (by decide)).trans hid
  by_cases hdisputed : p.operationId ∈ s.disputed
  · exact Or.inl hdisputed
  · have hdated : t .scheduledStart ≠ .null := by
      intro hstart
      have hopen : w.store.isOpen p.operationId t = true :=
        Store.isOpen_iff.mpr ⟨htid, hstart, by rwa [h.later.disputed]⟩
      rw [hlost t ht] at hopen
      cases hopen
    rcases h.origin t ht _ htid hdated with ⟨r₀, hr₀, hid₀, hdated₀⟩ | ⟨j, q, hq, hqid⟩
    · -- the row had dates before the run read it, so the run would not have placed it
      obtain ⟨r₁, hr₁, hr₀₁⟩ := forall₂_mem_left hs.operations hr₀
      have hid₁ := (hr₀₁.same .operationId (by decide) (by decide)).trans hid₀
      have heq : r₁ = r := (hs.keyed keyed).operations.eq_of_isText (c := .operationId)
        (by decide) hr₁ hr hid₁ hid
      rw [← (hr₀₁.dates hdated₀).1, heq, hnull] at hdated₀
      exact absurd rfl hdated₀
    · refine Or.inr ⟨j, ?_, q, hq, hqid⟩
      rintro rfl
      obtain ⟨_, _, _, _, hj, -⟩ := hq
      rw [planned] at hj
      cases hj

omit [Quantity Q] in
theorem Reports.written {j : Nat} {p : Placement Q} (h : w.Reports j p)
    (planned : w.runs i = .planned snapshot request plan) :
    (w.written i snapshot request plan).Reports j p :=
  (reports_written planned j p).mpr (Or.inr h)

omit [Quantity Q] in
theorem operations_written (w : Floor Q) (i : Nat) (snapshot : Store Q)
    (request : ScheduleRequest Q) (plan : ScheduleResult Q) :
    (w.written i snapshot request plan).store.operations =
      w.store.operations.map (w.store.placeRow plan.scheduled) :=
  congrArg Store.operations (w.store.commit_fst plan)

theorem Consistent.answered_written (keyed : s.Keyed) (h : Consistent s w)
    (planned : w.runs i = .planned snapshot request plan) {j : Nat} {snapshot' : Store Q}
    {request' : ScheduleRequest Q} {plan' answer : ScheduleResult Q}
    (hj : (w.written i snapshot request plan).runs j =
      .answered snapshot' request' plan' answer) :
    snapshot'.Plans request' plan' ∧ ∃ rejected, answer = plan'.withLost rejected ∧
      ∀ p ∈ plan'.scheduled, (p.operationId ∈ s.disputed → p.operationId ∈ rejected) ∧
        (p.operationId ∈ rejected → p.operationId ∈ s.disputed ∨ ∃ k, k ≠ j ∧
          ∃ q, (w.written i snapshot request plan).Reports k q ∧
            q.operationId = p.operationId) := by
  simp only [written, advance] at hj
  split at hj
  · next hji =>
    subst hji
    cases hj
    obtain ⟨-, -, hplans⟩ := h.planned j snapshot request plan planned
    refine ⟨hplans, _, Store.commit_snd hplans.distinct_scheduled, ?_⟩
    intro p hp
    rw [Store.mem_rejected_iff hp]
    constructor
    · intro hdisputed r _
      rw [Bool.eq_false_iff, ne_eq, Store.isOpen_iff, h.later.disputed]
      exact fun hopen => hopen.2.2 hdisputed
    · intro hlost
      rcases h.lost_to keyed planned hp hlost with hdisputed | ⟨k, hk, q, hq, hqid⟩
      · exact Or.inl hdisputed
      · exact Or.inr ⟨k, hk, q, hq.written planned, hqid⟩
  · obtain ⟨hplans, rejected, hanswer, hrejected⟩ :=
      h.answered j snapshot' request' plan' answer hj
    refine ⟨hplans, rejected, hanswer, fun p hp => ⟨(hrejected p hp).1, fun hlost => ?_⟩⟩
    rcases (hrejected p hp).2 hlost with hdisputed | ⟨k, hk, q, hq, hqid⟩
    · exact Or.inl hdisputed
    · exact Or.inr ⟨k, hk, q, hq.written planned, hqid⟩

theorem Consistent.holds_written (h : Consistent s w)
    (planned : w.runs i = .planned snapshot request plan) {j : Nat} {p : Placement Q}
    (hp : (w.written i snapshot request plan).Reports j p) :
    ∃ r ∈ (w.written i snapshot request plan).store.operations,
      r .operationId = .text p.operationId ∧ p.Holds r := by
  obtain ⟨-, -, hplans⟩ := h.planned i snapshot request plan planned
  have hdistinct := hplans.distinct_scheduled
  rw [operations_written]
  rcases (reports_written planned j p).mp hp with ⟨rfl, hkept⟩ | hp
  · obtain ⟨hplan, r, hr, hopen⟩ := (Store.mem_commit_iff hdistinct).mp hkept
    refine ⟨_, List.mem_map_of_mem hr, ?_, Store.holds_placeRow hdistinct hplan hopen⟩
    rw [(Store.laterRow_placeRow _ _ r).same .operationId (by decide) (by decide)]
    exact (Store.isOpen_iff.mp hopen).1
  · obtain ⟨r, hr, hid, hstart, hend⟩ := h.holds j p hp
    have hrow := Store.laterRow_placeRow w.store plan.scheduled r
    have hdates := hrow.dates (by rw [hstart]; nofun)
    refine ⟨_, List.mem_map_of_mem hr, ?_, hdates.1.trans hstart, hdates.2.trans hend⟩
    exact (hrow.same .operationId (by decide) (by decide)).trans hid

/-- An operation that some run reports has dates, so it is not open for another one. -/
theorem Consistent.not_kept_again (keyed : s.Keyed) (h : Consistent s w)
    (planned : w.runs i = .planned snapshot request plan) {j : Nat} {p q : Placement Q}
    (hp : p ∈ (w.store.commitSchedule plan).2.scheduled) (hq : w.Reports j q) :
    p.operationId ≠ q.operationId := by
  intro hid
  obtain ⟨-, -, hplans⟩ := h.planned i snapshot request plan planned
  obtain ⟨-, r, hr, hopen⟩ := (Store.mem_commit_iff hplans.distinct_scheduled).mp hp
  obtain ⟨hrid, hstart, -⟩ := Store.isOpen_iff.mp hopen
  obtain ⟨t, ht, htid, hheld, -⟩ := h.holds j q hq
  have heq : r = t := (h.later.keyed keyed).operations.eq_of_isText (c := .operationId)
    (by decide) hr ht hrid (hid ▸ htid)
  rw [heq, hheld] at hstart
  cases hstart

theorem Consistent.once_written (keyed : s.Keyed) (h : Consistent s w)
    (planned : w.runs i = .planned snapshot request plan) {j k : Nat} {p q : Placement Q}
    (hp : (w.written i snapshot request plan).Reports j p)
    (hq : (w.written i snapshot request plan).Reports k q)
    (hid : p.operationId = q.operationId) : j = k ∧ p = q := by
  obtain ⟨-, -, hplans⟩ := h.planned i snapshot request plan planned
  have hdistinct := hplans.distinct_scheduled
  rcases (reports_written planned j p).mp hp with ⟨rfl, hkept⟩ | hold
  · rcases (reports_written planned k q).mp hq with ⟨rfl, hkept'⟩ | hold'
    · have hplan := ((Store.mem_commit_iff hdistinct).mp hkept).1
      have hplan' := ((Store.mem_commit_iff hdistinct).mp hkept').1
      exact ⟨rfl, List.inj_on_of_nodup_map hdistinct hplan hplan' hid⟩
    · exact absurd hid (h.not_kept_again keyed planned hkept hold')
  · rcases (reports_written planned k q).mp hq with ⟨rfl, hkept⟩ | hold'
    · exact absurd hid.symm (h.not_kept_again keyed planned hkept hold)
    · exact h.once j k p q hold hold' hid

theorem Consistent.origin_written (h : Consistent s w)
    (planned : w.runs i = .planned snapshot request plan) {t : Row Operation.Column Q}
    (ht : t ∈ (w.written i snapshot request plan).store.operations) {id : String}
    (hid : t .operationId = .text id) (hdated : t .scheduledStart ≠ .null) :
    (∃ r₀ ∈ s.operations, r₀ .operationId = .text id ∧ r₀ .scheduledStart ≠ .null) ∨
      ∃ j p, (w.written i snapshot request plan).Reports j p ∧ p.operationId = id := by
  obtain ⟨-, -, hplans⟩ := h.planned i snapshot request plan planned
  rw [operations_written] at ht
  obtain ⟨r, hr, rfl⟩ := List.mem_map.mp ht
  have hrow := Store.laterRow_placeRow w.store plan.scheduled r
  rw [hrow.same .operationId (by decide) (by decide)] at hid
  rcases w.store.placeRow_eq_or plan.scheduled r with hsame | ⟨p, hp, hopen⟩
  · rw [hsame] at hdated
    rcases h.origin r hr id hid hdated with hold | ⟨j, q, hq, hqid⟩
    · exact Or.inl hold
    · exact Or.inr ⟨j, q, hq.written planned, hqid⟩
  · refine Or.inr ⟨i, p, (reports_written planned i p).mpr (Or.inl ⟨rfl, ?_⟩), ?_⟩
    · exact (Store.mem_commit_iff hplans.distinct_scheduled).mpr ⟨hp, r, hr, hopen⟩
    · exact (Cell.text.inj (hid.symm.trans (Store.isOpen_iff.mp hopen).1)).symm

theorem Consistent.write (keyed : s.Keyed) (h : Consistent s w)
    (planned : w.runs i = .planned snapshot request plan) :
    Consistent s (w.written i snapshot request plan) where
  later := h.later.trans (later_written w i snapshot request plan)
  planned := by
    intro j snapshot' request' plan' hj
    simp only [written, advance] at hj
    split at hj
    · cases hj
    · obtain ⟨hs, hw, hplans⟩ := h.planned j snapshot' request' plan' hj
      exact ⟨hs, hw.trans (later_written w i snapshot request plan), hplans⟩
  answered _ _ _ _ _ hj := h.answered_written keyed planned hj
  holds _ _ hp := h.holds_written planned hp
  once _ _ _ _ hp hq hid := h.once_written keyed planned hp hq hid
  origin _ ht _ hid hdated := h.origin_written planned ht hid hdated

end Written

/-! ### All interleavings -/

theorem Step.later {w w' : Floor Q} (h : Step w w') : Store.Later w.store w'.store := by
  cases h with
  | read => exact .refl w.store
  | write => exact later_written w ..
  | recalculate writes => exact Store.later_recalculate writes

theorem Consistent.step (keyed : s.Keyed) {w' : Floor Q} (h : Consistent s w)
    (hstep : Step w w') : Consistent s w' := by
  cases hstep with
  | read waits reads => exact h.read keyed waits reads
  | write planned => exact h.write keyed planned
  | recalculate writes => exact h.recalculate writes

theorem consistent_of_reachable (keyed : s.Keyed)
    (reach : Relation.ReflTransGen Step (start s) w) : Consistent s w := by
  induction reach with
  | refl => exact consistent_start s
  | tail _ hstep ih => exact ih.step keyed hstep

/-- A scheduling run that is answered takes the steps of one run. -/
theorem reachable_scheduleRun {t : Store Q} {i : Nat} {today : Date} {filter : SchedulingFilter}
    {horizonDays : Option Nat} {optimizeSetup : Option Bool} {answer : ScheduleResult Q}
    (waits : w.runs i = .waiting)
    (ran : (Transaction.scheduleRun today filter horizonDays optimizeSetup).run w.store =
      (.ok answer, t)) :
    ∃ request plan, Relation.ReflTransGen Step w
      ({ w with store := t }.advance i (.answered w.store request plan answer)) := by
  have h := scheduleRan w.store today filter horizonDays optimizeSetup
  rw [ran] at h
  dsimp only at h
  generalize w.store.scheduleRequest today filter horizonDays optimizeSetup = request at h
  -- a run that has planned and written, whatever follows
  have hwritten : ∀ plan ledger, w.store.planSchedule request = .ok (plan, ledger) →
      Relation.ReflTransGen Step w (w.written i w.store request plan) := by
    intro plan ledger reads
    have hplanned : (w.advance i (.planned w.store request plan)).runs i =
        .planned w.store request plan := if_pos rfl
    have hfloor : w.written i w.store request plan =
        ({ w.advance i (.planned w.store request plan) with
            store := (w.store.commitSchedule plan).1 }.advance i
          (.answered w.store request plan (w.store.commitSchedule plan).2)) := by
      simp only [written, advance]
      congr 1
      funext j
      split <;> rfl
    rw [hfloor]
    exact (Relation.ReflTransGen.single (.read waits reads)).tail (.write hplanned)
  cases h with
  | @answered plan ledger reads => exact ⟨request, plan, hwritten plan ledger reads⟩
  | @recalculated plan ledger _ _ _ _ _ reads writes =>
    exact ⟨request, plan, (hwritten plan ledger reads).tail (.recalculate writes)⟩

/-- The answer of a run, told by its plan and by what other runs report. -/
structure Answers (w : Floor Q) (i : Nat) (snapshot : Store Q) (request : ScheduleRequest Q)
    (plan answer : ScheduleResult Q) (lost : List String) : Prop where
  kept : answer.scheduled = plan.scheduled.filter fun p => !lost.contains p.operationId
  conflicts : answer.conflicts = plan.conflicts ++
    (plan.scheduled.filter fun p => lost.contains p.operationId).map Placement.lost
  lost_iff : ∀ p ∈ plan.scheduled, p.operationId ∈ lost ↔ p.operationId ∈ w.store.disputed ∨
    ∃ j, j ≠ i ∧ ∃ q, w.Reports j q ∧ q.operationId = p.operationId
  candidates : ∃ cs, snapshot.candidates request = .ok cs ∧
    (cs.map (·.operation.operationId)).Nodup ∧
      (answer.scheduled.map (·.operationId) ++ answer.conflicts.map (·.operationId)).Perm
        (cs.map (·.operation.operationId))
  ascending : answer.affectedWorkCenters.Pairwise (· < ·)
  workCenters : ∀ id, id ∈ answer.affectedWorkCenters ↔
    ∃ p ∈ answer.scheduled, p.workCenterId = id

/-- Runs side by side have overwritten nothing and lost nothing. -/
structure NothingLost (w : Floor Q) : Prop where
  guarded : ∀ w', Step w w' → List.Forall₂ (fun r t : Row Operation.Column Q =>
    t .operationId = r .operationId ∧ (r .scheduledStart ≠ .null →
      t .scheduledStart = r .scheduledStart ∧ t .scheduledEnd = r .scheduledEnd))
    w.store.operations w'.store.operations
  once : ∀ i j p q, w.Reports i p → w.Reports j q → p.operationId = q.operationId →
    i = j ∧ p = q
  holds : ∀ i p, w.Reports i p →
    (∃ r ∈ w.store.operations, r .operationId = .text p.operationId) ∧
      ∀ r ∈ w.store.operations, r .operationId = .text p.operationId → p.Holds r
  answers : ∀ i snapshot request plan answer,
    w.runs i = .answered snapshot request plan answer →
      ∃ lost, Answers w i snapshot request plan answer lost

theorem Consistent.answers (h : Consistent s w) {i : Nat} {snapshot : Store Q}
    {request : ScheduleRequest Q} {plan answer : ScheduleResult Q}
    (hi : w.runs i = .answered snapshot request plan answer) :
    ∃ lost, Answers w i snapshot request plan answer lost := by
  obtain ⟨hplans, lost, hanswer, hlost⟩ := h.answered i snapshot request plan answer hi
  have hcenters : answer.affectedWorkCenters = Placement.workCenters answer.scheduled := by
    rw [hanswer]
    exact ScheduleResult.withLost_workCenters hplans.workCenters lost
  have hkept : answer.scheduled = plan.scheduled.filter fun p =>
      !lost.contains p.operationId := by
    rw [hanswer, ScheduleResult.withLost_scheduled]
  refine ⟨lost, hkept, ?_, ?_, ?_, ?_, ?_⟩
  · rw [hanswer, ScheduleResult.withLost_conflicts]
  · intro p hp
    rw [h.later.disputed]
    constructor
    · exact (hlost p hp).2
    · rintro (hdisputed | ⟨j, hj, q, hq, hid⟩)
      · exact (hlost p hp).1 hdisputed
      · -- had the run kept the placement, it would report it with the other run
        by_contra hkeep
        have hreport : w.Reports i p := by
          refine ⟨snapshot, request, plan, answer, hi, ?_⟩
          rw [hkept, List.mem_filter]
          exact ⟨hp, by simpa using hkeep⟩
        exact hj (h.once j i q p hq hreport hid).1
  · obtain ⟨cs, hcs, hperm⟩ := hplans.named
    refine ⟨cs, hcs, ?_, ?_⟩
    · exact hperm.nodup_iff.mp hplans.distinct
    · have hnamed := (plan.named_withLost lost).trans hperm
      rw [← hanswer] at hnamed
      exact hnamed
  · rw [hcenters]
    exact Text.pairwise_ascending _
  · intro id
    rw [hcenters, Placement.workCenters, Text.mem_ascending, List.mem_map]

/-- **Guarded writes lose and overwrite nothing**, in any interleaving of any number of
    scheduling runs. -/
theorem reachable_nothingLost (s : Store Q) (keyed : s.Keyed) (w : Floor Q)
    (reach : Relation.ReflTransGen Step (start s) w) : NothingLost w := by
  have h := consistent_of_reachable keyed reach
  refine ⟨?_, h.once, ?_, fun _ _ _ _ _ hi => h.answers hi⟩
  · intro w' hstep
    refine hstep.later.operations.imp ?_
    intro r t hrt
    exact ⟨hrt.same .operationId (by decide) (by decide), hrt.dates⟩
  · intro i p hp
    obtain ⟨r, hr, hid, hheld⟩ := h.holds i p hp
    refine ⟨⟨r, hr, hid⟩, ?_⟩
    intro t ht htid
    rwa [(h.later.keyed keyed).operations.eq_of_isText (c := .operationId) (by decide) ht hr
      htid hid]

/-! ### Two runs after one operation -/

/-- An order for a shaft with one operation of four hours. -/
def benchOrder : Order Rat := ⟨"S1", "MO-2", "SHAFT", 1, .released, 1, none, none, none⟩

def benchOperation : Operation Rat :=
  { Draft.toOperation ⟨10, none, none, "LATHE", "Turn", none, false, 0, 4⟩ "S1" "S1/10" with
    status := .ready }

def benchCenter : WorkCenter Rat := ⟨"LATHE", "L1", "Lathe", 8, 1, 100, true⟩

/-- The order with its operation, and the lathe that it needs. -/
def benchStore : Store Rat :=
  { (Store.empty : Store Rat) with
    workCenters := [Table.rowOf [("work_center_id", .text "LATHE"), ("code", .text "L1"),
      ("name", .text "Lathe")]]
    orders := [benchOrder.toRow]
    operations := [benchOperation.toRow] }

/-- Two weeks from Wednesday, 1 March of year 0. -/
def benchRequest : ScheduleRequest Rat := ⟨default, 14, false, 1 / 2, none, none⟩

def benchLedger : Ledger Rat := .empty benchRequest.today benchRequest.windowEnd

def benchRun : ScheduleResult Rat × Ledger Rat :=
  schedule benchRequest [Workset.ofOperations benchOrder [benchOperation]]
    (.ofList [benchCenter]) benchLedger

def benchPlan : ScheduleResult Rat := benchRun.1

/-- Both runs have planned before the first one writes. -/
def benchFloor : Floor Rat :=
  let stage := RunStage.planned benchStore benchRequest benchPlan
  ((((start benchStore).advance 0 stage).advance 1 stage).written 0
    benchStore benchRequest benchPlan).written 1 benchStore benchRequest benchPlan

theorem keyed_bench : benchStore.Keyed where
  orders _ _ := List.pairwise_singleton _ _
  operations _ _ := List.pairwise_singleton _ _

theorem ofRow_benchOrder : Order.ofRow benchOrder.toRow = .ok benchOrder :=
  Order.ofRow_eq_ok_iff.mpr
    ⟨rfl, rfl, rfl, by decide +kernel, by decide +kernel, rfl, rfl, rfl, rfl⟩

theorem ofRow_benchOperation : Operation.ofRow benchOperation.toRow = .ok benchOperation :=
  Operation.ofRow_eq_ok_iff.mpr
    ⟨rfl, rfl, rfl, rfl, rfl, rfl, rfl, rfl, rfl, by decide +kernel, by decide +kernel,
      by decide +kernel, by decide +kernel, by decide +kernel, by decide +kernel,
      by decide +kernel, rfl, rfl, rfl, rfl, rfl, rfl, rfl⟩

theorem planSchedule_bench : benchStore.planSchedule benchRequest = .ok benchRun := by
  have hcenters : benchStore.listActiveWorkCenters = .ok [benchCenter] := by
    unfold Store.listActiveWorkCenters Store.sortedBy
    dsimp only
    rw [List.mergeSort_of_pairwise (by decide)]
    rfl
  have hledger : benchStore.buildLedger benchRequest.today benchRequest.windowEnd
      benchRequest.minOperationHours benchRequest.includesWorkCenter = .ok benchLedger := by
    unfold Store.buildLedger Store.loadLedgerEntries
    dsimp only
    rw [List.mergeSort_of_pairwise (by decide)]
    rfl
  have hoperations : benchStore.listOperations "S1" = .ok [benchOperation] := by
    unfold Store.listOperations Store.sortedBy
    rw [List.mergeSort_of_pairwise (by decide)]
    exact mapM_eq_ok_iff.mpr (.cons ofRow_benchOperation .nil)
  have hactive : benchStore.listActiveOrders none = .ok [(benchOrder, [benchOperation])] := by
    unfold Store.listActiveOrders Store.sortedBy
    dsimp only
    rw [List.mergeSort_of_pairwise (by decide)]
    refine bind_eq_ok_iff.mpr ⟨[benchOrder], mapM_eq_ok_iff.mpr (.cons ofRow_benchOrder .nil), ?_⟩
    refine mapM_eq_ok_iff.mpr (.cons ?_ .nil)
    exact bind_eq_ok_iff.mpr ⟨[benchOperation], hoperations, rfl⟩
  refine bind_eq_ok_iff.mpr ⟨_, hcenters, ?_⟩
  exact bind_eq_ok_iff.mpr ⟨_, hledger, bind_eq_ok_iff.mpr ⟨_, hactive, rfl⟩⟩

theorem select_bench :
    Candidate.select benchRequest [Workset.ofOperations benchOrder [benchOperation]] =
      [⟨benchOperation, 1, none, "SHAFT", none⟩] := by
  have hworkset : Workset.ofOperations benchOrder [benchOperation] =
      ⟨benchOrder, [benchOperation]⟩ :=
    congrArg (Workset.mk benchOrder) (List.mergeSort_singleton benchOperation)
  rw [hworkset]
  apply Candidate.select_of_sorted
  · rw [List.flatMap_singleton, Candidate.ofWorkset_of_sorted (by decide)]
    rfl
  · decide

deriving instance DecidableEq for Placement

/-- The turning on the first day. -/
def benchPlacement : Placement Rat := ⟨"S1/10", "S1", 10, "LATHE", default, default, 4, 0⟩

theorem benchPlan_eq : benchPlan = ⟨[benchPlacement], [], ["LATHE"]⟩ := by
  have hscheduled : benchPlan.scheduled = [benchPlacement] := by
    rw [benchPlan, benchRun, FirstFit.schedule_of_select select_bench]
    decide +kernel
  have hconflicts : benchPlan.conflicts = [] := by
    rw [benchPlan, benchRun, FirstFit.schedule_of_select select_bench]
    decide +kernel
  have haffected : benchPlan.affectedWorkCenters = ["LATHE"] := by
    have hcenters : benchPlan.affectedWorkCenters = Placement.workCenters benchPlan.scheduled := rfl
    rw [hcenters, hscheduled]
    exact congrArg Text.dropRepeats (List.mergeSort_singleton "LATHE")
  rw [← hscheduled, ← hconflicts, ← haffected]

/-- The first run places the operation, the second one loses it. -/
theorem reachable_nothingLost_bench :
    (benchStore.Keyed ∧ Relation.ReflTransGen Step (start benchStore) benchFloor) ∧
    (∃ answer, benchFloor.runs 0 = .answered benchStore benchRequest benchPlan answer ∧
      answer.scheduled.map (·.operationId) = ["S1/10"]) ∧
    (∃ answer, benchFloor.runs 1 = .answered benchStore benchRequest benchPlan answer ∧
      answer.scheduled.map (·.operationId) = [] ∧
      answer.conflicts.map (fun c => (c.operationId, c.reason)) =
        [("S1/10", .concurrentlyScheduled)]) ∧
    NothingLost benchFloor := by
  have hplan : benchStore.planSchedule benchRequest = .ok (benchPlan, benchRun.2) :=
    planSchedule_bench
  have hreach : Relation.ReflTransGen Step (start benchStore) benchFloor :=
    (((Relation.ReflTransGen.single (.read (i := 0) rfl hplan)).tail
      (.read (i := 1) rfl hplan)).tail (.write rfl)).tail (.write rfl)
  refine ⟨⟨keyed_bench, hreach⟩, ⟨_, rfl, ?_⟩, ⟨_, rfl, ?_, ?_⟩,
    reachable_nothingLost benchStore keyed_bench benchFloor hreach⟩
  · rw [benchPlan_eq]
    decide +kernel
  · rw [benchPlan_eq]
    decide +kernel
  · rw [benchPlan_eq]
    decide +kernel

end Floor

end Workshop
