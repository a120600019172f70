/-
  Workshop/Proofs/Execution/WaveOrder.lean
  ========================================
  **The order of waves throughout a run.**  Three invariants carry it: what is open to an
  operation waits for everything before its wave (`Gated`), an operation waits only where
  something is in its way (`WaitsBlocked`), and what is in progress has begun
  (`ProgressBegun`).  A move of one operation keeps each of them, and so does a release.

  The first needs nothing of the waves; the second needs the operations of a wave to
  follow one another.  Together they say what every operation is in for, by the place of
  its wave (`InWaveOrder`).
-/
import Workshop.Proofs.Execution.Moves
import Workshop.Quantity.Binary

namespace Workshop

variable {Q : Type}

/-! ### Waves of drafts -/

/-- A sequence number that comes before every draft of a wave. -/
def BeforeWave (drafts : List (Draft Q)) (n : Int) (key : String) : Prop :=
  ∀ d ∈ drafts, d.groupKey = key → n < d.sequence

/-- The drafts of a wave follow one another: no draft of another wave is between two of
    them. -/
def WavesContiguous (drafts : List (Draft Q)) : Prop :=
  ∀ a ∈ drafts, ∀ b ∈ drafts, ∀ c ∈ drafts, a.groupKey = c.groupKey →
    a.sequence < b.sequence → b.sequence < c.sequence → b.groupKey = a.groupKey

/-- Two drafts with one sequence number belong to one wave. -/
def WavesApart (drafts : List (Draft Q)) : Prop :=
  ∀ a ∈ drafts, ∀ b ∈ drafts, a.sequence = b.sequence → a.groupKey = b.groupKey

/-- The plans of operations. -/
def plans (ops : List (Operation Q)) : List (Draft Q) := ops.map Operation.plan

theorem plan_mem_plans {ops : List (Operation Q)} {op : Operation Q} (h : op ∈ ops) :
    op.plan ∈ plans ops := List.mem_map_of_mem h

theorem plans_eq_of_map_job {ops ops' : List (Operation Q)}
    (h : ops'.map Operation.job = ops.map Operation.job) : plans ops' = plans ops := by
  have := congrArg (List.map Job.plan) h
  simpa [plans, List.map_map, Function.comp_def, Operation.job] using this

/-! ### What is open to an operation -/

/-- What is open to an operation waits for everything before its wave. -/
def Gated (ops : List (Operation Q)) : Prop :=
  ∀ op ∈ ops, op.Admitted → ∀ x ∈ ops, BeforeWave (plans ops) x.sequence op.groupKey →
    x.status = .complete

/-- An incomplete operation of another wave comes before the operation. -/
def Blocked (ops : List (Operation Q)) (op : Operation Q) : Prop :=
  ∃ x ∈ ops, x.status ≠ .complete ∧ x.groupKey ≠ op.groupKey ∧ x.sequence < op.sequence

/-- Operations wait only where something is in their way. -/
def WaitsBlocked (ops : List (Operation Q)) : Prop :=
  ∀ op ∈ ops, op.status = .pending → Blocked ops op

/-- Operations in progress have begun. -/
def ProgressBegun (ops : List (Operation Q)) : Prop :=
  ∀ op ∈ ops, op.status = .inProgress → op.hasStarted = true

theorem complete_of_beforeWave_active {ops : List (Operation Q)} {key : String}
    (h : (WaveIndex.build ops).activeWave = some key) {x : Operation Q} (hx : x ∈ ops)
    (hb : BeforeWave (plans ops) x.sequence key) : x.status = .complete := by
  obtain ⟨f, hf, hk⟩ := WaveIndex.exists_firstOpen h
  by_contra hc
  have hle := hf.least x hx hc
  have hlt : x.sequence < f.sequence := hb f.plan (plan_mem_plans hf.mem) hk
  omega

theorem blocked_of_inactive {ops : List (Operation Q)} (apart : WavesApart (plans ops))
    {op : Operation Q} (hop : op ∈ ops) (hc : op.status ≠ .complete)
    (h : (WaveIndex.build ops).activeWave ≠ some op.groupKey) : Blocked ops op := by
  obtain ⟨key, hkey⟩ := WaveIndex.exists_activeWave hop hc
  obtain ⟨f, hf, rfl⟩ := WaveIndex.exists_firstOpen hkey
  have hne : f.groupKey ≠ op.groupKey := fun e => h (e ▸ hkey)
  refine ⟨f, hf.mem, hf.not_complete, hne, ?_⟩
  have hle := hf.least op hop hc
  have hsne : f.sequence ≠ op.sequence := fun e =>
    hne (apart f.plan (plan_mem_plans hf.mem) op.plan (plan_mem_plans hop) e)
  omega

/-! ### The invariants survive a move -/

theorem plans_replace {pre post : List (Operation Q)} {a b : Operation Q} (h : b.job = a.job) :
    plans (pre ++ b :: post) = plans (pre ++ a :: post) :=
  plans_eq_of_map_job (by simp [h])

theorem mem_middle_iff {α : Type} {x b : α} {pre post : List α} :
    x ∈ pre ++ b :: post ↔ x = b ∨ x ∈ pre ++ post := by
  simp only [List.mem_append, List.mem_cons]
  tauto

theorem gated_of_moved {w : Workset Q} {pre post : List (Operation Q)} {a b : Operation Q}
    (hops : w.operations = pre ++ a :: post) (hm : Moved w a b) (hg : Gated w.operations) :
    Gated (pre ++ b :: post) := by
  have ha : a ∈ w.operations := by simp [hops]
  have old {x : Operation Q} (hx : x ∈ pre ++ post) : x ∈ w.operations := by
    rw [hops]
    exact mem_middle_iff.mpr (Or.inr hx)
  -- whatever gates an operation now was complete before the move
  have gate : ∀ op ∈ pre ++ b :: post, op.Admitted → ∀ x ∈ w.operations,
      BeforeWave (plans w.operations) x.sequence op.groupKey → x.status = .complete := by
    intro op hop hadm x hx hbefore
    rcases mem_middle_iff.mp hop with rfl | hop
    · rw [Operation.groupKey_eq_of_job hm.job] at hbefore
      rcases hm.admitted hadm with hadm | hact
      · exact hg a ha hadm x hx hbefore
      · exact complete_of_beforeWave_active hact hx hbefore
    · exact hg op (old hop) hadm x hx hbefore
  intro op hop hadm x hx hbefore
  rw [plans_replace hm.job, ← hops] at hbefore
  rcases mem_middle_iff.mp hx with rfl | hx
  · rw [Operation.sequence_eq_of_job hm.job] at hbefore
    exact absurd (gate op hop hadm a ha hbefore) hm.not_complete
  · exact gate op hop hadm x (old hx) hbefore

theorem gated_release {v : Workset Q} (hg : Gated v.operations) :
    Gated v.releaseActiveWave.1.operations := by
  cases hkey : v.waves.activeWave with
  | none =>
    rw [Workset.release_eq_self hkey]
    exact hg
  | some key =>
    intro op hop hadm x hx hbefore
    rw [plans_eq_of_map_job v.map_job_release] at hbefore
    have gate : ∀ y ∈ v.operations, BeforeWave (plans v.operations) y.sequence op.groupKey →
        y.status = .complete := by
      intro y hy hb
      rcases Workset.mem_release hkey hop with ⟨hop, -⟩ | ⟨z, hz, rfl, hp, rfl⟩
      · exact hg op hop hadm y hy hb
      · exact complete_of_beforeWave_active hkey hy hb
    rcases Workset.mem_release hkey hx with ⟨hx, -⟩ | ⟨y, hy, hyk, hyp, rfl⟩
    · exact gate x hx hbefore
    · have hyc := gate y hy hbefore
      rw [hyp] at hyc
      cases hyc

theorem waitsBlocked_of_moved {w : Workset Q} {pre post : List (Operation Q)}
    {a b : Operation Q} (apart : WavesApart (plans w.operations))
    (hops : w.operations = pre ++ a :: post) (hm : Moved w a b) (hb : b.status ≠ .complete)
    (hw : WaitsBlocked w.operations) : WaitsBlocked (pre ++ b :: post) := by
  have ha : a ∈ w.operations := by simp [hops]
  have key_eq := Operation.groupKey_eq_of_job hm.job
  have seq_eq := Operation.sequence_eq_of_job hm.job
  -- what blocked an operation still does, the operation that moved included
  have still : ∀ op, Blocked w.operations op → Blocked (pre ++ b :: post) op := by
    rintro op ⟨x, hx, hxc, hxk, hxs⟩
    rw [hops] at hx
    rcases mem_middle_iff.mp hx with rfl | hx
    · exact ⟨b, by simp, hb, by rwa [key_eq], by rwa [seq_eq]⟩
    · exact ⟨x, mem_middle_iff.mpr (Or.inr hx), hxc, hxk, hxs⟩
  intro op hop hp
  rcases mem_middle_iff.mp hop with rfl | hop
  · have hab := blocked_of_inactive apart ha hm.not_complete (hm.waits hp)
    obtain ⟨x, hx, hxc, hxk, hxs⟩ := still a hab
    exact ⟨x, hx, hxc, by rwa [key_eq], by rwa [seq_eq]⟩
  · refine still op (hw op ?_ hp)
    rw [hops]
    exact mem_middle_iff.mpr (Or.inr hop)

theorem waitsBlocked_release {v : Workset Q} (apart : WavesApart (plans v.operations)) :
    WaitsBlocked v.releaseActiveWave.1.operations := by
  cases hkey : v.waves.activeWave with
  | none =>
    rw [Workset.release_eq_self hkey]
    intro op hop hp
    have hc := WaveIndex.activeWave_eq_none_iff.mp hkey op hop
    rw [hp] at hc
    cases hc
  | some key =>
    intro op hop hp
    rcases Workset.mem_release hkey hop with ⟨hop, hn⟩ | ⟨z, hz, -, -, rfl⟩
    · have hk : v.waves.activeWave ≠ some op.groupKey := by
        rw [hkey]
        exact fun e => hn ⟨(Option.some.inj e).symm, hp⟩
      obtain ⟨x, hx, hxc, hxk, hxs⟩ := blocked_of_inactive apart hop (by simp [hp]) hk
      obtain ⟨y, hy, hjob, hyc⟩ := Workset.exists_mem_release hx
      refine ⟨y, hy, hyc hxc, ?_, ?_⟩
      · rwa [Operation.groupKey_eq_of_job hjob]
      · rwa [Operation.sequence_eq_of_job hjob]
    · cases hp

/-- A wave that is not complete still blocks what its completed operations blocked. -/
theorem blocked_of_openWave {ops : List (Operation Q)} (apart : WavesApart (plans ops))
    (contiguous : WavesContiguous (plans ops)) {a z op : Operation Q} (ha : a ∈ ops)
    (hz : z ∈ ops) (hop : op ∈ ops) (hzk : z.groupKey = a.groupKey) (hzc : z.status ≠ .complete)
    (hk : a.groupKey ≠ op.groupKey) (hs : a.sequence < op.sequence) : Blocked ops op := by
  refine ⟨z, hz, hzc, by rwa [hzk], ?_⟩
  by_contra hle
  rcases Int.lt_or_eq_of_le (Int.not_lt.mp hle) with hlt | heq
  · exact hk (contiguous a.plan (plan_mem_plans ha) op.plan (plan_mem_plans hop) z.plan
      (plan_mem_plans hz) hzk.symm hs hlt).symm
  · have := apart op.plan (plan_mem_plans hop) z.plan (plan_mem_plans hz) heq
    exact hk (hzk.symm.trans this.symm)

theorem waitsBlocked_settle {v : Workset Q} {b : Operation Q} (now : Instant)
    (apart : WavesApart (plans v.operations)) (contiguous : WavesContiguous (plans v.operations))
    (hb : b ∈ v.operations)
    (hw : ∀ op ∈ v.operations, op.status = .pending → Blocked v.operations op ∨
      (b.groupKey ≠ op.groupKey ∧ b.sequence < op.sequence)) :
    WaitsBlocked (v.settle b.groupKey now).1.operations := by
  rcases v.settle_cases b.groupKey now with ⟨hall, heq⟩ | ⟨-, -, heq⟩ | ⟨⟨z, hz, hzk, hzc⟩, heq⟩
  · rw [heq]
    intro op hop hp
    have hc := hall op hop
    rw [hp] at hc
    cases hc
  · rw [heq]
    exact waitsBlocked_release apart
  · rw [heq]
    intro op hop hp
    rcases hw op hop hp with h | ⟨hk, hs⟩
    · exact h
    · exact blocked_of_openWave apart contiguous hb hz hop hzk hzc hk hs

theorem progressBegun_of_moved {w : Workset Q} {pre post : List (Operation Q)}
    {a b : Operation Q} (hops : w.operations = pre ++ a :: post) (hm : Moved w a b)
    (hp : ProgressBegun w.operations) : ProgressBegun (pre ++ b :: post) := by
  intro op hop hs
  rw [ProgressBegun, hops] at hp
  rcases mem_middle_iff.mp hop with rfl | hop
  · rcases hm.begun hs with h | ⟨ha, hab⟩
    · exact h
    · rw [hab]
      exact hp a (by simp) ha
  · exact hp op (mem_middle_iff.mpr (Or.inr hop)) hs

theorem progressBegun_release {v : Workset Q} (hp : ProgressBegun v.operations) :
    ProgressBegun v.releaseActiveWave.1.operations := by
  cases hkey : v.waves.activeWave with
  | none => rwa [Workset.release_eq_self hkey]
  | some key =>
    intro op hop hs
    rcases Workset.mem_release hkey hop with ⟨hop, -⟩ | ⟨z, hz, -, -, rfl⟩
    · exact hp op hop hs
    · cases hs

/-! ### The order of waves -/

/-- Operations as they are when an order is released: waiting, and never begun. -/
structure Fresh (ops : List (Operation Q)) : Prop where
  waiting : ∀ op ∈ ops, op.status = .pending
  unbegun : ∀ op ∈ ops, op.actualStart = none

/-- The operation belongs to a wave that comes before the wave of the other one. -/
def EarlierWave (a b : Operation Q) : Prop := a.groupKey ≠ b.groupKey ∧ a.sequence < b.sequence

/-- The waves of a workset are worked off one after the other. -/
structure InWaveOrder (w : Workset Q) : Prop where
  /-- Without an active wave everything is complete. -/
  finished : w.waves.activeWave = none → ∀ op ∈ w.operations, op.status = .complete
  /-- Before the active wave everything is complete. -/
  earlier : ∀ a ∈ w.operations, ∀ b ∈ w.operations, w.waves.activeWave = some b.groupKey →
    EarlierWave a b → a.status = .complete
  /-- In the active wave nothing waits for its release. -/
  active : ∀ op ∈ w.operations, w.waves.activeWave = some op.groupKey →
    op.status = .ready ∨ op.status = .inProgress ∨ op.status = .onHold ∨ op.status = .complete
  /-- In the active wave something is still to be done. -/
  undone : ∀ key, w.waves.activeWave = some key →
    ∃ op ∈ w.operations, op.groupKey = key ∧ op.status ≠ .complete
  /-- After the active wave nothing is released and nothing has begun. -/
  later : ∀ a ∈ w.operations, ∀ b ∈ w.operations, w.waves.activeWave = some a.groupKey →
    EarlierWave a b → (b.status = .pending ∨ b.status = .onHold) ∧ b.actualStart = none
  /-- What is in progress has begun. -/
  begun : ∀ op ∈ w.operations, op.status = .inProgress → op.actualStart.isSome = true
  /-- Nothing is worked on while an operation of an earlier wave is incomplete. -/
  gate : ∀ a ∈ w.operations, ∀ b ∈ w.operations, EarlierWave a b → a.status ≠ .complete →
    b.status ≠ .ready ∧ b.status ≠ .inProgress

theorem beforeWave_of_earlier {ops : List (Operation Q)} (apart : WavesApart (plans ops))
    (contiguous : WavesContiguous (plans ops)) {a b : Operation Q} (ha : a ∈ ops) (hb : b ∈ ops)
    (h : EarlierWave a b) : BeforeWave (plans ops) a.sequence b.groupKey := by
  intro d hd hk
  by_contra hle
  rcases Int.lt_or_eq_of_le (Int.not_lt.mp hle) with hlt | heq
  · exact h.1 ((contiguous d hd a.plan (plan_mem_plans ha) b.plan (plan_mem_plans hb) hk hlt
      h.2).trans hk)
  · exact h.1 ((apart d hd a.plan (plan_mem_plans ha) heq).symm.trans hk)

/-- Which wave comes first does not depend on the operation that stands for it. -/
theorem EarlierWave.of_groupKey {ops : List (Operation Q)} (apart : WavesApart (plans ops))
    (contiguous : WavesContiguous (plans ops)) {a a' b : Operation Q} (ha : a ∈ ops)
    (ha' : a' ∈ ops) (hb : b ∈ ops) (hk : a'.groupKey = a.groupKey) (h : EarlierWave a b) :
    EarlierWave a' b := by
  refine ⟨by rw [hk]; exact h.1, ?_⟩
  by_contra hle
  rcases Int.lt_or_eq_of_le (Int.not_lt.mp hle) with hlt | heq
  · exact h.1 (contiguous a.plan (plan_mem_plans ha) b.plan (plan_mem_plans hb) a'.plan
      (plan_mem_plans ha') hk.symm h.2 hlt).symm
  · have := apart b.plan (plan_mem_plans hb) a'.plan (plan_mem_plans ha') heq
    exact h.1 (hk.symm.trans this.symm)

theorem not_admitted_iff {op : Operation Q} : ¬ op.Admitted ↔
    (op.status = .pending ∨ op.status = .onHold) ∧ op.actualStart = none := by
  unfold Operation.Admitted Operation.hasStarted
  cases op.status <;> simp

theorem inWaveOrder_of_invariants {w : Workset Q} (apart : WavesApart (plans w.operations))
    (contiguous : WavesContiguous (plans w.operations)) (gated : Gated w.operations)
    (waits : WaitsBlocked w.operations) (begun : ProgressBegun w.operations) :
    InWaveOrder w := by
  have complete_of_earlier : ∀ a ∈ w.operations, ∀ b ∈ w.operations,
      w.waves.activeWave = some b.groupKey → EarlierWave a b → a.status = .complete :=
    fun a ha b hb hact h => complete_of_beforeWave_active hact ha
      (beforeWave_of_earlier apart contiguous ha hb h)
  constructor
  case finished => exact WaveIndex.activeWave_eq_none_iff.mp
  case earlier => exact complete_of_earlier
  case active =>
    intro op hop hact
    have hp : op.status ≠ .pending := by
      intro hp
      obtain ⟨x, hx, hxc, hxk, hxs⟩ := waits op hop hp
      exact hxc (complete_of_earlier x hx op hop hact ⟨hxk, hxs⟩)
    revert hp
    cases op.status <;> simp
  case undone =>
    intro key hact
    obtain ⟨f, hf, hk⟩ := WaveIndex.exists_firstOpen hact
    exact ⟨f, hf.mem, hk, hf.not_complete⟩
  case later =>
    intro a ha b hb hact h
    obtain ⟨f, hf, hk⟩ := WaveIndex.exists_firstOpen hact
    have hfb := h.of_groupKey apart contiguous ha hf.mem hb hk
    exact not_admitted_iff.mp fun hadm => hf.not_complete <|
      gated b hb hadm f hf.mem (beforeWave_of_earlier apart contiguous hf.mem hb hfb)
  case begun => exact begun
  case gate =>
    intro a ha b hb h hc
    have hadm : ¬ b.Admitted := fun hadm =>
      hc (gated b hb hadm a ha (beforeWave_of_earlier apart contiguous ha hb h))
    obtain ⟨hs | hs, -⟩ := not_admitted_iff.mp hadm <;> simp [hs]

theorem Fresh.gated {ops : List (Operation Q)} (fresh : Fresh ops) : Gated ops := by
  intro op hop hadm
  exact absurd hadm (not_admitted_iff.mpr ⟨Or.inl (fresh.waiting op hop), fresh.unbegun op hop⟩)

theorem WavesContiguous.mono {ds es : List (Draft Q)} (h : WavesContiguous ds)
    (hsub : ∀ d ∈ es, d ∈ ds) : WavesContiguous es :=
  fun a ha b hb c hc => h a (hsub a ha) b (hsub b hb) c (hsub c hc)

theorem WavesApart.mono {ds es : List (Draft Q)} (h : WavesApart ds)
    (hsub : ∀ d ∈ es, d ∈ ds) : WavesApart es :=
  fun a ha b hb => h a (hsub a ha) b (hsub b hb)

theorem wavesApart_of_nodup {ds : List (Draft Q)} (h : (ds.map (·.sequence)).Nodup) :
    WavesApart ds :=
  fun _ ha _ hb he => congrArg Draft.groupKey (List.inj_on_of_nodup_map h ha hb he)

theorem mem_ofOperations {order : Order Q} {ops : List (Operation Q)} {op : Operation Q} :
    op ∈ (Workset.ofOperations order ops).operations ↔ op ∈ ops := List.mem_mergeSort

/-! ### The invariants along a run -/

variable [Quantity Q]

namespace Workset

theorem Step.gated {w w' : Workset Q} {c : Call Q} (h : Step w c w')
    (hg : Gated w.operations) : Gated w'.operations := by
  obtain ⟨pre, a, b, post, hops, hm, ⟨-, hw'⟩ | ⟨v, hv, -, -, rfl⟩⟩ := h.moved
  · rw [hw']
    exact gated_of_moved hops hm hg
  · have hgv : Gated v.operations := hv ▸ gated_of_moved hops hm hg
    rcases v.settle_operations a.groupKey c.now with heq | heq
    · rwa [heq]
    · rw [heq]
      exact gated_release hgv

theorem Step.progressBegun {w w' : Workset Q} {c : Call Q} (h : Step w c w')
    (hp : ProgressBegun w.operations) : ProgressBegun w'.operations := by
  obtain ⟨pre, a, b, post, hops, hm, ⟨-, hw'⟩ | ⟨v, hv, -, -, rfl⟩⟩ := h.moved
  · rw [hw']
    exact progressBegun_of_moved hops hm hp
  · have hpv : ProgressBegun v.operations := hv ▸ progressBegun_of_moved hops hm hp
    rcases v.settle_operations a.groupKey c.now with heq | heq
    · rwa [heq]
    · rw [heq]
      exact progressBegun_release hpv

theorem Step.waitsBlocked {w w' : Workset Q} {c : Call Q} (h : Step w c w')
    (apart : WavesApart (plans w.operations)) (contiguous : WavesContiguous (plans w.operations))
    (hw : WaitsBlocked w.operations) : WaitsBlocked w'.operations := by
  obtain ⟨pre, a, b, post, hops, hm, ⟨hb, hw'⟩ | ⟨v, hv, -, hb, rfl⟩⟩ := h.moved
  · rw [hw']
    exact waitsBlocked_of_moved apart hops hm hb hw
  · have hplans : plans v.operations = plans w.operations := by
      rw [hv, hops, plans_replace hm.job]
    have key_eq := Operation.groupKey_eq_of_job hm.job
    have seq_eq := Operation.sequence_eq_of_job hm.job
    rw [← key_eq]
    refine waitsBlocked_settle c.now (hplans ▸ apart) (hplans ▸ contiguous)
      (by rw [hv]; simp) fun op hop hp => ?_
    -- the completed operation may have been the only one in the way
    rw [hv] at hop ⊢
    rcases mem_middle_iff.mp hop with rfl | hop
    · rw [hb] at hp
      cases hp
    · have hop' : op ∈ w.operations := by
        rw [hops]
        exact mem_middle_iff.mpr (Or.inr hop)
      obtain ⟨x, hx, hxc, hxk, hxs⟩ := hw op hop' hp
      rw [hops] at hx
      rcases mem_middle_iff.mp hx with rfl | hx
      · exact Or.inr ⟨by rwa [key_eq], by rwa [seq_eq]⟩
      · exact Or.inl ⟨x, mem_middle_iff.mpr (Or.inr hx), hxc, hxk, hxs⟩

theorem plans_run (w : Workset Q) (calls : List (Call Q)) :
    plans (w.run calls).operations = plans w.operations :=
  plans_eq_of_map_job (w.map_job_run calls)

theorem gated_run {w : Workset Q} (h : Gated w.operations) (calls : List (Call Q)) :
    Gated (w.run calls).operations :=
  run_induction (P := fun v => Gated v.operations) h (fun hg hs => hs.gated hg) calls

theorem progressBegun_run {w : Workset Q} (h : ProgressBegun w.operations)
    (calls : List (Call Q)) : ProgressBegun (w.run calls).operations :=
  run_induction (P := fun v => ProgressBegun v.operations) h
    (fun hp hs => hs.progressBegun hp) calls

theorem waitsBlocked_run {w : Workset Q} (apart : WavesApart (plans w.operations))
    (contiguous : WavesContiguous (plans w.operations)) (h : WaitsBlocked w.operations)
    (calls : List (Call Q)) : WaitsBlocked (w.run calls).operations := by
  refine (run_induction (P := fun v => plans v.operations = plans w.operations ∧
    WaitsBlocked v.operations) ⟨rfl, h⟩ ?_ calls).2
  rintro v v' c ⟨hp, hw⟩ hs
  exact ⟨(plans_eq_of_map_job hs.map_job).trans hp,
    hs.waitsBlocked (hp ▸ apart) (hp ▸ contiguous) hw⟩

end Workset

/-- The invariants hold when the first wave of fresh operations is released, and they
    survive every run. -/
theorem inWaveOrder_of_fresh {v : Workset Q} (fresh : Fresh v.operations)
    (apart : WavesApart (plans v.operations)) (contiguous : WavesContiguous (plans v.operations))
    (calls : List (Call Q)) : InWaveOrder (v.releaseActiveWave.1.run calls) := by
  have begun : ProgressBegun v.operations := by
    intro op hop hs
    rw [fresh.waiting op hop] at hs
    cases hs
  have hplans : plans v.releaseActiveWave.1.operations = plans v.operations :=
    plans_eq_of_map_job v.map_job_release
  rw [← hplans] at apart contiguous
  have hrun := v.releaseActiveWave.1.plans_run calls
  refine inWaveOrder_of_invariants ?_ ?_ ?_ ?_ ?_
  · rwa [hrun]
  · rwa [hrun]
  · exact Workset.gated_run (gated_release fresh.gated) calls
  · exact Workset.waitsBlocked_run apart contiguous (waitsBlocked_release (hplans ▸ apart)) calls
  · exact Workset.progressBegun_run (progressBegun_release begun) calls

/-- **The waves of an order are worked off one after the other**, whatever is asked for
    and in whatever order. -/
theorem run_inWaveOrder (order : Order Q) (ops : List (Operation Q)) (fresh : Fresh ops)
    (distinct : (ops.map (·.sequence)).Nodup) (contiguous : WavesContiguous (plans ops))
    (calls : List (Call Q)) :
    InWaveOrder ((Workset.ofOperations order ops).releaseActiveWave.1.run calls) := by
  have hsub : ∀ d ∈ plans (Workset.ofOperations order ops).operations, d ∈ plans ops := by
    intro d hd
    obtain ⟨op, hop, rfl⟩ := List.mem_map.mp hd
    exact plan_mem_plans (mem_ofOperations.mp hop)
  have apart : WavesApart (plans ops) := by
    apply wavesApart_of_nodup
    simpa [plans, List.map_map, Function.comp_def, Operation.plan] using distinct
  refine inWaveOrder_of_fresh ⟨?_, ?_⟩ (apart.mono hsub) (contiguous.mono hsub) calls
  · exact fun op hop => fresh.waiting op (mem_ofOperations.mp hop)
  · exact fun op hop => fresh.unbegun op (mem_ofOperations.mp hop)

/-- An order for four brackets. -/
def bracketOrder : Order Float :=
  ⟨"B1", "MO-1", "BRACKET", 4, .released, 1, none, none, none⟩

/-- The operations of the order: two on the plate, one on the rib, and the assembly. -/
def bracketOperations : List (Operation Float) :=
  [(10, some "PLATE"), (20, some "PLATE"), (30, none), (40, some "ASSEMBLY")].map fun p =>
    Draft.toOperation ⟨p.1, none, p.2, "WC1", "Work", none, false, 1, 2⟩ "B1"
      ("B1/" ++ toString p.1)

theorem run_inWaveOrder_bracket :
    Fresh bracketOperations ∧ (bracketOperations.map (·.sequence)).Nodup ∧
      WavesContiguous (plans bracketOperations) ∧
      InWaveOrder ((Workset.ofOperations bracketOrder bracketOperations).releaseActiveWave.1.run
        [⟨"B1/20", .hold, .blank, .midnight .first⟩, ⟨"B1/10", .start, .blank, .midnight .first⟩,
          ⟨"B1/40", .start, .blank, .midnight .first⟩]) := by
  have fresh : Fresh bracketOperations := ⟨by decide, by decide⟩
  have distinct : (bracketOperations.map (·.sequence)).Nodup := by decide
  have contiguous : WavesContiguous (plans bracketOperations) := by
    unfold WavesContiguous
    decide
  exact ⟨fresh, distinct, contiguous, run_inWaveOrder _ _ fresh distinct contiguous _⟩

end Workshop
