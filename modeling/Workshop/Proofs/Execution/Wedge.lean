/-
  Workshop/Proofs/Execution/Wedge.lean
  ====================================
  **Where production gets stuck.**  Operations are worked off in the order of their
  sequence numbers for as long as nothing is in the way.  Until then a workset is a
  `Front`: what comes before the front is complete, the wave at the front is ready, and
  everything else waits.

  The front moves on by a start and a completion (`Front.advance`), unless the wave is
  left for another one and comes back later.  Then it is not complete, so nothing is
  released, and the wave that is now active waits for its release: production is stuck.
  So the operations of an explosion never wedge exactly when the drafts of each wave
  follow one another (`neverWedges_iff`).
-/
import Workshop.Proofs.Execution.Progress

namespace Workshop

variable {Q : Type}

/-! ### The front of production -/

variable [Quantity Q]

/-- Everything before the front is complete, the wave at the front is ready, and
    everything else waits. -/
structure Front (w : Workset Q) (done : List (Operation Q)) (a : Operation Q)
    (rest : List (Operation Q)) : Prop extends Workset.Lined w done (a :: rest) where
  rest_status : ∀ op ∈ a :: rest,
    op.status = if op.groupKey = a.groupKey then .ready else .pending

namespace Front

variable {w : Workset Q} {done rest : List (Operation Q)} {a : Operation Q}

theorem ready (front : Front w done a rest) : a.status = .ready := by
  rw [front.rest_status a List.mem_cons_self, if_pos rfl]

/-- A release before which everything that is left waited makes a front. -/
theorem of_release (h : Workset.Lined w done (a :: rest))
    (waits : ∀ op ∈ a :: rest, op.status = .pending) :
    ∃ b later, Front w.releaseActiveWave.1 done b later ∧
      plans (b :: later) = plans (a :: rest) := by
  have key_eq (op : Operation Q) : (op.released a.groupKey).groupKey = op.groupKey :=
    Operation.groupKey_eq_of_job (op.released_job a.groupKey)
  have hwave := h.activeWave (by simp [waits a List.mem_cons_self])
  refine ⟨a.released a.groupKey, rest.map (Operation.released a.groupKey), ⟨h.release hwave, ?_⟩,
    plans_eq_of_map_job (by simp [Function.comp_def])⟩
  intro op hop
  rw [← List.map_cons] at hop
  obtain ⟨x, hx, rfl⟩ := List.mem_map.mp hop
  rw [key_eq, key_eq]
  by_cases hk : x.groupKey = a.groupKey <;>
    simp [Operation.released, Workset.awaits, hk, waits x hx]

end Front

/-- Production is stuck where the wave at the front is not the one that is ready. -/
theorem not_neverWedges_of_left {v : Workset Q} {done rest : List (Operation Q)}
    {b : Operation Q} {key : String} (h : Workset.Lined v done (b :: rest))
    (hrest : ∀ op ∈ b :: rest, op.status = if op.groupKey = key then .ready else .pending)
    (hk : b.groupKey ≠ key) : ¬ v.NeverWedges := by
  intro never
  have hact := h.activeWave (by simp [hrest b List.mem_cons_self, hk])
  have status (op : Operation Q) (hop : op ∈ v.operations) :
      op.status = .complete ∨ op.status = .ready ∧ op.groupKey = key ∨ op.status = .pending := by
    rw [h.operations] at hop
    rcases List.mem_append.mp hop with hop | hop
    · exact Or.inl (h.done_complete op hop)
    · have hs := hrest op hop
      by_cases hkey : op.groupKey = key
      · rw [if_pos hkey] at hs
        exact Or.inr (Or.inl ⟨hs, hkey⟩)
      · rw [if_neg hkey] at hs
        exact Or.inr (Or.inr hs)
  have unfinished : v.order.status ≠ .complete := by
    intro hc
    have active := h.active
    rw [hc] at active
    cases active
  have unheld : ∀ op ∈ v.operations, op.status ≠ .onHold := by
    intro op hop
    rcases status op hop with h | ⟨h, -⟩ | h <;> simp [h]
  obtain ⟨op, hop, report, now, w', ⟨ready, accepted⟩ | ⟨busy, -, -⟩⟩ := never [] unfinished unheld
  · cases Workset.step_of_accepts accepted with
    | start located active waits wave =>
      rw [Workset.run_nil, Workset.operation?_of_mem h.distinct hop] at located
      cases located
      rw [Workset.run_nil, hact] at wave
      rcases status op hop with h | ⟨-, h⟩ | h
      · rw [ready] at h
        cases h
      · exact hk ((Option.some.inj wave).trans h)
      · rw [ready] at h
        cases h
  · rcases status op hop with h | ⟨h, -⟩ | h <;> rw [busy] at h <;> cases h

namespace Front

variable {w : Workset Q} {done rest : List (Operation Q)} {a b : Operation Q}
  [Quantity.Ordered Q]

/-- The front moves on by one operation, and a wave that has been left does not come
    back, unless production gets stuck. -/
theorem advance (front : Front w done a (b :: rest)) (never : w.NeverWedges) :
    (b.groupKey ≠ a.groupKey → ∀ op ∈ b :: rest, op.groupKey ≠ a.groupKey) ∧
      ∃ (calls : List (Call Q)) (done' : List (Operation Q)) (b' : Operation Q)
        (rest' : List (Operation Q)), Front (w.run calls) done' b' rest' ∧
          plans (b' :: rest') = plans (b :: rest) := by
  obtain ⟨calls, v, a', hrun, hlined⟩ := front.work front.ready
  have never := never.run calls
  rw [hrun] at never
  have hrest : ∀ op ∈ b :: rest,
      op.status = if op.groupKey = a.groupKey then .ready else .pending :=
    fun op hop => front.rest_status op (List.mem_cons_of_mem a hop)
  have incomplete {op : Operation Q} (hop : op ∈ b :: rest) : op.status ≠ .complete := by
    rw [hrest op hop]
    split <;> simp
  rcases v.settle_cases a.groupKey (.midnight .first) with ⟨hall, -⟩ | ⟨-, hwave, hv⟩ | ⟨-, hv⟩
  · exact absurd (hall b (hlined.mem List.mem_cons_self)) (incomplete List.mem_cons_self)
  · -- the wave is complete: the next one is released
    have other : ∀ op ∈ b :: rest, op.groupKey ≠ a.groupKey :=
      fun op hop hk => incomplete hop (hwave op (hlined.mem hop) hk)
    refine ⟨fun _ => other, ?_⟩
    have waits : ∀ op ∈ b :: rest, op.status = .pending := by
      intro op hop
      rw [hrest op hop, if_neg (other op hop)]
    obtain ⟨b', rest', hfront, hplans⟩ := of_release hlined waits
    rw [← hv, ← hrun] at hfront
    exact ⟨calls, _, b', rest', hfront, hplans⟩
  · -- the wave goes on: either at the front, or production is stuck
    rw [hv] at never hrun
    by_cases hk : b.groupKey = a.groupKey
    · refine ⟨fun hne => absurd hk hne, calls, done ++ [a'], b, rest, ?_, rfl⟩
      rw [hrun]
      exact ⟨hlined, by rwa [hk]⟩
    · exact absurd never (not_neverWedges_of_left hlined hrest hk)

end Front

/-! ### Explosions that never wedge -/

omit [Quantity Q] in
theorem WavesContiguous.cons {d e : Draft Q} {ds : List (Draft Q)}
    (sorted : (d :: e :: ds).Pairwise fun x y => x.sequence < y.sequence)
    (h : WavesContiguous (e :: ds))
    (left : e.groupKey ≠ d.groupKey → ∀ r ∈ e :: ds, r.groupKey ≠ d.groupKey) :
    WavesContiguous (d :: e :: ds) := by
  intro p hp q hq r hr hk hpq hqr
  have later {x : Draft Q} (hx : x ∈ d :: e :: ds) (hlt : d.sequence < x.sequence) :
      x ∈ e :: ds := by
    rcases List.mem_cons.mp hx with rfl | hx
    · omega
    · exact hx
  rcases List.mem_cons.mp hp with rfl | hp
  · have hq := later hq hpq
    have hr := later hr (by omega)
    by_cases he : e.groupKey = p.groupKey
    · rcases List.mem_cons.mp hq with rfl | hq'
      · exact he
      · have heq := List.rel_of_pairwise_cons sorted.of_cons hq'
        rw [← he] at hk ⊢
        exact h e List.mem_cons_self q hq r hr hk heq hqr
    · exact absurd hk.symm (left he r hr)
  · have hdp := List.rel_of_pairwise_cons sorted hp
    exact h p hp q (later hq (by omega)) r (later hr (by omega)) hk hpq hqr

section Lawful

variable [Quantity.Ordered Q]

theorem wavesContiguous_of_front {w : Workset Q} {done rest : List (Operation Q)}
    {a : Operation Q} (front : Front w done a rest) (never : w.NeverWedges) :
    WavesContiguous (plans (a :: rest)) := by
  -- the induction is on what is left, up to the states of its operations
  generalize hds : plans (a :: rest) = ds
  induction ds generalizing w done a rest with
  | nil => cases hds
  | cons d ds ih =>
    obtain ⟨hd, htail⟩ := List.cons.inj hds
    cases rest with
    | nil =>
      rw [← htail]
      intro p hp q hq r hr hk hpq hqr
      rw [List.mem_singleton.mp hp, List.mem_singleton.mp hq] at hpq
      omega
    | cons b rest =>
      obtain ⟨left, calls, done', b', rest', hfront, hplans⟩ := front.advance never
      have tail : WavesContiguous ds := ih hfront (never.run calls) (hplans.trans htail)
      have sorted : (plans (a :: b :: rest)).Pairwise fun x y => x.sequence < y.sequence :=
        List.pairwise_map.mpr front.sorted
      rw [← htail] at tail ⊢
      rw [← hd]
      refine tail.cons sorted fun hk r hr => ?_
      have hr : r ∈ plans (b :: rest) := hr
      obtain ⟨op, hop, rfl⟩ := List.mem_map.mp hr
      exact left hk op hop

variable {settings : ExplosionSettings} {source : MasterSource Q} {order : Order Q}
  {drafts : List (Draft Q)} (identify : Draft Q → String)

theorem neverWedges_of_contiguous (exploded : explode settings source order = .ok drafts)
    (nonempty : drafts ≠ []) (distinct : (drafts.map identify).Nodup)
    (contiguous : WavesContiguous drafts) :
    (Production.firstWave { order with status := .released } drafts identify).NeverWedges := by
  have sorted := explode_sorted exploded
  have hplans := plans_releasedWorkset order drafts identify
  rw [firstWave_eq order identify sorted]
  apply Workset.neverWedges_of_wavesContiguous
  case fresh => exact fresh_releasedWorkset order drafts identify
  case apart =>
    rw [hplans]
    apply wavesApart_of_nodup
    exact List.pairwise_map.mpr (sorted.imp fun h => Int.ne_of_lt h)
  case contiguous => rwa [hplans]
  case distinct => exact distinctIds_releasedWorkset order distinct
  case positive => exact explode_quantity exploded
  case active => rfl
  case nonempty => simpa [releasedWorkset] using nonempty

theorem contiguous_of_neverWedges (exploded : explode settings source order = .ok drafts)
    (distinct : (drafts.map identify).Nodup)
    (never :
      (Production.firstWave { order with status := .released } drafts identify).NeverWedges) :
    WavesContiguous drafts := by
  have sorted := explode_sorted exploded
  rw [firstWave_eq order identify sorted] at never
  cases drafts with
  | nil => simp [WavesContiguous]
  | cons d ds =>
    have fresh := fresh_releasedWorkset order (d :: ds) identify
    obtain ⟨b, later, hfront, hplans⟩ :=
      Front.of_release (lined_releasedWorkset exploded distinct) fresh.waiting
    have contiguous := wavesContiguous_of_front hfront never
    have hdrafts := hplans.trans (plans_releasedWorkset order (d :: ds) identify)
    rwa [hdrafts] at contiguous

/-- **An exploded order never wedges exactly when the drafts of each wave follow one
    another**, whatever the master data are. -/
theorem neverWedges_iff (exploded : explode settings source order = .ok drafts)
    (nonempty : drafts ≠ []) (distinct : (drafts.map identify).Nodup) :
    (Production.firstWave { order with status := .released } drafts identify).NeverWedges ↔
      WavesContiguous drafts :=
  ⟨contiguous_of_neverWedges identify exploded distinct,
    neverWedges_of_contiguous identify exploded nonempty distinct⟩

end Lawful

theorem neverWedges_iff_pump :
    explode .standard pumpSource pumpOrder = .ok pumpDrafts ∧ pumpDrafts ≠ [] ∧
      (pumpDrafts.map pumpId).Nodup ∧
      ((Production.firstWave { pumpOrder with status := .released } pumpDrafts pumpId).NeverWedges ↔
        WavesContiguous pumpDrafts) := by
  have nonempty : pumpDrafts ≠ [] := by simp [pumpDrafts]
  have distinct : (pumpDrafts.map pumpId).Nodup := by decide
  exact ⟨explode_pump, nonempty, distinct, neverWedges_iff pumpId explode_pump nonempty distinct⟩

/-- The pump has a washer between its two bolts, and so its production gets stuck. -/
theorem pump_wedges :
    explode .standard pumpSource pumpOrder = .ok pumpDrafts ∧ pumpDrafts ≠ [] ∧
      (pumpDrafts.map pumpId).Nodup ∧
      ¬ (Production.firstWave { pumpOrder with status := .released } pumpDrafts
        pumpId).NeverWedges := by
  have nonempty : pumpDrafts ≠ [] := by simp [pumpDrafts]
  have distinct : (pumpDrafts.map pumpId).Nodup := by decide
  refine ⟨explode_pump, nonempty, distinct, fun never => ?_⟩
  have contiguous := contiguous_of_neverWedges pumpId explode_pump distinct never
  revert contiguous
  unfold WavesContiguous
  decide

end Workshop
