/-
  Workshop/Proofs/Execution/AssemblyWaits.lean
  ============================================
  **What an assembly waits for.**  Its own operations ought to wait for all operations of
  its components, and its inspections for the rest of its own work (`AssemblyWaits`).

  Waves are known by their names only, and the names of components, cut to a length, come
  from the same texts as `ASSEMBLY` and `INSPECT`.  So the assembly waits in every run
  exactly when no component has the name of a wave of the assembly's own
  (`assemblyWaits_iff`).  Where a name is shared, the run works off everything before the
  component of that name; then its wave is the active one, and an own operation of the
  same name is ready beside it.
-/
import Workshop.Proofs.Execution.Progress

namespace Workshop

open Explosion

variable {Q : Type}

/-- The own operations of an assembly wait for its components, and its inspections wait for
    its work. -/
structure AssemblyWaits (w : Workset Q) : Prop where
  components : ∀ op ∈ w.operations, op.componentPartId = none →
    op.status = .ready ∨ op.status = .inProgress →
      ∀ x ∈ w.operations, x.componentPartId ≠ none → x.status = .complete
  work : ∀ op ∈ w.operations, op.componentPartId = none → op.isInspection = true →
    op.status = .ready ∨ op.status = .inProgress →
      ∀ x ∈ w.operations, x.componentPartId = none → x.isInspection = false → x.status = .complete

/-- No component has the name of a wave of the assembly's own. -/
def NamesApart (drafts : List (Draft Q)) : Prop :=
  ∀ own ∈ drafts, ∀ component ∈ drafts, own.componentPartId = none →
    component.componentPartId ≠ none → own.operationGroup ≠ component.operationGroup

/-! ### Names apart -/

namespace Explosion.BomDrafts

variable {drafts components work inspections : List (Draft Q)}

theorem mem_components (shape : BomDrafts drafts components work inspections) {d : Draft Q}
    (hd : d ∈ drafts) (hc : d.componentPartId ≠ none) : d ∈ components := by
  rw [shape.split] at hd
  rcases List.mem_append.mp hd with hd | hd
  · exact hd
  · rcases List.mem_append.mp hd with hd | hd
    · exact absurd (shape.of_work d hd).1 hc
    · exact absurd (shape.of_inspections d hd).1 hc

theorem mem_own (shape : BomDrafts drafts components work inspections) {d : Draft Q}
    (hd : d ∈ drafts) (ho : d.componentPartId = none) : d ∈ work ∨ d ∈ inspections := by
  rw [shape.split] at hd
  rcases List.mem_append.mp hd with hd | hd
  · obtain ⟨part, group, hpart, -⟩ := shape.of_components d hd
    rw [ho] at hpart
    cases hpart
  · exact List.mem_append.mp hd

theorem component_lt_own (shape : BomDrafts drafts components work inspections) {c d : Draft Q}
    (hc : c ∈ components) (hd : d ∈ work ∨ d ∈ inspections) : c.sequence < d.sequence := by
  have sorted := shape.sorted
  rw [shape.split] at sorted
  exact (List.pairwise_append.mp sorted).2.2 c hc d (List.mem_append.mpr hd)

theorem work_lt_inspection (shape : BomDrafts drafts components work inspections)
    {c d : Draft Q} (hc : c ∈ work) (hd : d ∈ inspections) : c.sequence < d.sequence := by
  have sorted := shape.sorted
  rw [shape.split] at sorted
  exact (List.pairwise_append.mp (List.pairwise_append.mp sorted).2.1).2.2 c hc d hd

/-- The own drafts of an assembly stand behind every component. -/
theorem own_mem_after (shape : BomDrafts drafts components work inspections)
    {before after : List (Draft Q)} {own c : Draft Q} (hdrafts : drafts = before ++ c :: after)
    (hc : c.componentPartId ≠ none) (hown : own ∈ drafts) (ho : own.componentPartId = none) :
    own ∈ after := by
  have hlt := shape.component_lt_own (shape.mem_components (by simp [hdrafts]) hc)
    (shape.mem_own hown ho)
  have sorted := shape.sorted
  rw [hdrafts] at hown sorted
  rcases List.mem_append.mp hown with h | h
  · have := (List.pairwise_append.mp sorted).2.2 own h c List.mem_cons_self
    omega
  · rcases List.mem_cons.mp h with rfl | h
    · omega
    · exact h

theorem groupKey_eq_of_group (shape : BomDrafts drafts components work inspections)
    {own c : Draft Q} (hc : c ∈ components) (hgroup : own.operationGroup = c.operationGroup) :
    c.groupKey = own.groupKey := by
  obtain ⟨part, group, -, hnamed⟩ := shape.of_components c hc
  simp only [Draft.groupKey, hgroup, hnamed]

/-- With names apart, a draft in a wave of the assembly's own is one of its own. -/
theorem own_of_groupKey (shape : BomDrafts drafts components work inspections)
    (apart : NamesApart drafts) {own d : Draft Q} (hown : own ∈ drafts)
    (ho : own.componentPartId = none) (hd : d ∈ drafts) (hk : d.groupKey = own.groupKey) :
    d.componentPartId = none := by
  by_contra hc
  obtain ⟨part, group, -, hgroup⟩ := shape.of_components d (shape.mem_components hd hc)
  apply apart own hown d hd ho hc
  rcases shape.mem_own hown ho with h | h
  · have hown := (shape.of_work own h).2.1
    simp only [Draft.groupKey, hgroup, hown] at hk
    rw [hgroup, hown, hk]
  · have hown := (shape.of_inspections own h).2.1
    simp only [Draft.groupKey, hgroup, hown] at hk
    rw [hgroup, hown, hk]

theorem beforeWave_component (shape : BomDrafts drafts components work inspections)
    (apart : NamesApart drafts) {own c : Draft Q} (hown : own ∈ drafts)
    (ho : own.componentPartId = none) (hc : c ∈ drafts) (hcomponent : c.componentPartId ≠ none) :
    BeforeWave drafts c.sequence own.groupKey := by
  intro d hd hk
  have hdown := shape.own_of_groupKey apart hown ho hd hk
  exact shape.component_lt_own (shape.mem_components hc hcomponent) (shape.mem_own hd hdown)

theorem beforeWave_work (shape : BomDrafts drafts components work inspections)
    (apart : NamesApart drafts) {own x : Draft Q} (hown : own ∈ drafts)
    (ho : own.componentPartId = none) (hi : own.isInspection = true) (hx : x ∈ drafts)
    (hxo : x.componentPartId = none) (hxi : x.isInspection = false) :
    BeforeWave drafts x.sequence own.groupKey := by
  have hown_mem : own ∈ inspections := by
    refine (shape.mem_own hown ho).resolve_left fun h => ?_
    rw [(shape.of_work own h).2.2] at hi
    cases hi
  have hx_mem : x ∈ work := by
    refine (shape.mem_own hx hxo).resolve_right fun h => ?_
    rw [(shape.of_inspections x h).2.2] at hxi
    cases hxi
  intro d hd hk
  refine shape.work_lt_inspection hx_mem ?_
  refine (shape.mem_own hd (shape.own_of_groupKey apart hown ho hd hk)).resolve_left fun h => ?_
  simp only [Draft.groupKey, (shape.of_work d h).2.1, (shape.of_inspections own hown_mem).2.1] at hk
  exact absurd hk (by decide)

end Explosion.BomDrafts

theorem assemblyWaits_of_gated {w : Workset Q}
    {components work inspections : List (Draft Q)} (gated : Gated w.operations)
    (shape : BomDrafts (plans w.operations) components work inspections)
    (apart : NamesApart (plans w.operations)) : AssemblyWaits w := by
  have admitted {op : Operation Q} (h : op.status = .ready ∨ op.status = .inProgress) :
      op.Admitted := by
    rcases h with h | h
    · exact Or.inl h
    · exact Or.inr (Or.inl h)
  constructor
  case components =>
    intro op hop ho hs x hx hc
    exact gated op hop (admitted hs) x hx
      (shape.beforeWave_component apart (plan_mem_plans hop) ho (plan_mem_plans hx) hc)
  case work =>
    intro op hop ho hi hs x hx hxo hxi
    exact gated op hop (admitted hs) x hx
      (shape.beforeWave_work apart (plan_mem_plans hop) ho hi (plan_mem_plans hx) hxo hxi)

/-! ### Names shared -/

variable [Quantity Q]

/-- What is done is complete, and what remains has not begun. -/
structure Remaining (w : Workset Q) (done rest : List (Operation Q)) : Prop
    extends Workset.Lined w done rest where
  rest_unbegun : ∀ op ∈ rest, (op.status = .pending ∨ op.status = .ready) ∧ op.hasStarted = false

namespace Remaining

variable {w : Workset Q} {done rest : List (Operation Q)}

theorem incomplete (h : Remaining w done rest) {op : Operation Q} (hop : op ∈ rest) :
    op.status ≠ .complete := by
  rcases (h.rest_unbegun op hop).1 with h | h <;> simp [h]

/-- What remains still remains after the release of a wave. -/
theorem exists_release (h : Remaining w done rest) :
    ∃ rest', Remaining w.releaseActiveWave.1 done rest' ∧ plans rest' = plans rest := by
  cases hkey : w.waves.activeWave with
  | none => exact ⟨rest, by rwa [Workset.release_eq_self hkey], rfl⟩
  | some key =>
    refine ⟨rest.map (Operation.released key), ⟨h.release hkey, ?_⟩,
      plans_eq_of_map_job (by simp [Function.comp_def])⟩
    intro op hop
    obtain ⟨x, hx, rfl⟩ := List.mem_map.mp hop
    obtain ⟨hs, hb⟩ := h.rest_unbegun x hx
    unfold Operation.released
    split
    · exact ⟨Or.inr rfl, hb⟩
    · exact ⟨hs, hb⟩

/-- One of the remaining operations may be changed, as long as it has not begun. -/
theorem change {mid post : List (Operation Q)} {op new : Operation Q} {v : Workset Q}
    (h : Remaining w done (mid ++ op :: post)) (hlined : v.Lined done (mid ++ new :: post))
    (hs : new.status = .pending ∨ new.status = .ready) (hb : new.hasStarted = false) :
    Remaining v done (mid ++ new :: post) := by
  refine ⟨hlined, ?_⟩
  intro x hx
  rcases mem_middle_iff.mp hx with rfl | hx
  · exact ⟨hs, hb⟩
  · exact h.rest_unbegun x (mem_middle_iff.mpr (Or.inr hx))

/-- The wave at the front is the active one also while one of its operations is on hold. -/
theorem activeWave_of_changed {mid post : List (Operation Q)} {op held : Operation Q}
    {v : Workset Q} (h : Remaining w done (mid ++ op :: post))
    (front : ∀ x, mid.head? = some x → x.groupKey = op.groupKey)
    (hlined : v.Lined done (mid ++ held :: post)) (hjob : held.job = op.job)
    (hc : held.status ≠ .complete) : v.waves.activeWave = some held.groupKey := by
  cases mid with
  | nil => exact hlined.activeWave hc
  | cons m mid =>
    rw [Operation.groupKey_eq_of_job hjob, ← front m rfl]
    exact hlined.activeWave (h.incomplete (by simp))

/-- An operation of the wave at the front is made ready by putting it on hold and taking it
    off again. -/
theorem wake {mid post : List (Operation Q)} {op : Operation Q}
    (h : Remaining w done (mid ++ op :: post))
    (front : ∀ x, mid.head? = some x → x.groupKey = op.groupKey) :
    ∃ (calls : List (Call Q)) (op' : Operation Q), op'.status = .ready ∧ op'.job = op.job ∧
      Remaining (w.run calls) done (mid ++ op' :: post) := by
  obtain ⟨hs, hb⟩ := h.rest_unbegun op (by simp)
  let now : Instant := .midnight .first
  let held := op.put .onHold .blank
  have hops : w.operations = (done ++ mid) ++ op :: post := by
    rw [h.operations, List.append_assoc]
  have first : w.Step ⟨op.operationId, .hold, .blank, now⟩ (w.setOperation op.operationId held) :=
    .hold (Workset.operation?_middle h.distinct hops) (by rcases hs with h | h <;> simp [h])
  have hjob : held.job = op.job := op.put_job .onHold .blank
  have hops1 := Workset.setOperation_middle h.distinct hops held
  have horder : (w.setOperation op.operationId held).order = w.order := rfl
  generalize w.setOperation op.operationId held = w1 at first hops1 horder
  have hlined1 : w1.Lined done (mid ++ held :: post) :=
    h.replace (by rw [hops1, List.append_assoc]) (by simp [hjob]) horder
  -- the operation on hold is in the active wave, and it has not begun
  have wave := h.activeWave_of_changed front hlined1 hjob (by simp [held])
  have resumed : w1.resumed held = .ready := by
    unfold Workset.resumed
    rw [if_neg (by simpa [held, Operation.hasStarted] using hb), if_pos wave]
  let back := held.put (w1.resumed held) .blank
  have second : w1.Step ⟨held.operationId, .resume, .blank, now⟩
      (w1.setOperation held.operationId back) :=
    .resume (Workset.operation?_middle hlined1.distinct hops1) (by simp [held])
  have hback : back.job = held.job := held.put_job _ .blank
  have hready : back.status = .ready := by simp [back, resumed]
  have hops2 := Workset.setOperation_middle hlined1.distinct hops1 back
  have hlined2 : (w1.setOperation held.operationId back).Lined done (mid ++ back :: post) :=
    hlined1.replace (by rw [hops2, List.append_assoc]) (by simp [hback]) rfl
  have hnext := h.change hlined2 (Or.inr hready)
    (by simpa [back, held, Operation.hasStarted] using hb)
  rw [← Workset.run_pair_of_steps first second] at hnext
  exact ⟨_, back, hready, hback.trans hjob, hnext⟩

variable [Quantity.Ordered Q]

/-- The operation at the front can be worked off, whether its wave has been released or
    not. -/
theorem exists_next {a b : Operation Q} (h : Remaining w done (a :: b :: rest)) :
    ∃ (calls : List (Call Q)) (done' rest' : List (Operation Q)),
      Remaining (w.run calls) done' rest' ∧ plans rest' = plans (b :: rest) := by
  have h : Remaining w done ([] ++ a :: b :: rest) := h
  obtain ⟨first, a', ready, -, h⟩ := h.wake (by simp)
  obtain ⟨second, v, a'', hrun, hlined⟩ := h.work ready
  rw [← Workset.run_append] at hrun
  have hv : Remaining v (done ++ [a'']) (b :: rest) :=
    ⟨hlined, fun op hop => h.rest_unbegun op (List.mem_cons_of_mem a' hop)⟩
  rcases v.settle_cases a'.groupKey (.midnight .first) with ⟨hall, -⟩ | ⟨-, -, hs⟩ | ⟨-, hs⟩
  · exact absurd (hall b (hv.mem List.mem_cons_self)) (hv.incomplete List.mem_cons_self)
  · obtain ⟨rest', hrest, hplans⟩ := hv.exists_release
    rw [← hs, ← hrun] at hrest
    exact ⟨_, _, rest', hrest, hplans⟩
  · rw [hs] at hrun
    rw [← hrun] at hv
    exact ⟨_, _, _, hv, rfl⟩

/-- Everything before a draft can be worked off. -/
theorem exists_front {pre post : List (Draft Q)} {d : Draft Q} (h : Remaining w done rest)
    (hplans : plans rest = pre ++ d :: post) :
    ∃ (calls : List (Call Q)) (done' rest' : List (Operation Q)),
      Remaining (w.run calls) done' rest' ∧ plans rest' = d :: post := by
  induction pre generalizing w done rest with
  | nil => exact ⟨[], done, rest, h, hplans⟩
  | cons e pre ih =>
    cases rest with
    | nil => cases hplans
    | cons a rest =>
      obtain ⟨-, hplans⟩ := List.cons.inj hplans
      cases rest with
      | nil => simp at hplans
      | cons b rest =>
        obtain ⟨first, done', rest', h, hrest⟩ := h.exists_next
        obtain ⟨second, done'', rest'', h, hrest'⟩ := ih h (hrest.trans hplans)
        rw [← Workset.run_append] at h
        exact ⟨_, done'', rest'', h, hrest'⟩

omit [Quantity.Ordered Q] in
/-- An own operation in the wave of a component at the front does not wait for it. -/
theorem not_assemblyWaits {component own : Draft Q} {post : List (Draft Q)}
    (h : Remaining w done rest) (hplans : plans rest = component :: post) (hown : own ∈ post)
    (hc : component.componentPartId ≠ none) (ho : own.componentPartId = none)
    (hkey : component.groupKey = own.groupKey) :
    ∃ calls : List (Call Q), ¬ AssemblyWaits (w.run calls) := by
  cases rest with
  | nil => cases hplans
  | cons x tail =>
    obtain ⟨hx, htail⟩ := List.cons.inj hplans
    rw [← htail] at hown
    obtain ⟨op, hop, hplan⟩ := List.mem_map.mp hown
    obtain ⟨mid, after, rfl⟩ := List.append_of_mem hop
    have h : Remaining w done ((x :: mid) ++ op :: after) := h
    have front : ∀ y, (x :: mid).head? = some y → y.groupKey = op.groupKey := by
      intro y hy
      cases hy
      change x.plan.groupKey = op.plan.groupKey
      rw [hx, hplan]
      exact hkey
    obtain ⟨calls, op', hready, hjob, hwoken⟩ := h.wake front
    refine ⟨calls, fun waits => ?_⟩
    have hops := hwoken.operations
    have hop' : op'.componentPartId = none := by
      have hplan' : op'.plan = own := (congrArg Job.plan hjob).trans hplan
      exact (congrArg Draft.componentPartId hplan').trans ho
    have hx' : x.componentPartId ≠ none := by
      rw [← hx] at hc
      exact hc
    have hdone := waits.components op' (by simp [hops]) hop' (Or.inl hready) x (by simp [hops]) hx'
    exact hwoken.incomplete (by simp) hdone

end Remaining

/-! ### Exploded assemblies -/

section Exploded

variable {settings : ExplosionSettings} {source : MasterSource Q} {order : Order Q}
  {drafts : List (Draft Q)} {identify : Draft Q → String}

theorem assemblyWaits_of_namesApart {components work inspections : List (Draft Q)}
    (shape : BomDrafts drafts components work inspections) (apart : NamesApart drafts)
    (calls : List (Call Q)) :
    AssemblyWaits
      ((Production.firstWave { order with status := .released } drafts identify).run calls) := by
  rw [firstWave_eq order identify shape.sorted]
  have hplans : plans ((releasedWorkset order drafts identify).releaseActiveWave.1.run
      calls).operations = drafts := by
    rw [Workset.plans_run, plans_eq_of_map_job (Workset.map_job_release _)]
    exact plans_releasedWorkset order drafts identify
  have gated := gated_release (fresh_releasedWorkset order drafts identify).gated
  rw [← hplans] at shape apart
  exact assemblyWaits_of_gated (Workset.gated_run gated calls) shape apart

theorem remaining_releasedWorkset (exploded : explode settings source order = .ok drafts)
    (distinct : (drafts.map identify).Nodup) :
    ∃ rest, Remaining (releasedWorkset order drafts identify).releaseActiveWave.1 [] rest ∧
      plans rest = drafts := by
  have fresh := fresh_releasedWorkset order drafts identify
  have start : Remaining (releasedWorkset order drafts identify) []
      (releasedWorkset order drafts identify).operations := by
    refine ⟨lined_releasedWorkset exploded distinct, ?_⟩
    intro op hop
    exact ⟨Or.inl (fresh.waiting op hop), by simp [Operation.hasStarted, fresh.unbegun op hop]⟩
  obtain ⟨rest, start, hrest⟩ := start.exists_release
  exact ⟨rest, start, hrest.trans (plans_releasedWorkset order drafts identify)⟩

theorem namesApart_of_assemblyWaits [Quantity.Ordered Q]
    {components work inspections : List (Draft Q)}
    (exploded : explode settings source order = .ok drafts)
    (shape : BomDrafts drafts components work inspections) (distinct : (drafts.map identify).Nodup)
    (waits : ∀ calls, AssemblyWaits
      ((Production.firstWave { order with status := .released } drafts identify).run calls)) :
    NamesApart drafts := by
  rw [firstWave_eq order identify shape.sorted] at waits
  intro own hown component hcomponent ho hc hgroup
  have hkey := shape.groupKey_eq_of_group (shape.mem_components hcomponent hc) hgroup
  obtain ⟨before, after, hdrafts⟩ := List.append_of_mem hcomponent
  have hafter := shape.own_mem_after hdrafts hc hown ho
  -- everything before the component is worked off, and then its wave is the active one
  obtain ⟨rest, start, hrest⟩ := remaining_releasedWorkset exploded distinct
  obtain ⟨first, done, rest', hremaining, hrest'⟩ := start.exists_front (hrest.trans hdrafts)
  obtain ⟨second, hnot⟩ := hremaining.not_assemblyWaits hrest' hafter hc ho hkey
  rw [← Workset.run_append] at hnot
  exact hnot (waits (first ++ second))

/-- **The assembly waits in every run exactly when no component has the name of a wave of
    the assembly's own**, whatever the master data and the settings are. -/
theorem assemblyWaits_iff [Quantity.Ordered Q] {part : Part} {bom : Bom}
    {items : List (BomItem Q)} (hpart : source.part order.partId = .ok (some part))
    (assembly : part.isAssembly = true)
    (hbom : source.activeBom part.partId = .ok (some (bom, items)))
    (exploded : explode settings source order = .ok drafts)
    (distinct : (drafts.map identify).Nodup) :
    (∀ calls, AssemblyWaits
      ((Production.firstWave { order with status := .released } drafts identify).run calls)) ↔
      NamesApart drafts := by
  obtain ⟨components, work, inspections, shape⟩ := explode_bom hpart assembly hbom exploded
  exact ⟨namesApart_of_assemblyWaits exploded shape distinct,
    fun apart calls => assemblyWaits_of_namesApart shape apart calls⟩

end Exploded

theorem assemblyWaits_iff_pump :
    explode .standard pumpSource pumpOrder = .ok pumpDrafts ∧ (pumpDrafts.map pumpId).Nodup ∧
      ((∀ calls, AssemblyWaits ((Production.firstWave { pumpOrder with status := .released }
        pumpDrafts pumpId).run calls)) ↔ NamesApart pumpDrafts) := by
  have distinct : (pumpDrafts.map pumpId).Nodup := by decide
  exact ⟨explode_pump, distinct, assemblyWaits_iff rfl rfl rfl explode_pump distinct⟩

/-- The bolts of the pump have the name of the wave of its own work, which so does not wait
    for them. -/
theorem pump_does_not_wait :
    explode .standard pumpSource pumpOrder = .ok pumpDrafts ∧ (pumpDrafts.map pumpId).Nodup ∧
      ¬ ∀ calls, AssemblyWaits ((Production.firstWave { pumpOrder with status := .released }
        pumpDrafts pumpId).run calls) := by
  have distinct : (pumpDrafts.map pumpId).Nodup := by decide
  refine ⟨explode_pump, distinct, fun waits => ?_⟩
  obtain ⟨components, work, inspections, shape⟩ :=
    explode_bom (h := explode_pump) rfl rfl rfl
  have apart := namesApart_of_assemblyWaits explode_pump shape distinct waits
  revert apart
  unfold NamesApart
  decide

end Workshop
