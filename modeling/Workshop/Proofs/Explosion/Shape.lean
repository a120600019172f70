/-
  Workshop/Proofs/Explosion/Shape.lean
  ====================================
  **What an explosion gives.**  Whatever the master data, an explosion that succeeds was
  asked for a finite, positive quantity, and its drafts are numbered upwards
  (`explode_sorted`).

  An explosion along a bill of material has three parts (`explode_bom`): the drafts of
  the components, then the assembly's own work in the wave `ASSEMBLY`, then its own
  inspections in the wave `INSPECT`.
-/
import Workshop.Explosion.Drafts
import Workshop.Proofs.Execution.Calls
import Workshop.Quantity.Binary

namespace Workshop

/-- A choice between two computations that go on in the same way. -/
theorem ite_bind {ε α β : Type} {p : Prop} [Decidable p] {x y : Except ε α}
    {f : α → Except ε β} :
    (if p then x >>= f else y >>= f) = (if p then x else y) >>= f := by
  split <;> rfl

theorem ite_bind_eq_ok_iff {ε α β : Type} {p : Prop} [Decidable p] {x y : Except ε α}
    {f : α → Except ε β} {b : β} : (if p then x >>= f else y >>= f) = .ok b ↔
      ∃ a, (if p then x else y) = .ok a ∧ f a = .ok b := by
  rw [ite_bind]
  exact bind_eq_ok_iff

theorem exists_of_mem_mapM {ε α β : Type} {f : α → Except ε β} {xs : List α} {ys : List β}
    (h : xs.mapM f = .ok ys) {y : β} (hy : y ∈ ys) : ∃ x ∈ xs, f x = .ok y := by
  induction xs generalizing ys with
  | nil =>
    cases h
    cases hy
  | cons x xs ih =>
    rw [List.mapM_cons] at h
    obtain ⟨z, hz, h⟩ := bind_eq_ok_iff.mp h
    obtain ⟨zs, hzs, h⟩ := bind_eq_ok_iff.mp h
    cases h
    rcases List.mem_cons.mp hy with rfl | hy
    · exact ⟨x, List.mem_cons_self, hz⟩
    · obtain ⟨x', hx', hf⟩ := ih hzs hy
      exact ⟨x', List.mem_cons_of_mem x hx', hf⟩

variable {Q : Type}

namespace Explosion

/-! ### Numbering -/

/-- Numbers drafts that come behind `n` others. -/
def numberFrom (n : Nat) : List (Draft Q) → List (Draft Q)
  | [] => []
  | d :: ds => { d with sequence := ((n : Int) + 1) * sequenceStep } :: numberFrom (n + 1) ds

theorem number_eq (drafts : List (Draft Q)) : number drafts = numberFrom 0 drafts := by
  unfold number
  generalize 0 = n
  induction drafts generalizing n with
  | nil => rfl
  | cons d ds ih =>
    rw [List.zipIdx_cons, List.map_cons, ih]
    rfl

theorem numberFrom_append (n : Nat) (xs ys : List (Draft Q)) :
    numberFrom n (xs ++ ys) = numberFrom n xs ++ numberFrom (n + xs.length) ys := by
  induction xs generalizing n with
  | nil => rfl
  | cons x xs ih =>
    simp only [List.cons_append, numberFrom, ih, List.length_cons]
    rw [show n + 1 + xs.length = n + (xs.length + 1) by omega]

theorem exists_of_mem_numberFrom {n : Nat} {d : Draft Q} {drafts : List (Draft Q)}
    (h : d ∈ numberFrom n drafts) :
    ∃ e ∈ drafts, ∃ m, n < m ∧ d = { e with sequence := (m : Int) * sequenceStep } := by
  induction drafts generalizing n with
  | nil => cases h
  | cons x xs ih =>
    rcases List.mem_cons.mp h with rfl | h
    · exact ⟨x, List.mem_cons_self, n + 1, by omega, by simp⟩
    · obtain ⟨e, he, m, hm, rfl⟩ := ih h
      exact ⟨e, List.mem_cons_of_mem x he, m, by omega, rfl⟩

theorem numberFrom_sorted (n : Nat) (drafts : List (Draft Q)) :
    (numberFrom n drafts).Pairwise fun a b => a.sequence < b.sequence := by
  induction drafts generalizing n with
  | nil => exact .nil
  | cons d ds ih =>
    refine .cons (fun b hb => ?_) (ih (n + 1))
    obtain ⟨e, -, m, hm, rfl⟩ := exists_of_mem_numberFrom hb
    simp only [sequenceStep]
    omega

theorem number_sequences (drafts : List (Draft Q)) :
    (number drafts).map (·.sequence) =
      (List.range (number drafts).length).map fun i : Nat => ((i : Int) + 1) * sequenceStep := by
  apply List.ext_getElem
  · simp
  · intro i h1 h2
    simp [number]

/-! ### Drafts of components and of the assembly itself -/

theorem classified_singleton {settings : ExplosionSettings} {source : MasterSource Q}
    {op : RoutingOperation Q} {verdict : Bool}
    (h : isInspection settings source op = .ok verdict) :
    classified settings source [op] = .ok [(op, verdict)] := by
  unfold classified sortedOperations
  rw [List.mergeSort_singleton, List.mapM_cons, h]
  rfl

/-- The draft belongs to a component, in a wave that has a name. -/
def IsComponent (d : Draft Q) : Prop :=
  ∃ part group, d.componentPartId = some part ∧ d.operationGroup = some group

/-- The draft belongs to the assembly itself, in a wave of a name, and has a verdict. -/
def IsOwn (group : String) (inspection : Bool) (d : Draft Q) : Prop :=
  d.componentPartId = none ∧ d.operationGroup = some group ∧ d.isInspection = inspection

/-- The drafts of an assembly: those of its components, then its own work, then its own
    inspections. -/
structure BomDrafts (drafts components work inspections : List (Draft Q)) : Prop where
  split : drafts = components ++ (work ++ inspections)
  sorted : drafts.Pairwise fun a b => a.sequence < b.sequence
  of_components : ∀ d ∈ components, IsComponent d
  of_work : ∀ d ∈ work, IsOwn assemblyGroup false d
  of_inspections : ∀ d ∈ inspections, IsOwn inspectGroup true d

variable [Quantity Q]

theorem isComponent_of_itemDrafts {settings : ExplosionSettings} {source : MasterSource Q}
    {ordered : Q} {item : BomItem Q} {drafts : List (Draft Q)}
    (h : itemDrafts settings source ordered item = .ok drafts) {d : Draft Q} (hd : d ∈ drafts) :
    IsComponent d := by
  unfold itemDrafts at h
  obtain ⟨found, -, h⟩ := bind_eq_ok_iff.mp h
  cases found with
  | none =>
    cases h
    cases hd
  | some routing =>
    obtain ⟨group, -, h⟩ := bind_eq_ok_iff.mp h
    obtain ⟨ops, -, h⟩ := bind_eq_ok_iff.mp h
    cases h
    obtain ⟨p, -, rfl⟩ := List.mem_map.mp hd
    exact ⟨item.componentPartId, group, rfl, rfl⟩

theorem ownDrafts_split {settings : ExplosionSettings} {source : MasterSource Q} {ordered : Q}
    {ops : List (RoutingOperation Q)} {drafts : List (Draft Q)}
    (h : ownDrafts settings source ordered ops = .ok drafts) :
    ∃ work inspections, drafts = work ++ inspections ∧
      (∀ d ∈ work, IsOwn assemblyGroup false d) ∧
      ∀ d ∈ inspections, IsOwn inspectGroup true d := by
  unfold ownDrafts at h
  obtain ⟨found, -, h⟩ := bind_eq_ok_iff.mp h
  cases h
  refine ⟨_, _, rfl, fun d hd => ?_, fun d hd => ?_⟩
  · obtain ⟨p, hp, rfl⟩ := List.mem_map.mp hd
    exact ⟨rfl, rfl, by simpa [draft] using (List.mem_filter.mp hp).2⟩
  · obtain ⟨p, hp, rfl⟩ := List.mem_map.mp hd
    exact ⟨rfl, rfl, (List.mem_filter.mp hp).2⟩

/-- What an explosion has looked up when it succeeds, and what it makes of that. -/
inductive Exploded (settings : ExplosionSettings) (source : MasterSource Q) (order : Order Q)
    (part : Part) : List (Draft Q) → Prop
  | routing {routing : Routing} {ops : List (RoutingOperation Q)}
      {found : List (RoutingOperation Q × Bool)}
      (no_bom : part.isAssembly = true → source.activeBom part.partId = .ok none)
      (own : source.releasedRouting part.partId = .ok (some (routing, ops)))
      (verdicts : classified settings source ops = .ok found) :
      Exploded settings source order part
        (number (found.map fun p => draft p.1 p.2 order.quantityOrdered none none))
  | bom {bom : Bom} {items : List (BomItem Q)} {components : List (List (Draft Q))}
      {own : Option (Routing × List (RoutingOperation Q))} {ownOnes : List (Draft Q)}
      (assembly : part.isAssembly = true)
      (has_bom : source.activeBom part.partId = .ok (some (bom, items)))
      (lines : (sortedItems items).mapM (itemDrafts settings source order.quantityOrdered) =
        .ok components)
      (released : source.releasedRouting part.partId = .ok own)
      (own_drafts : ∀ p, own = some p →
        ownDrafts settings source order.quantityOrdered p.2 = .ok ownOnes)
      (no_routing : own = none → ownOnes = []) :
      Exploded settings source order part (number (components.flatten ++ ownOnes))

end Explosion

open Explosion

variable [Quantity Q] {settings : ExplosionSettings} {source : MasterSource Q} {order : Order Q}
  {drafts : List (Draft Q)}

theorem explode_quantity (h : explode settings source order = .ok drafts) :
    Quantity.isFinite order.quantityOrdered = true ∧ ¬ order.quantityOrdered ≤ Quantity.zero := by
  unfold explode at h
  obtain ⟨_, hq, -⟩ := bind_eq_ok_iff.mp h
  unfold validateOrdered at hq
  split at hq
  · cases hq
  · rename_i hno
    simpa using hno

theorem exploded_of_explode (h : explode settings source order = .ok drafts) :
    ∃ part, orderedPart source order = .ok part ∧ Exploded settings source order part drafts := by
  unfold explode at h
  obtain ⟨_, -, h⟩ := bind_eq_ok_iff.mp h
  obtain ⟨part, hpart, h⟩ := bind_eq_ok_iff.mp h
  obtain ⟨own, hown, h⟩ := bind_eq_ok_iff.mp h
  refine ⟨part, hpart, ?_⟩
  obtain ⟨bom, hbom, h⟩ := ite_bind_eq_ok_iff.mp h
  cases bom with
  | none =>
    cases own with
    | none => cases h
    | some routing =>
      obtain ⟨found, hfound, h⟩ := bind_eq_ok_iff.mp h
      cases h
      exact .routing (fun ha => by rwa [if_pos ha] at hbom) hown hfound
  | some found =>
    have assembly : part.isAssembly = true := by
      by_contra ha
      rw [if_neg ha] at hbom
      cases hbom
    rw [if_pos assembly] at hbom
    obtain ⟨_, -, h⟩ := bind_eq_ok_iff.mp h
    obtain ⟨components, hcomponents, h⟩ := bind_eq_ok_iff.mp h
    cases own with
    | none =>
      cases h
      exact .bom assembly hbom hcomponents hown (by simp) (by simp)
    | some routing =>
      obtain ⟨ownOnes, hownOnes, h⟩ := bind_eq_ok_iff.mp h
      cases h
      refine .bom assembly hbom hcomponents hown ?_ (by simp)
      rintro p hp
      cases hp
      exact hownOnes

theorem explode_sorted (h : explode settings source order = .ok drafts) :
    drafts.Pairwise fun a b => a.sequence < b.sequence := by
  obtain ⟨part, -, h⟩ := exploded_of_explode h
  cases h with
  | routing no_bom own verdicts =>
    rw [number_eq]
    exact numberFrom_sorted 0 _
  | bom assembly has_bom lines released own_drafts no_routing =>
    rw [number_eq]
    exact numberFrom_sorted 0 _

/-- The drafts of an explosion are numbered by tens. -/
theorem explode_sequences (h : explode settings source order = .ok drafts) :
    drafts.map (·.sequence) =
      (List.range drafts.length).map fun i : Nat => ((i : Int) + 1) * sequenceStep := by
  obtain ⟨part, -, h⟩ := exploded_of_explode h
  cases h with
  | routing no_bom own verdicts => exact number_sequences _
  | bom assembly has_bom lines released own_drafts no_routing => exact number_sequences _

/-- Up to the bound on their number, drafts have sequence numbers that an order can keep. -/
theorem explode_sequence_range (h : explode settings source order = .ok drafts)
    (few : drafts.length ≤ maxDrafts) :
    ∀ d ∈ drafts, sequenceStep ≤ d.sequence ∧ d.sequence ≤ 2147483647 := by
  intro d hd
  have hmem : d.sequence ∈ drafts.map (·.sequence) := List.mem_map_of_mem hd
  rw [explode_sequences h] at hmem
  obtain ⟨i, hi, heq⟩ := List.mem_map.mp hmem
  have hlt := List.mem_range.mp hi
  simp only [maxDrafts] at few
  simp only [sequenceStep] at heq ⊢
  omega

theorem exploded_of_part {part : Part} (hpart : source.part order.partId = .ok (some part))
    (h : explode settings source order = .ok drafts) :
    Exploded settings source order part drafts := by
  obtain ⟨found, hfound, h⟩ := exploded_of_explode h
  unfold orderedPart at hfound
  rw [hpart] at hfound
  cases hfound
  exact h

theorem explode_bom {part : Part} {bom : Bom} {items : List (BomItem Q)}
    (hpart : source.part order.partId = .ok (some part)) (assembly : part.isAssembly = true)
    (hbom : source.activeBom part.partId = .ok (some (bom, items)))
    (h : explode settings source order = .ok drafts) :
    ∃ components work inspections, BomDrafts drafts components work inspections := by
  have sorted := explode_sorted h
  cases exploded_of_part hpart h with
  | routing no_bom own verdicts =>
    rw [no_bom assembly] at hbom
    cases hbom
  | bom assembly has_bom lines released own_drafts no_routing =>
    rename_i components own ownOnes
    have split : ∃ work inspections, ownOnes = work ++ inspections ∧
        (∀ d ∈ work, IsOwn assemblyGroup false d) ∧
        ∀ d ∈ inspections, IsOwn inspectGroup true d := by
      cases own with
      | none => exact ⟨[], [], no_routing rfl, by simp, by simp⟩
      | some routing => exact ownDrafts_split (own_drafts routing rfl)
    obtain ⟨work, inspections, rfl, hwork, hinspections⟩ := split
    rw [number_eq, numberFrom_append, numberFrom_append] at sorted ⊢
    refine ⟨_, _, _, rfl, sorted, fun d hd => ?_, fun d hd => ?_, fun d hd => ?_⟩
    · obtain ⟨e, he, m, -, rfl⟩ := exists_of_mem_numberFrom hd
      obtain ⟨ds, hds, he⟩ := List.mem_flatten.mp he
      obtain ⟨item, -, hitem⟩ := exists_of_mem_mapM lines hds
      have component : IsComponent e := isComponent_of_itemDrafts hitem he
      exact component
    · obtain ⟨e, he, m, -, rfl⟩ := exists_of_mem_numberFrom hd
      exact hwork e he
    · obtain ⟨e, he, m, -, rfl⟩ := exists_of_mem_numberFrom hd
      exact hinspections e he

/-! ### A pump -/

/-- The operation that makes a part of the pump. -/
def pumpOperation (id : String) : RoutingOperation Float :=
  ⟨"OP-" ++ id, "R-" ++ id, 10, "WC1", "Turn", none, 1, 1, false⟩

/-- The parts of the pump: two bolts with a washer between them. -/
def pumpItems : List (BomItem Float) :=
  [⟨1, "B1", 10, "BOLT", 1⟩, ⟨2, "B1", 20, "WASHER", 1⟩, ⟨3, "B1", 30, "BOLT", 1⟩]

/-- The master data of the pump.  The part number of the bolt is the name of the wave of an
    assembly's own work. -/
def pumpSource : MasterSource Float where
  part id :=
    if id = "PUMP" then .ok (some ⟨"PUMP", "P-1", "Pump", .assembly⟩)
    else if id = "BOLT" then .ok (some ⟨"BOLT", "ASSEMBLY", "Bolt", .manufactured⟩)
    else .ok (some ⟨id, "P-2", "Washer", .manufactured⟩)
  bom _ := .ok (some (⟨"B1", "PUMP", "A", true⟩, pumpItems))
  routing id := .ok (some (⟨"R-" ++ id, id, "A", .released⟩, [pumpOperation id]))
  workCenter id := .ok (some ⟨id, "C1", "Lathe", 8, 1, 1, true⟩)
  assemblies := ["PUMP"]

def pumpOrder : Order Float := ⟨"O1", "MO-1", "PUMP", 2, .draft, 1, none, none, none⟩

def pumpDrafts : List (Draft Float) :=
  [⟨10, some "BOLT", some "ASSEMBLY", "WC1", "Turn", none, false, 1, 1 * (1 * 2)⟩,
    ⟨20, some "WASHER", some "P-2", "WC1", "Turn", none, false, 1, 1 * (1 * 2)⟩,
    ⟨30, some "BOLT", some "ASSEMBLY", "WC1", "Turn", none, false, 1, 1 * (1 * 2)⟩,
    ⟨40, none, some "ASSEMBLY", "WC1", "Turn", none, false, 1, 1 * 2⟩]

/-- The identifiers of the operations of the pump. -/
def pumpId (d : Draft Float) : String := "O1/" ++ toString d.sequence

theorem classified_pump (id : String) :
    classified .standard pumpSource [pumpOperation id] = .ok [(pumpOperation id, false)] := by
  have turn : matchesKeyword .standard "Turn" = false := by decide +kernel
  have lathe : matchesKeyword .standard "Lathe" = false := by decide +kernel
  refine classified_singleton ?_
  simp [isInspection, pumpOperation, pumpSource, turn, lathe]

theorem itemDrafts_pump {id group : String} (item line : Int)
    (h : componentGroup .standard pumpSource id = .ok group) :
    itemDrafts .standard pumpSource pumpOrder.quantityOrdered ⟨line, "B1", item, id, 1⟩ =
      .ok [draft (pumpOperation id) false (1 * 2) (some id) (some group)] := by
  have released : pumpSource.releasedRouting id =
      .ok (some (⟨"R-" ++ id, id, "A", .released⟩, [pumpOperation id])) := rfl
  simp only [itemDrafts, released, h, classified_pump, bind, Except.bind]
  rfl

theorem explode_pump : explode .standard pumpSource pumpOrder = .ok pumpDrafts := by
  have quantity : validateOrdered pumpOrder.quantityOrdered = .ok () := by
    unfold validateOrdered
    rw [if_neg (by decide +kernel)]
  have bom : pumpSource.activeBom "PUMP" = .ok (some (⟨"B1", "PUMP", "A", true⟩, pumpItems)) := rfl
  have below : pumpSource.ensureAcyclicFrom ["PUMP"] (pumpItems.map (·.componentPartId)) =
      .ok () := by
    simp [MasterSource.ensureAcyclicFrom, pumpSource, pumpItems]
  have acyclic : pumpSource.ensureAcyclic "PUMP" [] = .ok () := by
    have listed : "PUMP" ∈ pumpSource.assemblies := by decide
    simp [MasterSource.ensureAcyclic, MasterSource.ensureAcyclicFrom, listed, bom, below]
  have lines : sortedItems pumpItems = pumpItems := List.mergeSort_of_pairwise (by decide)
  have bolt : componentGroup .standard pumpSource "BOLT" = .ok "ASSEMBLY" := by rfl
  have washer : componentGroup .standard pumpSource "WASHER" = .ok "P-2" := by rfl
  have own : ownDrafts .standard pumpSource pumpOrder.quantityOrdered [pumpOperation "PUMP"] = .ok
      [draft (pumpOperation "PUMP") false 2 none (some "ASSEMBLY")] := by
    unfold ownDrafts
    rw [classified_pump]
    rfl
  have part : orderedPart pumpSource pumpOrder = .ok ⟨"PUMP", "P-1", "Pump", .assembly⟩ := rfl
  have released : pumpSource.releasedRouting "PUMP" =
      .ok (some (⟨"R-" ++ "PUMP", "PUMP", "A", .released⟩, [pumpOperation "PUMP"])) := rfl
  have components : pumpItems.mapM (itemDrafts .standard pumpSource pumpOrder.quantityOrdered) =
      .ok [[draft (pumpOperation "BOLT") false (1 * 2) (some "BOLT") (some "ASSEMBLY")],
        [draft (pumpOperation "WASHER") false (1 * 2) (some "WASHER") (some "P-2")],
        [draft (pumpOperation "BOLT") false (1 * 2) (some "BOLT") (some "ASSEMBLY")]] := by
    rw [pumpItems, List.mapM_cons, List.mapM_cons, List.mapM_cons, List.mapM_nil,
      itemDrafts_pump _ _ bolt, itemDrafts_pump _ _ washer, itemDrafts_pump _ _ bolt]
    rfl
  simp only [explode, quantity, part, released, bom, acyclic, lines, components, own, bind,
    Except.bind]
  rfl
end Workshop
