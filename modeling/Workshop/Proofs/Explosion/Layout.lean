/-
  Workshop/Proofs/Explosion/Layout.lean
  =====================================
  **What an assembly's drafts are made from.**  Every draft of an assembly has an origin: a
  line of the bill of material with an operation of its component, or an operation of the
  assembly itself (`Origin`).  The origins of the drafts are all that there are, each once
  (`explode_laidOut`).

  A `Layout` is their arrangement: line by line by item number and line, each with its
  operations by sequence number and identifier, then the assembly's own work and its own
  inspections.  Where no two lines agree on item number and line, the drafts of the components
  are in the order of all four keys (`Layout.Sorted.components`).  Two lines that agree on both
  are still laid out one after the other, whatever their operations (`explode_breaksKeyOrder`).
-/
import Workshop.Proofs.Explosion.Shape
import Workshop.Proofs.Store.Keys
import Mathlib.Data.List.Flatten
import Mathlib.Data.List.Perm.Basic
import Mathlib.Data.Prod.Lex
import Mathlib.Data.String.Basic

namespace Workshop

variable {Q : Type}

/-! ### The order of lines and operations -/

/-- Lines stand by item number, then by line. -/
def BomItem.place (item : BomItem Q) : ℤ ×ₗ ℤ := toLex (item.itemNumber, item.lineId)

/-- Operations of a routing stand by sequence number, then by identifier. -/
def RoutingOperation.place (op : RoutingOperation Q) : ℤ ×ₗ String :=
  toLex (op.sequence, op.routingOperationId)

namespace Explosion

theorem sortedItems_eq (items : List (BomItem Q)) :
    sortedItems items = items.mergeSort fun a b => decide (a.place ≤ b.place) := by
  unfold sortedItems
  congr 1
  funext a b
  simp only [BomItem.place, Prod.Lex.toLex_le_toLex, Bool.decide_or, Bool.decide_and,
    Bool.beq_eq_decide_eq]

theorem sortedOperations_eq (ops : List (RoutingOperation Q)) :
    sortedOperations ops = ops.mergeSort fun a b => decide (a.place ≤ b.place) := by
  unfold sortedOperations
  congr 1
  funext a b
  simp only [RoutingOperation.place, Prod.Lex.toLex_le_toLex, Bool.decide_or, Bool.decide_and,
    Bool.beq_eq_decide_eq]

theorem pairwise_mergeSort_place {α κ : Type} [LinearOrder κ] (place : α → κ) (xs : List α) :
    (xs.mergeSort fun a b => decide (place a ≤ place b)).Pairwise fun a b => place a ≤ place b := by
  refine (List.pairwise_mergeSort ?_ ?_ xs).imp of_decide_eq_true
  · intro a b c hab hbc
    exact decide_eq_true ((of_decide_eq_true hab).trans (of_decide_eq_true hbc))
  · intro a b
    simpa using le_total (place a) (place b)

theorem pairwise_sortedItems (items : List (BomItem Q)) :
    (sortedItems items).Pairwise fun a b => a.place ≤ b.place :=
  sortedItems_eq items ▸ pairwise_mergeSort_place _ items

theorem pairwise_sortedOperations (ops : List (RoutingOperation Q)) :
    (sortedOperations ops).Pairwise fun a b => a.place ≤ b.place :=
  sortedOperations_eq ops ▸ pairwise_mergeSort_place _ ops

/-! ### Origins -/

/-- What a draft of an assembly is made from. -/
inductive Origin (Q : Type) where
  | component (item : BomItem Q) (op : RoutingOperation Q)
  | own (op : RoutingOperation Q)

namespace Origin

def operation : Origin Q → RoutingOperation Q
  | component _ op => op
  | own op => op

def componentPartId : Origin Q → Option String
  | component item _ => some item.componentPartId
  | own _ => none

/-- The pieces that the operation is planned for. -/
def pieces [Quantity Q] (ordered : Q) : Origin Q → Q
  | component item _ => item.quantityPer * ordered
  | own _ => ordered

/-- The wave of the draft.  A component has its part number cut to length, or its identifier
    if the part is missing. -/
def HasGroup (settings : ExplosionSettings) (source : MasterSource Q) (isInspection : Bool) :
    Origin Q → String → Prop
  | component item _, group => ∃ part, source.part item.componentPartId = .ok part ∧
      group = truncateGroupKey ((part.map (·.partNumber)).getD item.componentPartId)
        settings.maxGroupKeyLength
  | own _, group => group = if isInspection then inspectGroup else assemblyGroup

end Origin

/-- The draft is made from the origin, whatever number it has. -/
structure IsDraftOf [Quantity Q] (settings : ExplosionSettings) (source : MasterSource Q)
    (ordered : Q) (o : Origin Q) (d : Draft Q) : Prop where
  componentPartId : d.componentPartId = o.componentPartId
  group : ∃ group, o.HasGroup settings source d.isInspection group ∧ d.operationGroup = some group
  workCenterId : d.workCenterId = o.operation.workCenterId
  name : d.name = o.operation.name
  description : d.description = o.operation.description
  verdict : isInspection settings source o.operation = .ok d.isInspection
  setupHours : d.setupHours = o.operation.setupHours
  runHours : d.runHours = o.operation.runHoursPerUnit * o.pieces ordered

/-- The operations of a part's routing when that is released. -/
def releasedOperations (source : MasterSource Q) (partId : String) : List (RoutingOperation Q) :=
  match source.releasedRouting partId with
  | .ok (some (_, ops)) => ops
  | _ => []

/-- All that is to be made for an assembly: every line with every operation of its component,
    and the operations of the assembly itself. -/
def allOrigins (source : MasterSource Q) (items : List (BomItem Q)) (partId : String) :
    List (Origin Q) :=
  (items.flatMap fun item => (releasedOperations source item.componentPartId).map
    (.component item)) ++ (releasedOperations source partId).map .own

/-- The origins of what is made for components, then of the assembly's own operations. -/
def originsOf (pairs : List (BomItem Q × RoutingOperation Q)) (own : List (RoutingOperation Q)) :
    List (Origin Q) :=
  pairs.map (fun p => .component p.1 p.2) ++ own.map .own

/-! ### Layouts -/

/-- An arrangement of origins: lines with their operations, then the assembly's own work, then
    its own inspections. -/
structure Layout (Q : Type) where
  lines : List (BomItem Q × List (RoutingOperation Q))
  work : List (RoutingOperation Q)
  inspections : List (RoutingOperation Q)

namespace Layout

/-- The lines, each with each of its operations. -/
def pairs (l : Layout Q) : List (BomItem Q × RoutingOperation Q) :=
  l.lines.flatMap fun line => line.2.map (line.1, ·)

def origins (l : Layout Q) : List (Origin Q) := originsOf l.pairs (l.work ++ l.inspections)

/-- The layout has every line with its operations, and every operation of the assembly. -/
structure Covers (l : Layout Q) (source : MasterSource Q) (items : List (BomItem Q))
    (partId : String) : Prop where
  lines : (l.lines.map (·.1)).Perm items
  operations : ∀ line ∈ l.lines,
    line.2.Perm (releasedOperations source line.1.componentPartId)
  own : (l.work ++ l.inspections).Perm (releasedOperations source partId)

/-- Lines and operations are in their order. -/
structure Sorted (l : Layout Q) : Prop where
  lines : l.lines.Pairwise fun a b => a.1.place ≤ b.1.place
  operations : ∀ line ∈ l.lines, line.2.Pairwise fun a b => a.place ≤ b.place
  work : l.work.Pairwise fun a b => a.place ≤ b.place
  inspections : l.inspections.Pairwise fun a b => a.place ≤ b.place

/-- The inspections are told from the work. -/
structure Parted [Quantity Q] (l : Layout Q) (settings : ExplosionSettings)
    (source : MasterSource Q) : Prop where
  work : ∀ op ∈ l.work, isInspection settings source op = .ok false
  inspections : ∀ op ∈ l.inspections, isInspection settings source op = .ok true

/-- The place of an operation among all that are made for components: item number, line,
    sequence number, identifier. -/
def pairPlace (p : BomItem Q × RoutingOperation Q) : ℤ ×ₗ ℤ ×ₗ ℤ ×ₗ String :=
  toLex (p.1.itemNumber, toLex (p.1.lineId, p.2.place))

variable {l : Layout Q} {source : MasterSource Q} {items : List (BomItem Q)} {partId : String}

/-- A layout that covers an assembly has each of its origins, and each once. -/
theorem Covers.perm (h : l.Covers source items partId) :
    l.origins.Perm (allOrigins source items partId) := by
  refine List.Perm.append ?_ (h.own.map _)
  have lines := h.lines.flatMap_right fun item =>
    (releasedOperations source item.componentPartId).map (Origin.component item)
  rw [List.flatMap_map] at lines
  refine List.Perm.trans ?_ lines
  rw [pairs, List.map_flatMap]
  refine List.Perm.flatMap_left _ fun line hline => ?_
  rw [List.map_map]
  exact (h.operations line hline).map _

theorem pairPlace_le {item item' : BomItem Q} {op op' : RoutingOperation Q}
    (h : item.place < item'.place ∨ item = item' ∧ op.place ≤ op'.place) :
    pairPlace (item, op) ≤ pairPlace (item', op') := by
  simp only [pairPlace, Prod.Lex.toLex_le_toLex]
  rcases h with h | ⟨rfl, h⟩
  · rcases Prod.Lex.toLex_lt_toLex.mp h with h | ⟨heq, h⟩
    · exact Or.inl h
    · exact Or.inr ⟨heq, Or.inl h⟩
  · exact Or.inr ⟨rfl, Or.inr ⟨rfl, h⟩⟩

/-- Where no two lines agree on item number and line, the operations made for components are
    in the order of their places. -/
theorem Sorted.pairs (h : l.Sorted) (distinct : (l.lines.map (·.1.place)).Nodup) :
    l.pairs.Pairwise fun a b => pairPlace a ≤ pairPlace b := by
  refine List.pairwise_flatMap.mpr ⟨fun line hline => ?_, ?_⟩
  · rw [List.pairwise_map]
    exact (h.operations line hline).imp fun hab => pairPlace_le (Or.inr ⟨rfl, hab⟩)
  · refine (h.lines.and (List.pairwise_map.mp distinct)).imp ?_
    rintro a b ⟨hle, hne⟩ x hx y hy
    obtain ⟨op, -, rfl⟩ := List.mem_map.mp hx
    obtain ⟨op', -, rfl⟩ := List.mem_map.mp hy
    exact pairPlace_le (Or.inl (lt_of_le_of_ne hle hne))

end Layout

/-- The lines in their order, with the operations of each in theirs. -/
def sortedLines (source : MasterSource Q) (items : List (BomItem Q)) :
    List (BomItem Q × List (RoutingOperation Q)) :=
  (sortedItems items).map fun item =>
    (item, sortedOperations (releasedOperations source item.componentPartId))

theorem map_fst_sortedLines (source : MasterSource Q) (items : List (BomItem Q)) :
    (sortedLines source items).map (·.1) = sortedItems items := by
  rw [sortedLines, List.map_map]
  exact List.map_id _

theorem sortedLines_perm (source : MasterSource Q) (items : List (BomItem Q)) :
    ((sortedLines source items).map (·.1)).Perm items :=
  map_fst_sortedLines source items ▸ List.mergeSort_perm _ _

theorem map_pairs_sortedLines {l : Layout Q} {source : MasterSource Q} {items : List (BomItem Q)}
    (h : l.lines = sortedLines source items) :
    l.pairs.map (fun p => Origin.component p.1 p.2) =
      ((sortedItems items).map fun item => (sortedOperations
        (releasedOperations source item.componentPartId)).map (Origin.component item)).flatten := by
  rw [Layout.pairs, h, sortedLines, List.map_flatMap, List.flatMap_map, List.flatMap_def]
  congr 1
  refine List.map_congr_left fun item _ => ?_
  rw [List.map_map]
  rfl

/-! ### The drafts of an assembly -/

theorem forall₂_number {α : Type} {R : α → Draft Q → Prop}
    (any : ∀ x d n, R x d → R x { d with sequence := n }) {xs : List α} {drafts : List (Draft Q)}
    (h : List.Forall₂ R xs drafts) : List.Forall₂ R xs (number drafts) := by
  rw [number_eq]
  generalize 0 = n
  induction h generalizing n with
  | nil => exact .nil
  | cons hx hrest ih => exact .cons (any _ _ _ hx) (ih (n + 1))

variable [Quantity Q] {settings : ExplosionSettings} {source : MasterSource Q} {ordered : Q}

theorem IsDraftOf.renumbered {o : Origin Q} {d : Draft Q}
    (h : IsDraftOf settings source ordered o d) (n : Int) :
    IsDraftOf settings source ordered o { d with sequence := n } :=
  ⟨h.componentPartId, h.group, h.workCenterId, h.name, h.description, h.verdict, h.setupHours,
    h.runHours⟩

/-- The assembly's own drafts are inspections exactly in the wave of inspections. -/
theorem IsDraftOf.isInspection_iff {o : Origin Q} {d : Draft Q}
    (h : IsDraftOf settings source ordered o d) (own : d.componentPartId = none) :
    d.isInspection = true ↔ d.operationGroup = some inspectGroup := by
  cases o with
  | component item op =>
    rw [h.componentPartId] at own
    cases own
  | own op =>
    obtain ⟨group, hgroup, hd⟩ := h.group
    rw [hd, hgroup]
    cases d.isInspection <;> simp [inspectGroup, assemblyGroup]

omit [Quantity Q] in
/-- The verdicts stand beside the operations in their order. -/
theorem classified_eq_ok {ops : List (RoutingOperation Q)}
    {found : List (RoutingOperation Q × Bool)} (h : classified settings source ops = .ok found) :
    found.map (·.1) = sortedOperations ops ∧
      ∀ p ∈ found, isInspection settings source p.1 = .ok p.2 := by
  have pairs : List.Forall₂ (fun op p => p.1 = op ∧ isInspection settings source p.1 = .ok p.2)
      (sortedOperations ops) found := by
    refine (mapM_eq_ok_iff.mp h).imp fun op p hp => ?_
    obtain ⟨verdict, hverdict, hp⟩ := bind_eq_ok_iff.mp hp
    cases hp
    exact ⟨rfl, hverdict⟩
  constructor
  · refine List.forall₂_eq_eq_eq ▸ ?_
    rw [List.forall₂_map_left_iff]
    exact pairs.flip.imp fun p op h => h.1
  · intro p hp
    obtain ⟨op, -, -, hverdict⟩ := forall₂_mem_right pairs hp
    exact hverdict

/-- A draft of an origin with the verdict that its operation has. -/
theorem isDraftOf_draft {o : Origin Q} {op : RoutingOperation Q} {verdict : Bool}
    {group : String} (operation : o.operation = op)
    (hverdict : isInspection settings source op = .ok verdict)
    (hgroup : o.HasGroup settings source verdict group) :
    IsDraftOf settings source ordered o
      (draft op verdict (o.pieces ordered) o.componentPartId (some group)) := by
  subst operation
  exact ⟨rfl, ⟨group, hgroup, rfl⟩, rfl, rfl, rfl, hverdict, rfl, rfl⟩

theorem forall₂_itemDrafts {item : BomItem Q} {drafts : List (Draft Q)}
    (h : itemDrafts settings source ordered item = .ok drafts) :
    List.Forall₂ (IsDraftOf settings source ordered)
      ((sortedOperations (releasedOperations source item.componentPartId)).map (.component item))
      drafts := by
  obtain ⟨found, released, h⟩ := bind_eq_ok_iff.mp h
  unfold releasedOperations
  rw [released]
  cases found with
  | none =>
    cases h
    simp [sortedOperations]
  | some routing =>
    obtain ⟨group, hgroup, h⟩ := bind_eq_ok_iff.mp h
    obtain ⟨ops, hops, h⟩ := bind_eq_ok_iff.mp h
    obtain ⟨part, hpart, hgroup⟩ := bind_eq_ok_iff.mp hgroup
    cases hgroup
    cases h
    obtain ⟨sorted, verdicts⟩ := classified_eq_ok hops
    dsimp only
    rw [← sorted, List.map_map, List.forall₂_map_left_iff, List.forall₂_map_right_iff,
      List.forall₂_same]
    exact fun p hp => isDraftOf_draft rfl (verdicts p hp) ⟨part, hpart, rfl⟩

/-- The own operations of an assembly are laid out with the inspections behind the work. -/
theorem exists_ownDrafts {ops : List (RoutingOperation Q)} {drafts : List (Draft Q)}
    (h : ownDrafts settings source ordered ops = .ok drafts) :
    ∃ l : Layout Q, (l.work ++ l.inspections).Perm ops ∧ l.Sorted ∧ l.Parted settings source ∧
      List.Forall₂ (IsDraftOf settings source ordered) ((l.work ++ l.inspections).map .own)
        drafts := by
  obtain ⟨found, hfound, h⟩ := bind_eq_ok_iff.mp h
  cases h
  obtain ⟨sorted, verdicts⟩ := classified_eq_ok hfound
  have places := pairwise_sortedOperations ops
  rw [← sorted] at places
  have kept : ∀ test, ((found.filter test).map (·.1)).Pairwise fun a b => a.place ≤ b.place :=
    fun test => places.sublist (List.filter_sublist.map _)
  have partition : (found.filter (fun p => !p.2) ++ found.filter (·.2)).Perm found :=
    List.perm_append_comm.trans (List.filter_append_perm _ found)
  refine ⟨⟨[], (found.filter fun p => !p.2).map (·.1), (found.filter (·.2)).map (·.1)⟩, ?_,
    ⟨.nil, by simp, kept _, kept _⟩, ⟨?_, ?_⟩, ?_⟩
  · rw [← List.map_append]
    refine (partition.map _).trans ?_
    rw [sorted]
    exact List.mergeSort_perm _ _
  · intro op hop
    obtain ⟨p, hp, rfl⟩ := List.mem_map.mp hop
    obtain ⟨hp, hwork⟩ := List.mem_filter.mp hp
    rw [verdicts p hp]
    simpa using hwork
  · intro op hop
    obtain ⟨p, hp, rfl⟩ := List.mem_map.mp hop
    obtain ⟨hp, hinspection⟩ := List.mem_filter.mp hp
    rw [verdicts p hp, hinspection]
  · have drafted : ∀ verdict, ∀ p ∈ found, p.2 = verdict →
        IsDraftOf settings source ordered (.own p.1)
          (draft p.1 p.2 ordered none
            (some (if verdict then inspectGroup else assemblyGroup))) := by
      rintro verdict p hp rfl
      exact isDraftOf_draft (o := .own p.1) rfl (verdicts p hp) rfl
    rw [List.map_append, List.map_map, List.map_map]
    refine List.rel_append ?_ ?_
    · rw [List.forall₂_map_left_iff, List.forall₂_map_right_iff, List.forall₂_same]
      intro p hp
      obtain ⟨hp, hwork⟩ := List.mem_filter.mp hp
      exact drafted false p hp (by simpa using hwork)
    · rw [List.forall₂_map_left_iff, List.forall₂_map_right_iff, List.forall₂_same]
      intro p hp
      obtain ⟨hp, hinspection⟩ := List.mem_filter.mp hp
      exact drafted true p hp hinspection

/-- The own drafts of an assembly are those of its released routing, if it has one. -/
theorem exists_ownLayout {partId : String} {own : Option (Routing × List (RoutingOperation Q))}
    {drafts : List (Draft Q)} (released : source.releasedRouting partId = .ok own)
    (own_drafts : ∀ p, own = some p → ownDrafts settings source ordered p.2 = .ok drafts)
    (no_routing : own = none → drafts = []) :
    ∃ l : Layout Q, (l.work ++ l.inspections).Perm (releasedOperations source partId) ∧
      l.Sorted ∧ l.Parted settings source ∧
      List.Forall₂ (IsDraftOf settings source ordered) ((l.work ++ l.inspections).map .own)
        drafts := by
  unfold releasedOperations
  rw [released]
  cases own with
  | none =>
    obtain rfl := no_routing rfl
    exact ⟨⟨[], [], []⟩, .nil, ⟨.nil, by simp, .nil, .nil⟩, ⟨by simp, by simp⟩, .nil⟩
  | some routing => exact exists_ownDrafts (own_drafts routing rfl)

theorem forall₂_componentDrafts {l : Layout Q} {items : List (BomItem Q)}
    {components : List (List (Draft Q))} (hlines : l.lines = sortedLines source items)
    (h : (sortedItems items).mapM (itemDrafts settings source ordered) = .ok components) :
    List.Forall₂ (IsDraftOf settings source ordered) (l.pairs.map fun p => .component p.1 p.2)
      components.flatten := by
  rw [map_pairs_sortedLines hlines]
  refine List.rel_flatten ?_
  rw [List.forall₂_map_left_iff]
  exact (mapM_eq_ok_iff.mp h).imp fun item drafts => forall₂_itemDrafts

end Explosion

open Explosion

variable [Quantity Q] {settings : ExplosionSettings} {source : MasterSource Q} {order : Order Q}

/-- The drafts of an assembly are made from all its origins, each once.  The lines of its bill
    of material come first, one after the other by item number and line, with the operations of
    each by sequence number and identifier; then come the assembly's own work and its own
    inspections.  Where no two lines agree on item number and line, that is the order of all
    four keys. -/
theorem explode_laidOut {part : Part} {bom : Bom} {items : List (BomItem Q)}
    {drafts : List (Draft Q)} (hpart : source.part order.partId = .ok (some part))
    (assembly : part.isAssembly = true)
    (hbom : source.activeBom part.partId = .ok (some (bom, items)))
    (h : explode settings source order = .ok drafts) :
    ∃ l : Layout Q, l.Covers source items part.partId ∧ l.Sorted ∧ l.Parted settings source ∧
      List.Forall₂ (IsDraftOf settings source order.quantityOrdered) l.origins drafts ∧
      l.origins.Perm (allOrigins source items part.partId) ∧
      ((items.map (·.place)).Nodup →
        l.pairs.Pairwise fun a b => Layout.pairPlace a ≤ Layout.pairPlace b) ∧
      drafts.map (·.sequence) =
        (List.range drafts.length).map (fun i : Nat => ((i : Int) + 1) * sequenceStep) ∧
      ∀ d ∈ drafts, d.componentPartId = none →
        (d.isInspection = true ↔ d.operationGroup = some inspectGroup) := by
  have numbered := explode_sequences h
  cases exploded_of_part hpart h with
  | routing no_bom own verdicts =>
    rw [no_bom assembly] at hbom
    cases hbom
  | bom assembly has_bom lines released own_drafts no_routing =>
    rename_i bom' items' components own ownOnes
    rw [hbom] at has_bom
    cases has_bom
    obtain ⟨o, operations, sorted, parted, ownDrafted⟩ :=
      exists_ownLayout released own_drafts no_routing
    let l : Layout Q := { o with lines := sortedLines source items }
    have covers : l.Covers source items part.partId := by
      refine ⟨sortedLines_perm source items, fun line hline => ?_, operations⟩
      obtain ⟨item, -, rfl⟩ := List.mem_map.mp hline
      exact List.mergeSort_perm _ _
    have sorted : l.Sorted := by
      refine ⟨List.pairwise_map.mpr (pairwise_sortedItems items), fun line hline => ?_,
        sorted.work, sorted.inspections⟩
      obtain ⟨item, -, rfl⟩ := List.mem_map.mp hline
      exact pairwise_sortedOperations _
    have drafted : List.Forall₂ (IsDraftOf settings source order.quantityOrdered) l.origins
        (number (components.flatten ++ ownOnes)) :=
      forall₂_number (fun _ _ n hd => hd.renumbered n)
        (List.rel_append (forall₂_componentDrafts rfl lines) ownDrafted)
    refine ⟨l, covers, sorted, ⟨parted.work, parted.inspections⟩, drafted, covers.perm,
      fun distinct => sorted.pairs ?_, numbered, fun d hd hcomponent => ?_⟩
    · have places := ((sortedLines_perm source items).map (·.place)).nodup_iff.mpr distinct
      rwa [List.map_map] at places
    · obtain ⟨origin, -, made⟩ := forall₂_mem_right drafted hd
      exact made.isInspection_iff hcomponent

/-- The pump has one layout of its drafts: two bolts and a washer, each turned, then its own
    turning. -/
theorem explode_laidOut_pump :
    pumpSource.part "PUMP" = .ok (some ⟨"PUMP", "P-1", "Pump", .assembly⟩) ∧
      pumpSource.activeBom "PUMP" = .ok (some (⟨"B1", "PUMP", "A", true⟩, pumpItems)) ∧
      explode .standard pumpSource pumpOrder = .ok pumpDrafts ∧
      ∃ l : Layout Float, l.Covers pumpSource pumpItems "PUMP" ∧
        List.Forall₂ (IsDraftOf .standard pumpSource 2) l.origins pumpDrafts ∧
        l.pairs.Pairwise fun a b => Layout.pairPlace a ≤ Layout.pairPlace b := by
  have part : pumpSource.part pumpOrder.partId =
      .ok (some ⟨"PUMP", "P-1", "Pump", .assembly⟩) := rfl
  have bom : pumpSource.activeBom "PUMP" =
      .ok (some (⟨"B1", "PUMP", "A", true⟩, pumpItems)) := rfl
  obtain ⟨l, covers, -, -, drafted, -, ordered, -⟩ :=
    explode_laidOut part rfl bom explode_pump
  exact ⟨part, bom, explode_pump, l, covers, drafted, ordered (by decide)⟩

/-! ### Two lines that agree on item number and line -/

/-- A lid and a base of a box, entered with the same item number and line. -/
def boxItems : List (BomItem Float) := [⟨1, "B1", 10, "LID", 1⟩, ⟨1, "B1", 10, "BASE", 1⟩]

def boxOperation (id : String) : RoutingOperation Float :=
  { pumpOperation id with sequence := if id = "LID" then 20 else 10 }

/-- The master data of the box, whose parts are assembled without an operation of its own. -/
def boxSource : MasterSource Float where
  part id := .ok (some ⟨id, id, id, if id = "BOX" then .assembly else .manufactured⟩)
  bom _ := .ok (some (⟨"B1", "BOX", "A", true⟩, boxItems))
  routing id :=
    if id = "BOX" then .ok none
    else .ok (some (⟨"R-" ++ id, id, "A", .released⟩, [boxOperation id]))
  workCenter id := pumpSource.workCenter id
  assemblies := ["BOX"]

def boxOrder : Order Float := { pumpOrder with partId := "BOX" }

/-- The lid is turned before the base, although its operation has the higher sequence number
    on a line that stands in the same place. -/
def boxDrafts : List (Draft Float) :=
  [⟨10, some "LID", some "LID", "WC1", "Turn", none, false, 1, 1 * (1 * 2)⟩,
    ⟨20, some "BASE", some "BASE", "WC1", "Turn", none, false, 1, 1 * (1 * 2)⟩]

theorem itemDrafts_box {id : String} (h : id ≠ "BOX") :
    itemDrafts .standard boxSource boxOrder.quantityOrdered ⟨1, "B1", 10, id, 1⟩ =
      .ok [draft (boxOperation id) false (1 * 2) (some id)
        (some (truncateGroupKey id ExplosionSettings.standard.maxGroupKeyLength))] := by
  have released : boxSource.releasedRouting id =
      .ok (some (⟨"R-" ++ id, id, "A", .released⟩, [boxOperation id])) := by
    simp [MasterSource.releasedRouting, boxSource, h, Except.map, Routing.isReleased]
  have turn : matchesKeyword .standard "Turn" = false := by decide +kernel
  have lathe : matchesKeyword .standard "Lathe" = false := by decide +kernel
  have group : componentGroup .standard boxSource id =
      .ok (truncateGroupKey id ExplosionSettings.standard.maxGroupKeyLength) := rfl
  have single : classified .standard boxSource [boxOperation id] =
      .ok [(boxOperation id, false)] := by
    refine classified_singleton ?_
    simp [isInspection, boxOperation, pumpOperation, boxSource, pumpSource, turn, lathe]
  simp only [itemDrafts, released, group, single, bind, Except.bind]
  rfl

theorem explode_box : explode .standard boxSource boxOrder = .ok boxDrafts := by
  have quantity : validateOrdered boxOrder.quantityOrdered = .ok () := by
    unfold validateOrdered
    rw [if_neg (by decide +kernel)]
  have bom : boxSource.activeBom "BOX" = .ok (some (⟨"B1", "BOX", "A", true⟩, boxItems)) := rfl
  have below : boxSource.ensureAcyclicFrom ["BOX"] (boxItems.map (·.componentPartId)) =
      .ok () := by
    simp [MasterSource.ensureAcyclicFrom, boxSource, boxItems]
  have acyclic : boxSource.ensureAcyclic "BOX" [] = .ok () := by
    have listed : "BOX" ∈ boxSource.assemblies := by decide
    simp [MasterSource.ensureAcyclic, MasterSource.ensureAcyclicFrom, listed, bom, below]
  have lines : sortedItems boxItems = boxItems := List.mergeSort_of_pairwise (by decide)
  have part : orderedPart boxSource boxOrder = .ok ⟨"BOX", "BOX", "BOX", .assembly⟩ := rfl
  have released : boxSource.releasedRouting "BOX" = .ok none := rfl
  have components : boxItems.mapM (itemDrafts .standard boxSource boxOrder.quantityOrdered) =
      .ok [[draft (boxOperation "LID") false (1 * 2) (some "LID") (some "LID")],
        [draft (boxOperation "BASE") false (1 * 2) (some "BASE") (some "BASE")]] := by
    rw [boxItems, List.mapM_cons, List.mapM_cons, List.mapM_nil,
      itemDrafts_box (by decide), itemDrafts_box (by decide)]
    rfl
  simp only [explode, quantity, part, released, bom, acyclic, lines, components, bind, Except.bind]
  rfl

/-- The drafts of the box are made from its two operations, but not in the order of item
    number, line, sequence number and identifier. -/
theorem explode_breaksKeyOrder :
    explode .standard boxSource boxOrder = .ok boxDrafts ∧
      ¬ ∃ pairs own, (originsOf pairs own).Perm (allOrigins boxSource boxItems "BOX") ∧
        List.Forall₂ (IsDraftOf .standard boxSource 2) (originsOf pairs own) boxDrafts ∧
        pairs.Pairwise fun a b => Layout.pairPlace a ≤ Layout.pairPlace b := by
  refine ⟨explode_box, ?_⟩
  rintro ⟨pairs, own, perm, drafted, ordered⟩
  let lid : Origin Float := .component ⟨1, "B1", 10, "LID", 1⟩ (boxOperation "LID")
  let base : Origin Float := .component ⟨1, "B1", 10, "BASE", 1⟩ (boxOperation "BASE")
  have all : allOrigins boxSource boxItems "BOX" = [lid, base] := rfl
  have known {o : Origin Float} (ho : o ∈ originsOf pairs own) : o = lid ∨ o = base := by
    simpa [all] using perm.mem_iff.mp ho
  obtain rfl : own = [] := by
    refine List.eq_nil_iff_forall_not_mem.mpr fun op hop => ?_
    rcases known (List.mem_append_right _ (List.mem_map_of_mem hop)) with h | h <;>
      simp [lid, base] at h
  rw [originsOf, List.map_nil, List.append_nil] at known drafted
  rw [List.forall₂_map_left_iff] at drafted
  cases drafted with
  | @cons p _ _ _ first rest =>
    cases rest with
    | @cons q _ _ _ second rest =>
      cases rest
      have hp : Origin.component p.1 p.2 = lid := by
        rcases known (List.mem_map_of_mem List.mem_cons_self) with h | h
        · exact h
        · have part := first.componentPartId
          rw [h] at part
          simp [base, Origin.componentPartId] at part
      have hq : Origin.component q.1 q.2 = base := by
        rcases known (List.mem_map_of_mem (List.mem_cons_of_mem p List.mem_cons_self)) with h | h
        · have part := second.componentPartId
          rw [h] at part
          simp [lid, Origin.componentPartId] at part
        · exact h
      obtain ⟨item, op⟩ := p
      obtain ⟨item', op'⟩ := q
      obtain ⟨rfl, rfl⟩ := Origin.component.inj hp
      obtain ⟨rfl, rfl⟩ := Origin.component.inj hq
      revert ordered
      decide

end Workshop
