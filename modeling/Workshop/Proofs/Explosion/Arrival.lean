/-
  Workshop/Proofs/Explosion/Arrival.lean
  ======================================
  **The order in which master data arrives.**  Two sources may give the lines of a bill of
  material and the operations of a routing in different orders
  (`MasterSource.SameButForOrder`).  Where lines and operations have identifiers of their own,
  an explosion comes to the same drafts from both, and to the same fault from both, the report
  of a circle aside (`explode_eq_of_sameButForOrder`).

  Lines and operations are sorted before they are taken, by keys that tell them apart.  The
  walk down the bills of material follows the lines as they come, so it may find another circle
  first.  Whether it finds one does not depend on the way: it does exactly when the part is
  circular (`MasterSource.refused_iff_isCircular`), and that speaks of members alone.
-/
import Workshop.Proofs.Explosion.Circles
import Workshop.Proofs.Explosion.Layout

namespace Workshop

variable {Q : Type}

/-! ### Answers -/

section Answers

variable {ε α β κ : Type} {key : β → κ}

/-- Two entries of one head, with the same members in any order, told apart by a key. -/
inductive SameFound (key : β → κ) : Option (α × List β) → Option (α × List β) → Prop
  | missing : SameFound key none none
  | found {a : α} {xs ys : List β} (distinct : (xs.map key).Nodup) (perm : xs.Perm ys) :
      SameFound key (some (a, xs)) (some (a, ys))

/-- Two lookups that fail alike or find the same entry, the order of its members aside. -/
inductive SameAnswer (key : β → κ) :
    Except ε (Option (α × List β)) → Except ε (Option (α × List β)) → Prop
  | failed (e : ε) : SameAnswer key (.error e) (.error e)
  | answered {x y : Option (α × List β)} (h : SameFound key x y) :
      SameAnswer key (.ok x) (.ok y)

theorem SameFound.symm {x y : Option (α × List β)} (h : SameFound key x y) :
    SameFound key y x := by
  cases h with
  | missing => exact .missing
  | found distinct perm => exact .found ((perm.map key).nodup_iff.mp distinct) perm.symm

theorem SameFound.filter {x y : Option (α × List β)} (h : SameFound key x y) (test : α → Bool) :
    SameFound key (x.filter (test ·.1)) (y.filter (test ·.1)) := by
  cases h with
  | missing => exact .missing
  | @found a xs ys distinct perm =>
    cases htest : test a with
    | true => simpa [Option.filter, htest] using SameFound.found distinct perm
    | false => simpa [Option.filter, htest] using SameFound.missing

theorem SameAnswer.symm {x y : Except ε (Option (α × List β))} (h : SameAnswer key x y) :
    SameAnswer key y x := by
  cases h with
  | failed e => exact .failed e
  | answered h => exact .answered h.symm

theorem SameAnswer.filter {x y : Except ε (Option (α × List β))} (h : SameAnswer key x y)
    (test : α → Bool) :
    SameAnswer key (x.map fun found => found.filter (test ·.1))
      (y.map fun found => found.filter (test ·.1)) := by
  cases h with
  | failed e => exact .failed e
  | answered h => exact .answered (h.filter test)

/-- What two lookups go on to is related when their failures are and their entries lead to
    related ends. -/
theorem SameAnswer.bind {γ : Type} {x y : Except ε (Option (α × List β))}
    {f g : Option (α × List β) → Except ε γ} {R : Except ε γ → Except ε γ → Prop}
    (h : SameAnswer key x y) (failed : ∀ e, R (.error e) (.error e))
    (next : ∀ a b, SameFound key a b → R (f a) (g b)) : R (x >>= f) (y >>= g) := by
  cases h with
  | failed e => exact failed e
  | answered h => exact next _ _ h

end Answers

/-! ### Outcomes -/

/-- Two outcomes that are the same, the report of a circle aside. -/
inductive SameOutcome {α : Type} : Except (Fault Q) α → Except (Fault Q) α → Prop
  | same (x : Except (Fault Q) α) : SameOutcome x x
  | circular (text text' : String) :
      SameOutcome (.error (.circularBom text)) (.error (.circularBom text'))

namespace SameOutcome

variable {α β : Type}

theorem bind {x y : Except (Fault Q) α} {f g : α → Except (Fault Q) β} (h : SameOutcome x y)
    (next : ∀ a, SameOutcome (f a) (g a)) : SameOutcome (x >>= f) (y >>= g) := by
  cases h with
  | same x =>
    cases x with
    | error e => exact .same (.error e)
    | ok a => exact next a
  | circular text text' => exact .circular text text'

variable {x y : Except (Fault Q) α}

theorem eq_ok_iff (h : SameOutcome x y) (a : α) : x = .ok a ↔ y = .ok a := by
  cases h with
  | same x => exact Iff.rfl
  | circular text text' => constructor <;> rintro ⟨⟩

theorem circular_iff (h : SameOutcome x y) :
    (∃ text, x = .error (.circularBom text)) ↔ ∃ text, y = .error (.circularBom text) := by
  cases h with
  | same x => exact Iff.rfl
  | circular text text' => exact ⟨fun _ => ⟨text', rfl⟩, fun _ => ⟨text, rfl⟩⟩

theorem eq_error_iff (h : SameOutcome x y) {e : Fault Q} (other : ∀ text, e ≠ .circularBom text) :
    x = .error e ↔ y = .error e := by
  cases h with
  | same x => exact Iff.rfl
  | circular text text' =>
    constructor <;> rintro ⟨⟩
    · exact absurd rfl (other text)
    · exact absurd rfl (other text')

end SameOutcome

/-! ### Sources -/

namespace MasterSource

/-- Two sources of the same master data.  They may give the lines of a bill of material and the
    operations of a routing in different orders, but no two lines of a bill have one number and
    no two operations of a routing one identifier. -/
structure SameButForOrder (s t : MasterSource Q) : Prop where
  part : ∀ id, s.part id = t.part id
  workCenter : ∀ id, s.workCenter id = t.workCenter id
  assemblies : ∀ id, id ∈ s.assemblies ↔ id ∈ t.assemblies
  boms : ∀ id, SameAnswer BomItem.lineId (s.bom id) (t.bom id)
  routings : ∀ id, SameAnswer RoutingOperation.routingOperationId (s.routing id) (t.routing id)

namespace SameButForOrder

variable {s t : MasterSource Q}

theorem symm (h : s.SameButForOrder t) : t.SameButForOrder s :=
  ⟨fun id => (h.part id).symm, fun id => (h.workCenter id).symm, fun id => (h.assemblies id).symm,
    fun id => (h.boms id).symm, fun id => (h.routings id).symm⟩

theorem activeBom (h : s.SameButForOrder t) (id : String) :
    SameAnswer BomItem.lineId (s.activeBom id) (t.activeBom id) := by
  unfold MasterSource.activeBom
  simp only [h.assemblies id]
  split
  · exact (h.boms id).filter Bom.isActive
  · exact .answered .missing

theorem releasedRouting (h : s.SameButForOrder t) (id : String) :
    SameAnswer RoutingOperation.routingOperationId (s.releasedRouting id)
      (t.releasedRouting id) :=
  (h.routings id).filter Routing.isReleased

theorem bomsAnswer (h : s.SameButForOrder t) (answers : s.BomsAnswer) : t.BomsAnswer := by
  intro id
  obtain ⟨found, hfound⟩ := answers id
  have same := h.boms id
  rw [hfound] at same
  generalize t.bom id = y at same
  cases same with
  | answered _ => exact ⟨_, rfl⟩

theorem uses_of_uses (h : s.SameButForOrder t) {p c : String} (uses : s.Uses p c) :
    t.Uses p c := by
  obtain ⟨bom, items, hbom, item, hitem, hc⟩ := uses
  have same := h.activeBom p
  rw [hbom] at same
  generalize hy : t.activeBom p = y at same
  cases same with
  | answered found =>
    cases found with
    | found distinct perm => exact ⟨bom, _, hy, item, perm.mem_iff.mp hitem, hc⟩

theorem uses_eq (h : s.SameButForOrder t) : s.Uses = t.Uses := by
  funext p c
  exact propext ⟨h.uses_of_uses, h.symm.uses_of_uses⟩

/-- The walks down the bills of material may take different ways, but both are refused or
    neither is. -/
theorem ensureAcyclic (h : s.SameButForOrder t) (answers : s.BomsAnswer) (part : String) :
    SameOutcome (s.ensureAcyclic part []) (t.ensureAcyclic part []) := by
  have circular_iff : s.IsCircular part ↔ t.IsCircular part := by
    unfold IsCircular
    rw [h.uses_eq]
  by_cases circular : s.IsCircular part
  · obtain ⟨text, hs⟩ := refused_of_isCircular answers circular
    obtain ⟨text', ht⟩ := refused_of_isCircular (h.bomsAnswer answers) (circular_iff.mp circular)
    rw [hs, ht]
    exact .circular text text'
  · rw [passes_of_not_isCircular answers circular,
      passes_of_not_isCircular (h.bomsAnswer answers) (mt circular_iff.mpr circular)]
    exact .same (.ok ())

end SameButForOrder

end MasterSource

/-! ### Sorted members -/

namespace Explosion

/-- Two arrangements of the same members are equal when both are sorted by places that tell
    them apart. -/
theorem eq_of_pairwise_place {α κ ι : Type} [PartialOrder κ] {place : α → κ} {key : α → ι}
    {xs ys : List α} (hxs : xs.Pairwise fun a b => place a ≤ place b)
    (hys : ys.Pairwise fun a b => place a ≤ place b) (perm : xs.Perm ys)
    (distinct : (xs.map key).Nodup) (told : ∀ a b, place a = place b → key a = key b) :
    xs = ys := by
  refine List.Perm.eq_of_pairwise (fun a b ha hb hab hba => ?_) hxs hys perm
  exact List.inj_on_of_nodup_map distinct ha (perm.mem_iff.mpr hb) (told a b (hab.antisymm hba))

theorem sortedItems_eq_of_perm {xs ys : List (BomItem Q)}
    (distinct : (xs.map BomItem.lineId).Nodup) (perm : xs.Perm ys) :
    sortedItems xs = sortedItems ys := by
  have hxs : (sortedItems xs).Perm xs := List.mergeSort_perm _ _
  have hys : (sortedItems ys).Perm ys := List.mergeSort_perm _ _
  refine eq_of_pairwise_place (pairwise_sortedItems xs) (pairwise_sortedItems ys)
    (hxs.trans (perm.trans hys.symm)) ((hxs.map _).nodup_iff.mpr distinct) fun a b hab => ?_
  exact (Prod.mk.inj (toLex.injective hab)).2

theorem sortedOperations_eq_of_perm {xs ys : List (RoutingOperation Q)}
    (distinct : (xs.map RoutingOperation.routingOperationId).Nodup) (perm : xs.Perm ys) :
    sortedOperations xs = sortedOperations ys := by
  have hxs : (sortedOperations xs).Perm xs := List.mergeSort_perm _ _
  have hys : (sortedOperations ys).Perm ys := List.mergeSort_perm _ _
  refine eq_of_pairwise_place (pairwise_sortedOperations xs) (pairwise_sortedOperations ys)
    (hxs.trans (perm.trans hys.symm)) ((hxs.map _).nodup_iff.mpr distinct) fun a b hab => ?_
  exact (Prod.mk.inj (toLex.injective hab)).2

/-! ### Drafts from two sources -/

variable [Quantity Q] {settings : ExplosionSettings} {s t : MasterSource Q}

omit [Quantity Q] in
theorem isInspection_eq_of_same (h : s.SameButForOrder t) :
    isInspection settings s = isInspection settings t := by
  funext op
  unfold isInspection
  rw [h.workCenter]

omit [Quantity Q] in
theorem classified_eq_of_same (h : s.SameButForOrder t) {xs ys : List (RoutingOperation Q)}
    (distinct : (xs.map RoutingOperation.routingOperationId).Nodup) (perm : xs.Perm ys) :
    classified settings s xs = classified settings t ys := by
  unfold classified
  rw [sortedOperations_eq_of_perm distinct perm, isInspection_eq_of_same h]

theorem ownDrafts_eq_of_same (h : s.SameButForOrder t) {xs ys : List (RoutingOperation Q)}
    (distinct : (xs.map RoutingOperation.routingOperationId).Nodup) (perm : xs.Perm ys)
    (ordered : Q) : ownDrafts settings s ordered xs = ownDrafts settings t ordered ys := by
  unfold ownDrafts
  rw [classified_eq_of_same h distinct perm]

theorem itemDrafts_eq_of_same (h : s.SameButForOrder t) (ordered : Q) :
    itemDrafts settings s ordered = itemDrafts settings t ordered := by
  funext item
  refine (h.releasedRouting item.componentPartId).bind (fun _ => rfl) fun own own' found => ?_
  cases found with
  | missing => rfl
  | found distinct perm =>
    dsimp only
    rw [componentGroup, componentGroup, h.part, classified_eq_of_same h distinct perm]

omit [Quantity Q] in
theorem orderedPart_eq_of_same (h : s.SameButForOrder t) (order : Order Q) :
    orderedPart s order = orderedPart t order := by
  unfold orderedPart
  rw [h.part]

end Explosion

open Explosion

variable [Quantity Q] {s t : MasterSource Q}

/-- The outcome of an explosion is the same from both sources, the report of a circle aside. -/
theorem explode_sameOutcome (h : s.SameButForOrder t) (answers : s.BomsAnswer)
    (settings : ExplosionSettings) (order : Order Q) :
    SameOutcome (explode settings s order) (explode settings t order) := by
  unfold explode
  rw [orderedPart_eq_of_same h]
  refine .bind (.same _) fun _ => .bind (.same _) fun part => ?_
  refine (h.releasedRouting part.partId).bind (fun e => .same _) fun own own' hown => ?_
  have hbom : SameAnswer BomItem.lineId
      (if part.isAssembly then s.activeBom part.partId else .ok none)
      (if part.isAssembly then t.activeBom part.partId else .ok none) := by
    split
    · exact h.activeBom part.partId
    · exact .answered .missing
  dsimp only
  rw [ite_bind, ite_bind]
  refine hbom.bind (fun e => .same _) fun bom bom' found => ?_
  cases found with
  | missing =>
    cases hown with
    | missing => exact .same _
    | found distinct perm =>
      dsimp only
      rw [classified_eq_of_same h distinct perm]
      exact .same _
  | found distinctLines lines =>
    refine .bind (h.ensureAcyclic answers part.partId) fun _ => ?_
    rw [sortedItems_eq_of_perm distinctLines lines, itemDrafts_eq_of_same h]
    cases hown with
    | missing => exact .same _
    | found distinct perm =>
      dsimp only
      rw [ownDrafts_eq_of_same h distinct perm]
      exact .same _

/-- The order in which lines and operations arrive has no part in an explosion: it succeeds with
    both sources or with neither, and then with the same drafts; it finds a circle with both or
    with neither; and any other fault it has with both. -/
theorem explode_eq_of_sameButForOrder (h : s.SameButForOrder t) (answers : s.BomsAnswer)
    (settings : ExplosionSettings) (order : Order Q) :
    (∀ drafts, explode settings s order = .ok drafts ↔ explode settings t order = .ok drafts) ∧
      ((∃ text, explode settings s order = .error (.circularBom text)) ↔
        ∃ text, explode settings t order = .error (.circularBom text)) ∧
      ∀ e, (∀ text, e ≠ .circularBom text) →
        (explode settings s order = .error e ↔ explode settings t order = .error e) :=
  have same := explode_sameOutcome h answers settings order
  ⟨same.eq_ok_iff, same.circular_iff, fun _ => same.eq_error_iff⟩

/-! ### A pump whose lines come backwards -/

def pumpBackwards : MasterSource Float :=
  { pumpSource with bom := fun _ => .ok (some (⟨"B1", "PUMP", "A", true⟩, pumpItems.reverse)) }

/-- The drafts of the pump are the same when its lines come backwards. -/
theorem explode_eq_of_sameButForOrder_pump :
    pumpSource.SameButForOrder pumpBackwards ∧ pumpSource.BomsAnswer ∧
      explode .standard pumpBackwards pumpOrder = .ok pumpDrafts := by
  have same : pumpSource.SameButForOrder pumpBackwards :=
    { part := fun _ => rfl
      workCenter := fun _ => rfl
      assemblies := fun _ => Iff.rfl
      boms := fun _ => .answered (.found (by decide) (List.reverse_perm _).symm)
      routings := fun _ => .answered (.found (by simp) (.refl _)) }
  have answers : pumpSource.BomsAnswer := fun _ => ⟨_, rfl⟩
  obtain ⟨drafts, -, -⟩ := explode_eq_of_sameButForOrder same answers .standard pumpOrder
  exact ⟨same, answers, (drafts pumpDrafts).mp explode_pump⟩

end Workshop
