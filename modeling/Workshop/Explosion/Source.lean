/-
  Workshop/Explosion/Source.lean
  ==============================
  **Where master data comes from.**  An explosion looks up parts, bills of material,
  routings and work centers by their identifiers; any lookup may fail.  The parts that
  can have a bill of material are listed: they are finitely many, and a part that is
  not listed has none.

  `ensureAcyclic` follows the bills of material downwards and refuses a part that
  contains itself.  A path never holds a part twice, so the walk ends.
-/
import Workshop.Fault
import Workshop.MasterData

namespace Workshop

/-- Lookups of master data. -/
structure MasterSource (Q : Type) where
  part : String → Except (Fault Q) (Option Part)
  bom : String → Except (Fault Q) (Option (Bom × List (BomItem Q)))
  routing : String → Except (Fault Q) (Option (Routing × List (RoutingOperation Q)))
  workCenter : String → Except (Fault Q) (Option (WorkCenter Q))
  /-- The parts whose bill of material may be asked for. -/
  assemblies : List String

namespace MasterSource

variable {Q : Type}

/-- The active bill of material of a part. -/
def activeBom (s : MasterSource Q) (partId : String) :
    Except (Fault Q) (Option (Bom × List (BomItem Q))) :=
  if partId ∈ s.assemblies then
    (s.bom partId).map fun found => found.filter (·.1.isActive)
  else .ok none

/-- The routing of a part, if it is released. -/
def releasedRouting (s : MasterSource Q) (partId : String) :
    Except (Fault Q) (Option (Routing × List (RoutingOperation Q))) :=
  (s.routing partId).map fun found => found.filter (·.1.isReleased)

/-- The assemblies that a path has not yet come to. -/
def unvisited (s : MasterSource Q) (path : List String) : List String :=
  s.assemblies.filter fun p => !path.contains p

theorem unvisited_append_lt (s : MasterSource Q) {path : List String} {p : String}
    (hp : p ∈ s.assemblies) (hn : p ∉ path) :
    (s.unvisited (path ++ [p])).length < (s.unvisited path).length := by
  unfold unvisited
  generalize s.assemblies = xs at hp
  induction xs with
  | nil => cases hp
  | cons x xs ih =>
    have hle : ∀ ys : List String, (ys.filter fun q => !(path ++ [p]).contains q).length ≤
        (ys.filter fun q => !path.contains q).length := by
      intro ys
      induction ys with
      | nil => exact Nat.le_refl _
      | cons y ys ihy =>
        simp only [List.filter_cons]
        by_cases h1 : y ∈ path
        · simp [h1] at ihy ⊢
          exact ihy
        · by_cases h2 : y = p
          · subst h2
            simp [h1] at ihy ⊢
            omega
          · simp [h1, h2] at ihy ⊢
            exact ihy
    by_cases hx : x = p
    · subst hx
      have := hle xs
      simp only [List.filter_cons]
      simp [hn] at this ⊢
      omega
    · have hp' : p ∈ xs := by
        rcases List.mem_cons.mp hp with h | h
        · exact absurd h.symm hx
        · exact h
      have := ih hp'
      simp only [List.filter_cons]
      by_cases h1 : x ∈ path
      · simp [h1] at this ⊢
        exact this
      · simp [h1, hx] at this ⊢
        exact this

/-- Follows the active bills of material down from each of some parts.  A part that is
    on the path already closes a cycle; the path belongs to one branch only. -/
def ensureAcyclicFrom (s : MasterSource Q) (path : List String) :
    List String → Except (Fault Q) Unit
  | [] => .ok ()
  | p :: rest =>
    if _hp : p ∈ path then .error (.circularBom (String.intercalate " -> " (path ++ [p])))
    else if _hm : p ∈ s.assemblies then
      match s.activeBom p with
      | .error e => .error e
      | .ok none => ensureAcyclicFrom s path rest
      | .ok (some found) =>
        match ensureAcyclicFrom s (path ++ [p]) (found.2.map (·.componentPartId)) with
        | .error e => .error e
        | .ok () => ensureAcyclicFrom s path rest
    else ensureAcyclicFrom s path rest
termination_by parts => ((s.unvisited path).length, parts.length)
decreasing_by
  · exact Prod.Lex.right _ (Nat.lt_succ_self _)
  · exact Prod.Lex.left _ _ (s.unvisited_append_lt _hm _hp)
  · exact Prod.Lex.right _ (Nat.lt_succ_self _)
  · exact Prod.Lex.right _ (Nat.lt_succ_self _)

/-- Refuses a part that is contained in itself, or in a part on the given path. -/
def ensureAcyclic (s : MasterSource Q) (partId : String) (path : List String) :
    Except (Fault Q) Unit :=
  s.ensureAcyclicFrom path [partId]

end MasterSource

end Workshop
