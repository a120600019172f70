/-
  Workshop/Proofs/Explosion/Circles.lean
  ======================================
  **Bills of material that lead back to themselves.**  A part uses the components of its
  active bill of material (`MasterSource.Uses`).  The walk down the bills ends, with calls
  nested no deeper than there are assemblies and one more, and it refuses a part exactly when
  one comes down from it to a part that is contained in itself (`ensureAcyclic_exact`).

  `MasterSource.Walk` is the walk as a derivation, without a measure that makes it end: one
  rule for each way in which it goes on, and the depth of its calls.  Everything is proved by
  induction on it.  A refusal reports the way down from the part to the first part that came
  twice (`Walk.exists_circle`); a part that is let through leads to no part that is on the way
  to itself (`Walk.passes_below`).
-/
import Workshop.Explosion.Source
import Mathlib.Data.List.Chain
import Mathlib.Data.List.Nodup
import Mathlib.Logic.Relation

namespace Workshop.MasterSource

variable {Q : Type} {s : MasterSource Q}

/-- The second part is a component on the active bill of material of the first. -/
def Uses (s : MasterSource Q) (assembly component : String) : Prop :=
  ∃ bom items, s.activeBom assembly = .ok (some (bom, items)) ∧
    ∃ item ∈ items, item.componentPartId = component

/-- One comes down from the part to a part that is contained in itself. -/
def IsCircular (s : MasterSource Q) (part : String) : Prop :=
  ∃ q, Relation.ReflTransGen s.Uses part q ∧ Relation.TransGen s.Uses q q

/-- The way down from a part, through parts that are all different, to the first that has come
    before. -/
structure Circle (s : MasterSource Q) (part : String) (earlier : List String) (last : String) :
    Prop where
  starts : earlier.head? = some part
  follows : (earlier ++ [last]).IsChain s.Uses
  distinct : earlier.Nodup
  closes : earlier.count last = 1

/-- Every bill of material can be looked up. -/
def BomsAnswer (s : MasterSource Q) : Prop := ∀ part, ∃ found, s.bom part = .ok found

theorem BomsAnswer.activeBom (answers : s.BomsAnswer) (part : String) :
    ∃ found, s.activeBom part = .ok found := by
  unfold MasterSource.activeBom
  split
  · obtain ⟨found, hfound⟩ := answers part
    rw [hfound]
    exact ⟨_, rfl⟩
  · exact ⟨none, rfl⟩

/-! ### The walk -/

/-- The walk down from each of some parts behind a path, with calls nested at most so deep,
    and its verdict. -/
inductive Walk (s : MasterSource Q) :
    Nat → List String → List String → Except (Fault Q) Unit → Prop
  | done {n : Nat} {path : List String} : Walk s n path [] (.ok ())
  | closed {n : Nat} {path rest : List String} {p : String} (known : p ∈ path) :
      Walk s (n + 1) path (p :: rest)
        (.error (.circularBom (String.intercalate " -> " (path ++ [p]))))
  | unread {n : Nat} {path rest : List String} {p : String} {e : Fault Q} (new : p ∉ path)
      (lookup : s.activeBom p = .error e) : Walk s (n + 1) path (p :: rest) (.error e)
  | bottom {n : Nat} {path rest : List String} {p : String} {r : Except (Fault Q) Unit}
      (new : p ∉ path) (lookup : s.activeBom p = .ok none) (next : Walk s (n + 1) path rest r) :
      Walk s (n + 1) path (p :: rest) r
  | refused {n : Nat} {path rest : List String} {p : String} {e : Fault Q} {bom : Bom}
      {items : List (BomItem Q)} (new : p ∉ path)
      (lookup : s.activeBom p = .ok (some (bom, items)))
      (below : Walk s n (path ++ [p]) (items.map (·.componentPartId)) (.error e)) :
      Walk s (n + 1) path (p :: rest) (.error e)
  | passed {n : Nat} {path rest : List String} {p : String} {r : Except (Fault Q) Unit}
      {bom : Bom} {items : List (BomItem Q)} (new : p ∉ path)
      (lookup : s.activeBom p = .ok (some (bom, items)))
      (below : Walk s n (path ++ [p]) (items.map (·.componentPartId)) (.ok ()))
      (next : Walk s (n + 1) path rest r) : Walk s (n + 1) path (p :: rest) r

namespace Walk

variable {n : Nat} {path parts : List String} {r : Except (Fault Q) Unit}

theorem deeper (h : s.Walk n path parts r) : s.Walk (n + 1) path parts r := by
  induction h with
  | done => exact .done
  | closed known => exact .closed known
  | unread new lookup => exact .unread new lookup
  | bottom new lookup next ih => exact .bottom new lookup ih
  | refused new lookup below ih => exact .refused new lookup ih
  | passed new lookup below next ihBelow ihNext => exact .passed new lookup ihBelow ihNext

theorem mono (h : s.Walk n path parts r) {m : Nat} (le : n ≤ m) : s.Walk m path parts r := by
  induction le with
  | refl => exact h
  | step le ih => exact ih.deeper

end Walk

theorem activeBom_of_not_listed {p : String} (h : p ∉ s.assemblies) : s.activeBom p = .ok none :=
  if_neg h

/-- The walk ends: each call goes down to an assembly that the path has not come to. -/
theorem walk_ensureAcyclicFrom (s : MasterSource Q) (path parts : List String) :
    s.Walk ((s.unvisited path).length + 1) path parts (s.ensureAcyclicFrom path parts) := by
  fun_induction ensureAcyclicFrom s path parts with
  | case1 path => exact .done
  | case2 path p rest known => exact .closed known
  | case3 path p rest new listed e lookup => exact .unread new lookup
  | case4 path p rest new listed lookup ih => exact .bottom new lookup ih
  | case5 path p rest new listed found lookup e refused ih =>
    rw [refused] at ih
    exact .refused new lookup (ih.mono (s.unvisited_append_lt listed new))
  | case6 path p rest new listed found lookup passed ihBelow ihNext =>
    rw [passed] at ihBelow
    exact .passed new lookup (ihBelow.mono (s.unvisited_append_lt listed new)) ihNext
  | case7 path p rest new listed ih => exact .bottom new (activeBom_of_not_listed listed) ih

theorem listed_of_activeBom {p : String}
    {found : Except (Fault Q) (Option (Bom × List (BomItem Q)))}
    (lookup : s.activeBom p = found) (some : found ≠ .ok none) : p ∈ s.assemblies := by
  by_contra h
  exact some (lookup.symm.trans (activeBom_of_not_listed h))

theorem ensureAcyclicFrom_bottom {path rest : List String} {p : String} (new : p ∉ path)
    (lookup : s.activeBom p = .ok none) :
    s.ensureAcyclicFrom path (p :: rest) = s.ensureAcyclicFrom path rest := by
  rw [ensureAcyclicFrom, dif_neg new]
  split
  · rw [lookup]
  · rfl

theorem ensureAcyclicFrom_below {path rest : List String} {p : String} {bom : Bom}
    {items : List (BomItem Q)} (new : p ∉ path) (lookup : s.activeBom p = .ok (some (bom, items))) :
    s.ensureAcyclicFrom path (p :: rest) =
      (s.ensureAcyclicFrom (path ++ [p]) (items.map (·.componentPartId)) >>= fun _ =>
        s.ensureAcyclicFrom path rest) := by
  rw [ensureAcyclicFrom, dif_neg new, dif_pos (listed_of_activeBom lookup (by simp)), lookup]
  dsimp only
  cases s.ensureAcyclicFrom (path ++ [p]) (items.map (·.componentPartId)) <;> rfl

/-- The walk has one verdict. -/
theorem Walk.eq_ensureAcyclicFrom {n : Nat} {path parts : List String}
    {r : Except (Fault Q) Unit} (h : s.Walk n path parts r) :
    r = s.ensureAcyclicFrom path parts := by
  induction h with
  | done => rw [ensureAcyclicFrom]
  | closed known => rw [ensureAcyclicFrom, dif_pos known]
  | unread new lookup =>
    rw [ensureAcyclicFrom, dif_neg new, dif_pos (listed_of_activeBom lookup (by simp)), lookup]
  | bottom new lookup next ih => rw [ih, ensureAcyclicFrom_bottom new lookup]
  | refused new lookup below ih =>
    rw [ensureAcyclicFrom_below new lookup, ← ih]
    rfl
  | passed new lookup below next ihBelow ihNext =>
    rw [ihNext, ensureAcyclicFrom_below new lookup, ← ihBelow]
    rfl

/-! ### What a refusal reports -/

/-- A refusal reports a way down that goes on behind the path. -/
theorem Walk.exists_way (answers : s.BomsAnswer) {n : Nat} {path parts : List String}
    {e : Fault Q} (h : s.Walk n path parts (.error e)) (distinct : path.Nodup)
    (follows : ∀ p ∈ parts, (path ++ [p]).IsChain s.Uses) :
    ∃ p ∈ parts, ∃ earlier last, e = .circularBom (String.intercalate " -> " (earlier ++ [last])) ∧
      path ++ [p] <+: earlier ++ [last] ∧ (earlier ++ [last]).IsChain s.Uses ∧
      earlier.Nodup ∧ last ∈ earlier := by
  generalize hr : (Except.error e : Except (Fault Q) Unit) = r at h
  induction h with
  | done => cases hr
  | closed known =>
    rename_i path rest p
    cases hr
    exact ⟨p, List.mem_cons_self, path, p, rfl, List.prefix_rfl, follows p List.mem_cons_self,
      distinct, known⟩
  | unread new lookup =>
    rename_i path rest p e'
    obtain ⟨found, hfound⟩ := answers.activeBom p
    rw [hfound] at lookup
    cases lookup
  | bottom new lookup next ih =>
    obtain ⟨p, hp, way⟩ := ih distinct (fun p hp => follows p (List.mem_cons_of_mem _ hp)) hr
    exact ⟨p, List.mem_cons_of_mem _ hp, way⟩
  | refused new lookup below ih =>
    rename_i path rest p e' bom items
    have distinctBelow : (path ++ [p]).Nodup := by
      rw [← List.concat_eq_append]
      exact distinct.concat new
    have followsBelow : ∀ c ∈ items.map (·.componentPartId),
        (path ++ [p] ++ [c]).IsChain s.Uses := by
      intro c hc
      obtain ⟨item, hitem, rfl⟩ := List.mem_map.mp hc
      refine List.isChain_append.mpr ⟨follows p List.mem_cons_self, List.isChain_singleton _, ?_⟩
      simp only [List.getLast?_concat, List.head?_cons, Option.mem_some]
      rintro _ rfl _ rfl
      exact ⟨bom, items, lookup, item, hitem, rfl⟩
    obtain ⟨c, -, earlier, last, he, hprefix, rest⟩ := ih distinctBelow followsBelow hr
    exact ⟨p, List.mem_cons_self, earlier, last, he, (List.prefix_append _ _).trans hprefix, rest⟩
  | passed new lookup below next ihBelow ihNext =>
    obtain ⟨p, hp, way⟩ := ihNext distinct (fun p hp => follows p (List.mem_cons_of_mem _ hp)) hr
    exact ⟨p, List.mem_cons_of_mem _ hp, way⟩

theorem Walk.exists_circle (answers : s.BomsAnswer) {n : Nat} {part : String} {e : Fault Q}
    (h : s.Walk n [] [part] (.error e)) :
    ∃ earlier last, e = .circularBom (String.intercalate " -> " (earlier ++ [last])) ∧
      s.Circle part earlier last := by
  obtain ⟨p, hp, earlier, last, he, hprefix, follows, distinct, closes⟩ :=
    h.exists_way answers List.nodup_nil (fun p _ => List.isChain_singleton p)
  obtain rfl := List.mem_singleton.mp hp
  refine ⟨earlier, last, he, ?_, follows, distinct, List.count_eq_one_of_mem distinct closes⟩
  cases earlier with
  | nil => cases closes
  | cons first earlier =>
    rw [List.nil_append, List.cons_append, List.cons_prefix_cons] at hprefix
    exact congrArg some hprefix.1.symm

/-- Whoever goes round a circle comes down to a part that is contained in itself. -/
theorem Circle.isCircular {part last : String} {earlier : List String}
    (h : s.Circle part earlier last) : s.IsCircular part := by
  have below : (earlier ++ [last]).Pairwise (Relation.TransGen s.Uses) :=
    (h.follows.imp fun _ _ => Relation.TransGen.single).pairwise
  have reach : ∀ p ∈ earlier, Relation.TransGen s.Uses p last := fun p hp =>
    (List.pairwise_append.mp below).2.2 p hp last List.mem_cons_self
  have closes : last ∈ earlier := List.count_pos_iff.mp (by rw [h.closes]; exact Nat.one_pos)
  exact ⟨last, (reach part (List.mem_of_mem_head? h.starts)).to_reflTransGen, reach last closes⟩

/-! ### What is let through -/

theorem Walk.passes_each {n : Nat} {path parts : List String}
    (h : s.Walk n path parts (.ok ())) {p : String} (hp : p ∈ parts) :
    s.Walk n path [p] (.ok ()) := by
  generalize hr : (Except.ok () : Except (Fault Q) Unit) = r at h
  induction h with
  | done => cases hp
  | closed known => cases hr
  | unread new lookup => cases hr
  | bottom new lookup next ih =>
    subst hr
    rcases List.mem_cons.mp hp with rfl | hp
    · exact .bottom new lookup .done
    · exact ih hp rfl
  | refused new lookup below ih => cases hr
  | passed new lookup below next ihBelow ihNext =>
    subst hr
    rcases List.mem_cons.mp hp with rfl | hp
    · exact .passed new lookup below .done
    · exact ihNext hp rfl

/-- A part that is let through behind a path is new to it, and what it uses is let through
    behind the path with the part. -/
theorem Walk.passes_below {n : Nat} {path : List String} {p : String}
    (h : s.Walk n path [p] (.ok ())) :
    p ∉ path ∧ ∀ c, s.Uses p c → s.Walk n (path ++ [p]) [c] (.ok ()) := by
  cases h with
  | bottom new lookup next =>
    refine ⟨new, fun c hc => ?_⟩
    obtain ⟨bom, items, lookup', -⟩ := hc
    rw [lookup] at lookup'
    cases lookup'
  | passed new lookup below next =>
    refine ⟨new, fun c hc => ?_⟩
    obtain ⟨bom', items', lookup', item, hitem, rfl⟩ := hc
    rw [lookup] at lookup'
    cases lookup'
    exact (below.passes_each (List.mem_map_of_mem hitem)).deeper

/-- The way down from a part that is let through never comes to the part again. -/
theorem Walk.passes_after {n : Nat} {path : List String} {p q : String}
    (h : s.Walk n path [p] (.ok ())) (after : Relation.TransGen s.Uses p q) :
    ∃ longer, p ∈ longer ∧ s.Walk n longer [q] (.ok ()) := by
  have grows : ∃ longer, path ++ [p] ⊆ longer ∧ s.Walk n longer [q] (.ok ()) := by
    induction after with
    | single uses => exact ⟨path ++ [p], List.Subset.refl _, h.passes_below.2 _ uses⟩
    | tail _ uses ih =>
      obtain ⟨longer, sub, walk⟩ := ih
      exact ⟨_, fun x hx => List.mem_append_left _ (sub hx), walk.passes_below.2 _ uses⟩
  obtain ⟨longer, sub, walk⟩ := grows
  exact ⟨longer, sub (List.mem_append_right _ List.mem_cons_self), walk⟩

theorem Walk.not_isCircular {n : Nat} {path : List String} {p : String}
    (h : s.Walk n path [p] (.ok ())) : ¬ s.IsCircular p := by
  rintro ⟨q, reach, round⟩
  obtain ⟨way, walk⟩ : ∃ way, s.Walk n way [q] (.ok ()) := by
    rcases Relation.reflTransGen_iff_eq_or_transGen.mp reach with rfl | after
    · exact ⟨path, h⟩
    · obtain ⟨way, -, walk⟩ := h.passes_after after
      exact ⟨way, walk⟩
  obtain ⟨longer, known, again⟩ := walk.passes_after round
  exact again.passes_below.1 known

/-! ### The verdict -/

/-- What the walk from a part answers. -/
theorem walk_ensureAcyclic (s : MasterSource Q) (part : String) :
    s.Walk (s.assemblies.length + 1) [] [part] (s.ensureAcyclic part []) :=
  (s.walk_ensureAcyclicFrom [] [part]).mono (Nat.succ_le_succ (List.length_filter_le _ _))

theorem exists_circle_of_refused (answers : s.BomsAnswer) {part : String} {e : Fault Q}
    (h : s.ensureAcyclic part [] = .error e) :
    ∃ earlier last, e = .circularBom (String.intercalate " -> " (earlier ++ [last])) ∧
      s.Circle part earlier last :=
  (h ▸ s.walk_ensureAcyclic part).exists_circle answers

theorem refused_of_isCircular (answers : s.BomsAnswer) {part : String}
    (h : s.IsCircular part) :
    ∃ text, s.ensureAcyclic part [] = .error (.circularBom text) := by
  cases hwalk : s.ensureAcyclic part [] with
  | ok _ => exact absurd h (hwalk ▸ s.walk_ensureAcyclic part).not_isCircular
  | error e =>
    obtain ⟨earlier, last, rfl, -⟩ := exists_circle_of_refused answers hwalk
    exact ⟨_, rfl⟩

theorem refused_iff_isCircular (answers : s.BomsAnswer) {part : String} :
    (∃ text, s.ensureAcyclic part [] = .error (.circularBom text)) ↔ s.IsCircular part := by
  constructor
  · rintro ⟨text, h⟩
    obtain ⟨earlier, last, -, circle⟩ := exists_circle_of_refused answers h
    exact circle.isCircular
  · exact refused_of_isCircular answers

theorem passes_of_not_isCircular (answers : s.BomsAnswer) {part : String}
    (h : ¬ s.IsCircular part) : s.ensureAcyclic part [] = .ok () := by
  cases hwalk : s.ensureAcyclic part [] with
  | ok _ => rfl
  | error e =>
    obtain ⟨earlier, last, -, circle⟩ := exists_circle_of_refused answers hwalk
    exact absurd circle.isCircular h

/-- The walk from a part ends with one verdict, with calls nested no deeper than there are
    assemblies and one more.  It refuses the part exactly when one comes down from it to a part
    that is contained in itself, with the way there as its report, and lets it through
    otherwise. -/
theorem ensureAcyclic_exact (s : MasterSource Q) (answers : s.BomsAnswer) (part : String) :
    s.Walk (s.assemblies.length + 1) [] [part] (s.ensureAcyclic part []) ∧
      (∀ n r, s.Walk n [] [part] r → r = s.ensureAcyclic part []) ∧
      ((∃ text, s.ensureAcyclic part [] = .error (.circularBom text)) ↔ s.IsCircular part) ∧
      (¬ s.IsCircular part → s.ensureAcyclic part [] = .ok ()) ∧
      ∀ text, s.ensureAcyclic part [] = .error (.circularBom text) →
        ∃ earlier last, text = String.intercalate " -> " (earlier ++ [last]) ∧
          s.Circle part earlier last := by
  refine ⟨s.walk_ensureAcyclic part, fun n r walk => walk.eq_ensureAcyclicFrom,
    refused_iff_isCircular answers, passes_of_not_isCircular answers, fun text h => ?_⟩
  obtain ⟨earlier, last, he, circle⟩ := exists_circle_of_refused answers h
  exact ⟨earlier, last, Fault.circularBom.inj he, circle⟩

/-! ### A gear box and a motor -/

/-- The components of the parts of a drive.  Both shafts of the gear box run in the same
    bearing; the rotor of the motor was entered with the motor as its component. -/
def driveComponents : String → List String
  | "BOX" => ["WHEEL", "SHAFT"]
  | "WHEEL" => ["BEARING"]
  | "SHAFT" => ["BEARING"]
  | "DRIVE" => ["MOTOR", "BOX"]
  | "MOTOR" => ["ROTOR"]
  | "ROTOR" => ["MOTOR"]
  | _ => []

def driveSource : MasterSource Rat where
  part _ := .ok none
  bom id := .ok (some (⟨id, id, "A", true⟩, (driveComponents id).map fun c => ⟨1, id, 10, c, 1⟩))
  routing _ := .ok none
  workCenter _ := .ok none
  assemblies := ["BOX", "WHEEL", "SHAFT", "DRIVE", "MOTOR", "ROTOR"]

theorem walk_box : driveSource.Walk 3 [] ["BOX"] (.ok ()) := by
  have bearing : ∀ path, "BEARING" ∉ path → driveSource.Walk 1 path ["BEARING"] (.ok ()) :=
    fun path new => .bottom new rfl .done
  have shaft : driveSource.Walk 2 ["BOX"] ["SHAFT"] (.ok ()) :=
    .passed (by decide) rfl (bearing _ (by decide)) .done
  exact .passed (by decide) rfl (.passed (by decide) rfl (bearing _ (by decide)) shaft) .done

/-- A bearing that two shafts share is let through; a motor in its own rotor is not. -/
theorem ensureAcyclic_exact_drive :
    driveSource.BomsAnswer ∧ ¬ driveSource.IsCircular "BOX" ∧
      driveSource.Walk 7 [] ["DRIVE"]
        (.error (.circularBom "DRIVE -> MOTOR -> ROTOR -> MOTOR")) ∧
      driveSource.IsCircular "DRIVE" ∧
      ∃ earlier last, "DRIVE -> MOTOR -> ROTOR -> MOTOR" =
          String.intercalate " -> " (earlier ++ [last]) ∧
        driveSource.Circle "DRIVE" earlier last := by
  have answers : driveSource.BomsAnswer := fun _ => ⟨_, rfl⟩
  obtain ⟨-, box, circularBox, -, -⟩ := ensureAcyclic_exact driveSource answers "BOX"
  obtain ⟨ends, drive, circularDrive, -, report⟩ := ensureAcyclic_exact driveSource answers "DRIVE"
  have refused := drive 4 _ (.refused (by decide) rfl (.refused (by decide) rfl
    (.refused (by decide) rfl (.closed (by decide)))))
  refine ⟨answers, fun circular => ?_, refused ▸ ends, circularDrive.mp ⟨_, refused.symm⟩,
    report _ refused.symm⟩
  obtain ⟨text, h⟩ := circularBox.mpr circular
  rw [← box 3 _ walk_box] at h
  cases h

end Workshop.MasterSource
