/-
  Workshop/Proofs/Execution/Release.lean
  ======================================
  **A release is all or nothing.**  Whatever its answer, a release leaves orders and
  operations as they were, or it is complete (`release_allOrNothing`): a draft order is
  released and has its operations, the first wave of them ready.  Refusals come before the
  one write; what follows it, a scheduling run and the reading of the answer, can fail but
  takes nothing back.

  `ReleaseRan` lists the ways in which a release can end.
-/
import Workshop.Proofs.Execution.Plans
import Workshop.Proofs.Execution.Progress

namespace Workshop

variable {Q : Type}

/-- The operation that a release makes of a draft: ready, if it is of the first wave. -/
def Draft.released (d : Draft Q) [Quantity Q] (first orderId operationId : String) :
    Operation Q :=
  { d.toOperation orderId operationId with
    status := if d.groupKey = first then .ready else .pending }

namespace Store

/-- The row of an order that has been released. -/
def releasedRow (releasedAt : Instant) (r : Row Order.Column Q) : Row Order.Column Q :=
  (r.set .status (.text OrderStatus.released.word)).set .releasedAt (.text releasedAt.write)

theorem releasedRow_cell (releasedAt : Instant) (r : Row Order.Column Q) (c : Order.Column) :
    (releasedRow releasedAt r).cell c =
      if c = .releasedAt then .text releasedAt.write
      else if c = .status then .text OrderStatus.released.word else r c := by
  rw [releasedRow, Row.set_cell, Row.set_cell]

theorem isDraft_iff {orderId : String} {r : Row Order.Column Q} :
    isDraft orderId r = true ↔
      r .orderId = .text orderId ∧ r .status = .text OrderStatus.draft.word := by
  rw [isDraft, Bool.and_eq_true, Cell.isText_iff, Cell.isText_iff]

theorem referring_eq_ok_iff {found : Bool} {s t : Store Q} :
    referring found s = .ok t ↔ found = true ∧ s = t := by
  cases found <;> simp [referring]

variable [Quantity Q]

/-! ### The write of a release -/

/-- An operation comes behind the others if its row breaks no rule of the table and leads to
    an order. -/
theorem insertOperation_eq_ok {s : Store Q} {op : Operation Q}
    (fine : Table.violation? s.operations op.toRow = none)
    (leads : leadsTo op.toRow .orderId s.orders .orderId = true) :
    s.insertOperation op = .ok { s with operations := s.operations ++ [op.toRow] } :=
  bind_eq_ok_iff.mpr ⟨_, orFault_eq_ok_iff.mpr (Table.insert_eq_ok fine),
    orFault_eq_ok_iff.mpr (referring_eq_ok_iff.mpr ⟨leads, rfl⟩)⟩

theorem insertOperations_eq {s t : Store Q} {ops : List (Operation Q)}
    (h : s.insertOperations ops = .ok t) :
    t = { s with operations := s.operations ++ ops.map Operation.toRow } ∧
      (Table.Keyed s.operations → Table.Keyed t.operations) := by
  induction ops generalizing s with
  | nil =>
    cases h
    exact ⟨by simp, id⟩
  | cons op ops ih =>
    obtain ⟨u, hinsert, hrest⟩ := bind_eq_ok_iff.mp h
    obtain ⟨rows, hrows, hfound⟩ := bind_eq_ok_iff.mp hinsert
    have hadded := orFault_eq_ok_iff.mp hrows
    obtain ⟨-, rfl⟩ := referring_eq_ok_iff.mp (orFault_eq_ok_iff.mp hfound)
    obtain ⟨ht, hkeyed⟩ := ih hrest
    have hrows := Table.insert_eq_append hadded
    constructor
    · rw [ht]
      simp [hrows]
    · intro keyed
      exact hkeyed (keyed.insert hadded)

/-- What the write of a release does when it is not refused. -/
theorem releaseWithOperations_eq {s t : Store Q} {orderId : String} {ops : List (Operation Q)}
    {releasedAt : Instant} (keyed : s.Keyed)
    (h : s.releaseWithOperations orderId ops releasedAt = .ok t) :
    (∃ r ∈ s.orders, isDraft orderId r = true) ∧
      t = { s with
        orders := s.orders.map fun r => if isDraft orderId r then releasedRow releasedAt r else r
        operations := s.operations ++ ops.map Operation.toRow } ∧ t.Keyed := by
  obtain ⟨rows, hrows, h⟩ := bind_eq_ok_iff.mp h
  have hmap := Table.updateWhere_eq_map (orFault_eq_ok_iff.mp hrows)
  split at h
  case isFalse => cases h
  case isTrue hany =>
    obtain ⟨ht, hkeyed⟩ := insertOperations_eq h
    refine ⟨List.any_eq_true.mp hany, ?_, ?_, hkeyed keyed.operations⟩
    · rw [ht, hmap]
      rfl
    · rw [ht]
      change Table.Keyed rows
      rw [hmap]
      refine keyed.orders.map [.releasedAt, .status] (by decide) ?_
      intro r c hc
      simp only [List.mem_cons, List.not_mem_nil, not_or] at hc
      split
      · exact (releasedRow_cell releasedAt r c).trans
          ((if_neg hc.1).trans (if_neg hc.2.1))
      · rfl

end Store

/-! ### The first wave -/

variable [Quantity Q]

theorem firstWave_operations (order : Order Q) {d : Draft Q} {ds : List (Draft Q)}
    (identify : Draft Q → String)
    (sorted : (d :: ds).Pairwise fun a b => a.sequence < b.sequence) :
    (Production.firstWave order (d :: ds) identify).operations =
      (d :: ds).map fun e => e.released d.groupKey order.orderId (identify e) := by
  have hsorted : ((d :: ds).map fun e => e.toOperation order.orderId (identify e)).Pairwise
      fun a b => a.sequence < b.sequence := List.pairwise_map.mpr sorted
  obtain ⟨w, hw⟩ : ∃ w : Workset Q, w =
      ⟨order, (d :: ds).map fun e => e.toOperation order.orderId (identify e)⟩ := ⟨_, rfl⟩
  have hwork : Workset.ofOperations order
      ((d :: ds).map fun e => e.toOperation order.orderId (identify e)) = w := by
    rw [hw]
    refine congrArg (Workset.mk order) (List.mergeSort_of_pairwise (hsorted.imp fun h => ?_))
    exact decide_eq_true (Int.le_of_lt h)
  have hactive : w.waves.activeWave = some d.groupKey := by
    have hnone : ∀ op ∈ ([] : List (Operation Q)), op.status = .complete := by simp
    rw [hw]
    exact WaveIndex.activeWave_of_sorted hnone (by nofun) hsorted
  unfold Production.firstWave
  dsimp only
  rw [hwork, Workset.release_operations hactive, hw, List.map_map]
  refine List.map_congr_left fun e _ => ?_
  have hkey : (e.toOperation order.orderId (identify e)).groupKey = e.groupKey := rfl
  simp only [Function.comp_apply, Operation.released, Draft.released, Workset.awaits, hkey]
  by_cases hfirst : e.groupKey = d.groupKey
  · simp [hfirst, Draft.toOperation]
  · simp [hfirst, Draft.toOperation]

/-! ### The ways in which a release ends -/

/-- How a release can end: it is refused, or it writes, and a scheduling run of the order
    may follow. -/
inductive ReleaseRan (clock : Clock) (identify : Draft Q → String) (orderId : String)
    (s : Store Q) : Except ExecutionFault (ReleaseAnswer Q) → Store Q → Prop
  | refused (e : ExecutionFault) : ReleaseRan clock identify orderId s (.error e) s
  | written {order : Order Q} {drafts : List (Draft Q)} {t u : Store Q}
      (answer : Except ExecutionFault (ReleaseAnswer Q)) (found : s.getOrder orderId = .ok order)
      (draft : order.status = .draft)
      (exploded : explode (Settings.explosion s) s.source order = .ok drafts)
      (nonempty : drafts ≠ [])
      (writes : s.releaseWithOperations orderId
        (Production.firstWave order drafts identify).operations clock.now = .ok t)
      (follows : u = t ∨ ∃ request result, request.orderFilter = some orderId ∧
        ScheduleRan t request result u) : ReleaseRan clock identify orderId s answer u

open Transaction

/-- What is read for the answer changes nothing. -/
theorem run_answer (orderId : String) (result : Option (ScheduleResult Q)) (s : Store Q) :
    ((do
      let order ← Transaction.read fun s => s.getOrder orderId
      let operations ← Transaction.read fun s => s.listOperations orderId
      pure ⟨order, operations, result⟩ : Transaction Q (ReleaseAnswer Q)).run s).2 = s := by
  rw [run_bind]
  cases horder : s.getOrder orderId with
  | error e => rw [run_read_error horder]
  | ok order =>
    rw [run_read_ok horder]
    dsimp only
    rw [run_bind]
    cases hoperations : s.listOperations orderId with
    | error e => rw [run_read_error hoperations]
    | ok operations =>
      rw [run_read_ok hoperations]
      rfl

theorem releaseRan (clock : Clock) (identify : Draft Q → String) (orderId : String)
    (s : Store Q) : ReleaseRan clock identify orderId s
      ((Production.release clock identify orderId).run s).1
      ((Production.release clock identify orderId).run s).2 := by
  unfold Production.release
  rw [run_bind]
  cases horder : s.getOrder orderId with
  | error e =>
    rw [run_read_error horder]
    exact .refused _
  | ok order =>
    rw [run_read_ok horder]
    dsimp only
    by_cases hdraft : order.status = .draft
    case neg =>
      rw [if_pos hdraft, run_bind, run_refuse]
      exact .refused _
    rw [if_neg (not_not.mpr hdraft), run_bind, run_current]
    dsimp only
    rw [run_bind]
    cases hexplode : explode (Settings.explosion s) s.source order with
    | error e => exact .refused _
    | ok drafts =>
      rw [run_obey_ok]
      dsimp only
      by_cases hempty : drafts.isEmpty = true
      · rw [if_pos hempty, run_bind, run_refuse]
        exact .refused _
      rw [if_neg hempty, run_bind]
      have hnonempty : drafts ≠ [] := by simpa using hempty
      cases hwrite : s.releaseWithOperations orderId
          (Production.firstWave order drafts identify).operations clock.now with
      | error e =>
        rw [run_write_error (e := e) (by rw [hwrite]; rfl)]
        exact .refused _
      | ok t =>
        rw [run_write_ok (a := ()) (t := t) (by rw [hwrite]; rfl)]
        dsimp only
        rw [run_bind, run_current]
        dsimp only
        split
        case isFalse =>
          rw [run_bind, run_pure]
          dsimp only
          rw [run_answer]
          exact .written _ horder hdraft hexplode hnonempty hwrite (Or.inl rfl)
        case isTrue =>
          rw [run_bind]
          have hran := scheduleRan t clock.today ⟨none, some orderId⟩ none none
          generalize (scheduleRun clock.today ⟨none, some orderId⟩ none none).run t = ran at hran ⊢
          obtain ⟨_ | result, u⟩ := ran
          · exact .written _ horder hdraft hexplode hnonempty hwrite
              (Or.inr ⟨_, _, rfl, hran⟩)
          · dsimp only
            rw [run_bind, run_pure]
            dsimp only
            rw [run_answer]
            exact .written _ horder hdraft hexplode hnonempty hwrite
              (Or.inr ⟨_, _, rfl, hran⟩)

/-! ### All or nothing -/

/-- Orders and operations are as they were. -/
def Store.SameOrders (s t : Store Q) : Prop := t.orders = s.orders ∧ t.operations = s.operations

/-- What a release makes of the row of an order. -/
structure ReleasedRow (orderId : String) (releasedAt : Instant) (r t : Row Order.Column Q) :
    Prop where
  other : r .orderId ≠ .text orderId → t = r
  released : r .orderId = .text orderId → r .status = .text OrderStatus.draft.word ∧
    t .status = .text OrderStatus.released.word ∧ t .releasedAt = .text releasedAt.write
  same : ∀ c, c ≠ .status → c ≠ .releasedAt → t c = r c

/-- A complete release: the order was a draft and is released, and behind the operations
    that there were stand those of its explosion, numbered by tens, the first wave ready.
    Only operations of the order can have got dates. -/
structure Released (clock : Clock) (identify : Draft Q → String) (orderId : String)
    (s t : Store Q) (order : Order Q) (first : Draft Q) (rest : List (Draft Q)) : Prop where
  found : s.getOrder orderId = .ok order
  draft : order.status = .draft
  exploded : explode (Settings.explosion s) s.source order = .ok (first :: rest)
  sequences : (first :: rest).map (·.sequence) =
    (List.range (rest.length + 1)).map fun i : Nat => ((i : Int) + 1) * 10
  present : ∃ r ∈ s.orders, r .orderId = .text orderId
  orders : List.Forall₂ (ReleasedRow orderId clock.now) s.orders t.orders
  operations : ∃ old added, t.operations = old ++ added ∧
    List.Forall₂ (fun r u => Store.LaterRow r u ∧ (r .orderId ≠ .text orderId → u = r))
      s.operations old ∧
    List.Forall₂ (fun d u => Store.LaterRow
      (Draft.released d first.groupKey orderId (identify d)).toRow u) (first :: rest) added

variable {clock : Clock} {identify : Draft Q → String} {orderId : String} {s t u : Store Q}
  {order : Order Q}

theorem Released.not_same {first : Draft Q} {rest : List (Draft Q)}
    (h : Released clock identify orderId s t order first rest) : ¬ s.SameOrders t := by
  rintro ⟨-, hsame⟩
  obtain ⟨old, added, hrows, hold, hadded⟩ := h.operations
  have hlength := congrArg List.length (hsame.symm.trans hrows)
  rw [List.length_append, ← hold.length_eq, ← hadded.length_eq, List.length_cons] at hlength
  omega

theorem releasedRow_of_isDraft (keyed : Table.Keyed s.orders)
    (hdraft : ∃ r ∈ s.orders, Store.isDraft orderId r = true) (releasedAt : Instant)
    {r : Row Order.Column Q} (hr : r ∈ s.orders) :
    ReleasedRow orderId releasedAt r
      (if Store.isDraft orderId r then Store.releasedRow releasedAt r else r) := by
  obtain ⟨d, hd, hdraft⟩ := hdraft
  obtain ⟨hdid, hdstatus⟩ := Store.isDraft_iff.mp hdraft
  by_cases hid : r .orderId = .text orderId
  · -- the one row of the order is the draft
    have heq : r = d := keyed.eq_of_isText (c := .orderId) (by decide) hr hd hid hdid
    subst heq
    rw [if_pos hdraft]
    refine ⟨fun hother => absurd hid hother, fun _ => ⟨hdstatus, ?_, ?_⟩, ?_⟩
    · rw [Store.releasedRow_cell]
      rfl
    · rw [Store.releasedRow_cell]
      rfl
    · intro c hstatus hreleased
      rw [Store.releasedRow_cell, if_neg hreleased, if_neg hstatus]
  · have hnot : ¬ Store.isDraft orderId r = true := fun h => hid (Store.isDraft_iff.mp h).1
    rw [if_neg hnot]
    exact ⟨fun _ => rfl, fun h => absurd h hid, fun _ _ _ => rfl⟩

theorem released_of_write (keyed : s.Keyed) {drafts : List (Draft Q)}
    (found : s.getOrder orderId = .ok order) (draft : order.status = .draft)
    (exploded : explode (Settings.explosion s) s.source order = .ok drafts)
    (nonempty : drafts ≠ [])
    (writes : s.releaseWithOperations orderId
      (Production.firstWave order drafts identify).operations clock.now = .ok t)
    (follows : u = t ∨ ∃ request result, request.orderFilter = some orderId ∧
      ScheduleRan t request result u) :
    ∃ first rest, Released clock identify orderId s u order first rest := by
  obtain ⟨first, rest, rfl⟩ := List.exists_cons_of_ne_nil nonempty
  obtain ⟨hdraft, ht, htkeyed⟩ := Store.releaseWithOperations_eq keyed writes
  -- what follows the write may give dates to operations of the order
  have hfollows : u.orders = t.orders ∧ ∃ change, u.operations = t.operations.map change ∧
      ∀ r ∈ t.operations, Store.LaterRow r (change r) ∧
        (r .orderId ≠ .text orderId → change r = r) := by
    rcases follows with rfl | ⟨request, result, hfilter, hran⟩
    · exact ⟨rfl, id, (List.map_id _).symm, fun r _ => ⟨.refl r, fun _ => rfl⟩⟩
    · obtain ⟨horders, change, hchange, hrows⟩ := hran.rows htkeyed
      refine ⟨horders, change, hchange, fun r hr => ⟨(hrows r hr).1, fun hother => ?_⟩⟩
      apply (hrows r hr).2
      rintro ⟨id, hid, hincluded⟩
      simp only [ScheduleRequest.includesOrder, hfilter, beq_iff_eq] at hincluded
      exact hother (hincluded ▸ hid)
  obtain ⟨horders, change, hchange, hrows⟩ := hfollows
  rw [ht] at horders hchange hrows
  dsimp only at horders hchange hrows
  rw [firstWave_operations order identify (explode_sorted exploded),
    Store.orderId_of_getOrder found] at hchange hrows
  refine ⟨first, rest, found, draft, exploded, explode_sequences exploded, ?_, ?_, ?_⟩
  · obtain ⟨r, hr, hdraft⟩ := hdraft
    exact ⟨r, hr, (Store.isDraft_iff.mp hdraft).1⟩
  · rw [horders]
    exact forall₂_map_self fun r hr => releasedRow_of_isDraft keyed.orders hdraft clock.now hr
  · refine ⟨_, _, hchange.trans List.map_append, ?_, ?_⟩
    · exact forall₂_map_self fun r hr => hrows r (List.mem_append_left _ hr)
    · rw [List.map_map, List.map_map, List.forall₂_map_right_iff, List.forall₂_same]
      intro d hd
      refine (hrows _ (List.mem_append_right _ ?_)).1
      exact List.mem_map_of_mem (List.mem_map_of_mem hd)

/-- **A release is all or nothing**, whether it is answered or refused. -/
theorem release_allOrNothing (s : Store Q) (keyed : s.Keyed) (clock : Clock)
    (identify : Draft Q → String) (orderId : String) :
    let ran := (Production.release clock identify orderId).run s
    Xor (s.SameOrders ran.2)
        (∃ order first rest, Released clock identify orderId s ran.2 order first rest) ∧
      ∀ answer, ran.1 = .ok answer →
        ∃ order first rest, Released clock identify orderId s ran.2 order first rest := by
  intro ran
  have h : ReleaseRan clock identify orderId s ran.1 ran.2 := releaseRan clock identify orderId s
  generalize ran.1 = answer at h ⊢
  generalize ran.2 = t at h ⊢
  cases h with
  | refused e =>
    constructor
    · refine Or.inl ⟨⟨rfl, rfl⟩, ?_⟩
      rintro ⟨order, first, rest, h⟩
      exact h.not_same ⟨rfl, rfl⟩
    · intro answer h
      cases h
  | written answer found draft exploded nonempty writes follows =>
    obtain ⟨first, rest, h⟩ :=
      released_of_write keyed found draft exploded nonempty writes follows
    exact ⟨Or.inr ⟨⟨_, first, rest, h⟩, h.not_same⟩, fun _ _ => ⟨_, first, rest, h⟩⟩

/-! ### A shaft that is turned and ground -/

/-- A draft order for a shaft, which is turned and then ground. -/
def shaftOrder : Order Rat := ⟨"S1", "MO-2", "SHAFT", 1, .draft, 5, none, none, none⟩

def shaftStore : Store Rat :=
  { (Store.empty : Store Rat) with
    workCenters := [Table.rowOf [("work_center_id", .text "LATHE"), ("code", .text "L1"),
      ("name", .text "Lathe")]]
    parts := [Table.rowOf [("part_id", .text "SHAFT"), ("part_number", .text "PN-1"),
      ("name", .text "Shaft")]]
    routings := [Table.rowOf [("routing_id", .text "R1"), ("part_id", .text "SHAFT"),
      ("status", .text "RELEASED")]]
    routingOperations := [
      Table.rowOf [("routing_operation_id", .text "R1-10"), ("routing_id", .text "R1"),
        ("sequence", .integer 10), ("work_center_id", .text "LATHE"), ("name", .text "Turn")],
      Table.rowOf [("routing_operation_id", .text "R1-20"), ("routing_id", .text "R1"),
        ("sequence", .integer 20), ("work_center_id", .text "LATHE"), ("name", .text "Grind")]]
    orders := [shaftOrder.toRow]
    settings := [("scheduling/reschedule_on_release", "false")] }

def shaftClock : Clock :=
  ⟨default, .midnight default⟩

def shaftName (d : Draft Rat) : String := if d.sequence = 10 then "S1/10" else "S1/20"

def shaftSteps : List (RoutingOperation Rat) :=
  [⟨"R1-10", "R1", 10, "LATHE", "Turn", none, 0, 0, false⟩,
    ⟨"R1-20", "R1", 20, "LATHE", "Grind", none, 0, 0, false⟩]

def shaftDrafts : List (Draft Rat) :=
  [⟨10, none, none, "LATHE", "Turn", none, false, 0, 0 * 1⟩,
    ⟨20, none, none, "LATHE", "Grind", none, false, 0, 0 * 1⟩]

theorem findReleasedRouting_shaft : shaftStore.findReleasedRouting "SHAFT" =
    .ok (some (⟨"R1", "SHAFT", "A", .released⟩, shaftSteps)) := by
  have hlatest : Store.readFirst Routing.ofRow (Store.latest .revision
      ((Store.rowsWith shaftStore.routings .partId "SHAFT").filter fun r =>
        (r .status).isText RoutingStatus.released.word)) =
      .ok (some ⟨"R1", "SHAFT", "A", .released⟩) := by
    unfold Store.latest
    rw [List.mergeSort_of_pairwise (by decide)]
    rfl
  refine bind_eq_ok_iff.mpr ⟨_, hlatest, ?_⟩
  dsimp only
  unfold Store.sortedBy
  rw [List.mergeSort_of_pairwise (by decide)]
  rfl

theorem isInspection_shaft {op : RoutingOperation Rat} (hop : op ∈ shaftSteps) :
    Explosion.isInspection (Settings.explosion shaftStore) shaftStore.source op = .ok false := by
  have hwords : ∀ op ∈ shaftSteps, ¬ (op.isInspectionPoint ||
      Explosion.matchesKeyword (Settings.explosion shaftStore) op.name ||
      (op.description.map (Explosion.matchesKeyword (Settings.explosion shaftStore))).getD
        false) = true := by
    decide +kernel
  have hcenter : ∀ op ∈ shaftSteps, op.workCenterId = "LATHE" := by decide
  have hlathe : shaftStore.source.workCenter "LATHE" =
      .ok (some ⟨"LATHE", "L1", "Lathe", 8, 1, 100, true⟩) := rfl
  have hname : Explosion.matchesKeyword (Settings.explosion shaftStore) "Lathe" = false := by
    decide +kernel
  unfold Explosion.isInspection
  rw [if_neg (hwords op hop), hcenter op hop, hlathe]
  dsimp only
  rw [Option.map_some, Option.getD_some, hname]

theorem explode_shaft :
    explode (Settings.explosion shaftStore) shaftStore.source shaftOrder = .ok shaftDrafts := by
  have hrouting : shaftStore.source.releasedRouting "SHAFT" =
      .ok (some (⟨"R1", "SHAFT", "A", .released⟩, shaftSteps)) := by
    unfold MasterSource.releasedRouting Store.source
    dsimp only
    rw [findReleasedRouting_shaft]
    rfl
  have hclassified : Explosion.classified (Settings.explosion shaftStore) shaftStore.source
      shaftSteps = .ok (shaftSteps.map fun op => (op, false)) := by
    unfold Explosion.classified Explosion.sortedOperations
    rw [List.mergeSort_of_pairwise (by decide), mapM_eq_ok_iff, List.forall₂_map_right_iff,
      List.forall₂_same]
    intro op hop
    exact bind_eq_ok_iff.mpr ⟨false, isInspection_shaft hop, rfl⟩
  refine bind_eq_ok_iff.mpr ⟨(), rfl, ?_⟩
  refine bind_eq_ok_iff.mpr ⟨_, rfl, bind_eq_ok_iff.mpr ⟨_, hrouting, ?_⟩⟩
  refine bind_eq_ok_iff.mpr ⟨none, rfl, ?_⟩
  exact bind_eq_ok_iff.mpr ⟨_, hclassified, rfl⟩

/-- The store after the release: the first operation is ready, the second one waits. -/
def shaftReleased : Order Rat :=
  { shaftOrder with status := .released, releasedAt := some shaftClock.now }

def turned : Operation Rat :=
  Draft.released ⟨10, none, none, "LATHE", "Turn", none, false, 0, 0 * 1⟩ "#10" "S1" "S1/10"

def ground : Operation Rat :=
  Draft.released ⟨20, none, none, "LATHE", "Grind", none, false, 0, 0 * 1⟩ "#10" "S1" "S1/20"

def shaftOperations : List (Operation Rat) :=
  [turned, ground]

def shaftStoreAfter (ops : List (Operation Rat)) : Store Rat :=
  { shaftStore with
    orders := [Store.releasedRow shaftClock.now shaftOrder.toRow]
    operations := ops.map Operation.toRow }

theorem release_writes_shaft :
    shaftStore.releaseWithOperations "S1" shaftOperations shaftClock.now =
      .ok (shaftStoreAfter shaftOperations) := by
  have hturn : Table.violation? [] turned.toRow = none := by decide +kernel
  have hgrind : Table.violation? [turned.toRow] ground.toRow = none := by decide +kernel
  refine bind_eq_ok_iff.mpr ⟨_, rfl, ?_⟩
  refine bind_eq_ok_iff.mpr ⟨_, Store.insertOperation_eq_ok hturn rfl, ?_⟩
  exact bind_eq_ok_iff.mpr ⟨_, Store.insertOperation_eq_ok hgrind rfl, rfl⟩

theorem getOrder_shaft : shaftStore.getOrder "S1" = .ok shaftOrder :=
  Store.getOrder_eq_ok_iff.mpr ⟨_, [], rfl,
    ⟨rfl, rfl, rfl, by decide +kernel, by decide +kernel, rfl, rfl, rfl, rfl⟩⟩

theorem getOrder_shaftAfter :
    (shaftStoreAfter shaftOperations).getOrder "S1" = .ok shaftReleased :=
  Store.getOrder_eq_ok_iff.mpr ⟨_, [], rfl,
    ⟨rfl, rfl, rfl, by decide +kernel, by decide +kernel, rfl, rfl, by decide +kernel, rfl⟩⟩

theorem listOperations_shaftAfter :
    (shaftStoreAfter shaftOperations).listOperations "S1" = .ok shaftOperations := by
  unfold Store.listOperations Store.sortedBy
  rw [List.mergeSort_of_pairwise (by decide)]
  refine mapM_eq_ok_iff.mpr (.cons ?_ (.cons ?_ .nil))
  · exact Operation.ofRow_eq_ok_iff.mpr
      ⟨rfl, rfl, rfl, rfl, rfl, rfl, rfl, rfl, rfl, by decide +kernel, by decide +kernel,
        by decide +kernel, by decide +kernel, by decide +kernel, by decide +kernel,
        by decide +kernel, rfl, rfl, rfl, rfl, rfl, rfl, rfl⟩
  · exact Operation.ofRow_eq_ok_iff.mpr
      ⟨rfl, rfl, rfl, rfl, rfl, rfl, rfl, rfl, rfl, by decide +kernel, by decide +kernel,
        by decide +kernel, by decide +kernel, by decide +kernel, by decide +kernel,
        by decide +kernel, rfl, rfl, rfl, rfl, rfl, rfl, rfl⟩

theorem release_shaft :
    (Production.release shaftClock shaftName "S1").run shaftStore =
      (.ok ⟨shaftReleased, shaftOperations, none⟩, shaftStoreAfter shaftOperations) := by
  have hwave : (Production.firstWave shaftOrder shaftDrafts shaftName).operations =
      shaftOperations := firstWave_operations shaftOrder shaftName (by decide)
  have hsettings : Settings.rescheduleOnRelease (shaftStoreAfter shaftOperations) = false := by
    decide +kernel
  unfold Production.release
  rw [run_bind, run_read_ok getOrder_shaft]
  dsimp only
  rw [if_neg (by decide), run_bind, run_current]
  dsimp only
  rw [run_bind, explode_shaft, run_obey_ok]
  dsimp only
  rw [if_neg (by decide), run_bind,
    run_write_ok (a := ()) (t := shaftStoreAfter shaftOperations)
      (by rw [hwave, release_writes_shaft]; rfl)]
  dsimp only
  rw [run_bind, run_current]
  dsimp only
  rw [hsettings, if_neg (by decide), run_bind, run_pure]
  dsimp only
  rw [run_bind, run_read_ok getOrder_shaftAfter]
  dsimp only
  rw [run_bind, run_read_ok listOperations_shaftAfter]
  rfl

theorem keyed_shaft : shaftStore.Keyed where
  orders _ _ := List.pairwise_singleton _ _
  operations _ _ := .nil

/-- Two steps are released, and the second one waits for the first. -/
theorem release_allOrNothing_shaft :
    shaftStore.Keyed ∧
    ((Production.release shaftClock shaftName "S1").run shaftStore).1 =
      .ok ⟨shaftReleased, shaftOperations, none⟩ ∧
    shaftOperations.map (fun op => (op.sequence, op.status)) =
      [(10, .ready), (20, .pending)] ∧
    ∃ order first rest, Released shaftClock shaftName "S1" shaftStore
      ((Production.release shaftClock shaftName "S1").run shaftStore).2 order first rest := by
  have hanswer : ((Production.release shaftClock shaftName "S1").run shaftStore).1 =
      .ok ⟨shaftReleased, shaftOperations, none⟩ := by rw [release_shaft]
  refine ⟨keyed_shaft, hanswer, by decide, ?_⟩
  exact (release_allOrNothing shaftStore keyed_shaft shaftClock shaftName "S1").2 _ hanswer

end Workshop
