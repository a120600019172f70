/-
  Workshop/Proofs/Execution/Recording.lean
  ========================================
  **The store records what an action has done.**  When an action is answered, the order and
  its operations, read again, are those that `Workset.apply` made of what was read before
  (`transition_recorded`), and nothing else has changed: not the rows of other orders, and
  of an operation neither its plan nor its dates.

  One thing is lost: a zero is kept without its sign, so a report of minus zero is answered
  as it was made and read as zero (`transition_loses_sign`).
-/
import Workshop.Proofs.Execution.Outcomes
import Workshop.Proofs.Execution.Transactions
import Workshop.Proofs.Store.ExecutionRecords
import Workshop.Proofs.Store.GuardedDates

namespace Workshop

variable {Q : Type} [Quantity Q]

/-! ### Orders with their operations -/

/-- An order with its operations, as an action reads them. -/
def Store.workset (s : Store Q) (orderId : String) : Except StoreFault (Workset Q) := do
  let order ← s.getOrder orderId
  let operations ← s.listOperations order.orderId
  .ok (Workset.ofOperations order operations)

omit [Quantity Q] in
theorem Workset.ofOperations_of_sorted {order : Order Q} {ops : List (Operation Q)}
    (h : ops.Pairwise fun a b => a.sequence ≤ b.sequence) :
    Workset.ofOperations order ops = ⟨order, ops⟩ :=
  congrArg (Workset.mk order) (List.mergeSort_of_pairwise (h.imp decide_eq_true))

/-- Operations come in the order of their sequence numbers already. -/
theorem Store.workset_eq_ok_iff {s : Store Q} {orderId : String} {w : Workset Q} :
    s.workset orderId = .ok w ↔
      s.getOrder orderId = .ok w.order ∧ s.listOperations orderId = .ok w.operations := by
  constructor
  · intro h
    obtain ⟨order, horder, h⟩ := bind_eq_ok_iff.mp h
    obtain ⟨ops, hops, h⟩ := bind_eq_ok_iff.mp h
    cases h
    rw [orderId_of_getOrder horder] at hops
    rw [Workset.ofOperations_of_sorted (sorted_listOperations hops)]
    exact ⟨horder, hops⟩
  · rintro ⟨horder, hops⟩
    refine bind_eq_ok_iff.mpr ⟨w.order, horder, bind_eq_ok_iff.mpr ⟨w.operations, ?_, ?_⟩⟩
    · rw [orderId_of_getOrder horder]
      exact hops
    · rw [Workset.ofOperations_of_sorted (sorted_listOperations hops)]

/-! ### The answer to an action -/

open Transaction

/-- How an action comes to be answered: the order of its operation is read as the workset
    `v`, the action makes `w` of it, and that is written. -/
structure Answered (clock : Clock) (operationId : String) (action : Action) (report : Report Q)
    (s t : Store Q) (answer : ActionAnswer Q) (orderId : String) (v w : Workset Q) : Prop where
  found : ∃ op, s.findOperation operationId = .ok (some op) ∧ op.orderId = orderId
  order : s.getOrder orderId = .ok v.order
  operations : s.listOperations orderId = .ok v.operations
  applied : v.apply operationId action report clock.now = .ok (w, answer.outcome)
  written : ∃ u, s.applyTransition w.order (Production.changedBy answer.outcome w) = .ok u ∧
    t.orders = u.orders ∧ t.operations = u.operations
  answerOperation : w.operation? operationId = some answer.operation
  answerOrder : answer.order = w.order

omit [Quantity Q] in
/-- The answer is put together from what was written. -/
theorem run_answer_action {w : Workset Q} {operationId : String} {outcome : Outcome}
    {availability : List (String × Q)} {s t : Store Q} {answer : ActionAnswer Q}
    (h : (match w.operation? operationId with
      | some op => pure ⟨op, w.order, outcome, availability⟩
      | none => refuse (.internal ("工序" ++ operationId ++ "丢失")) :
        Transaction Q (ActionAnswer Q)).run s = (.ok answer, t)) :
    t = s ∧ answer.outcome = outcome ∧ w.operation? operationId = some answer.operation ∧
      answer.order = w.order := by
  cases hop : w.operation? operationId with
  | none =>
    rw [hop] at h
    cases h
  | some op =>
    rw [hop] at h
    cases h
    exact ⟨rfl, rfl, rfl, rfl⟩

theorem transition_answered {clock : Clock} {operationId : String} {action : Action}
    {report : Report Q} {s t : Store Q} {answer : ActionAnswer Q}
    (h : (Production.transition clock operationId action report).run s = (.ok answer, t)) :
    ∃ orderId v w, Answered clock operationId action report s t answer orderId v w := by
  obtain ⟨found, _, hread1, h1⟩ := run_bind_eq_ok_iff.mp h
  obtain ⟨hfound, rfl⟩ := run_read_eq_ok_iff.mp hread1
  cases found with
  | none => cases h1
  | some found =>
    dsimp only at h1
    obtain ⟨order, _, hread2, h2⟩ := run_bind_eq_ok_iff.mp h1
    obtain ⟨horder, rfl⟩ := run_read_eq_ok_iff.mp hread2
    obtain ⟨ops, _, hread3, h3⟩ := run_bind_eq_ok_iff.mp h2
    obtain ⟨hops, rfl⟩ := run_read_eq_ok_iff.mp hread3
    obtain ⟨⟨w, outcome⟩, _, hobeyed, h4⟩ := run_bind_eq_ok_iff.mp h3
    obtain ⟨happly, rfl⟩ := run_obey_eq_ok_iff.mp hobeyed
    dsimp only at h4
    obtain ⟨_, u, hwritten, h5⟩ := run_bind_eq_ok_iff.mp h4
    obtain ⟨u', hwrite, hu⟩ := bind_eq_ok_iff.mp (run_write_eq_ok_iff.mp hwritten)
    cases hu
    -- the work centers alone may be written after the orders
    obtain ⟨v, availability, hlast, horders, hoperations⟩ : ∃ v availability,
        (match w.operation? operationId with
          | some op => pure ⟨op, w.order, outcome, availability⟩
          | none => refuse (.internal ("工序" ++ operationId ++ "丢失")) :
            Transaction Q (ActionAnswer Q)).run v = (.ok answer, t) ∧
        v.orders = u.orders ∧ v.operations = u.operations := by
      split at h5
      · exact ⟨u, [], h5, rfl, rfl⟩
      · obtain ⟨availability, v, hrates, h6⟩ := run_bind_eq_ok_iff.mp h5
        have hrates := Store.recalculate_eq (run_write_eq_ok_iff.mp hrates)
        refine ⟨v, availability, h6, ?_, ?_⟩
        · rw [hrates]
        · rw [hrates]
    obtain ⟨rfl, rfl, hop, hanswer⟩ := run_answer_action hlast
    rw [Workset.ofOperations_of_sorted (Store.sorted_listOperations hops)] at happly
    exact ⟨found.orderId, ⟨order, ops⟩, w,
      { found := ⟨found, hfound, rfl⟩
        order := horder
        operations := Store.orderId_of_getOrder horder ▸ hops
        applied := happly
        written := ⟨u, hwrite, horders, hoperations⟩
        answerOperation := hop
        answerOrder := hanswer }⟩

/-! ### What is read after the write -/

omit [Quantity Q] in
theorem Operation.Dated.of_worked {now : Instant} {named : String → Prop} {a b : Operation Q}
    (h : a.Dated) (hnow : now.FourDigitYear) (worked : Operation.Worked now named a b) :
    b.Dated where
  actualStart := by
    intro t ht
    rcases worked.actualStart with heq | heq
    · exact h.actualStart t (heq ▸ ht)
    · rw [heq] at ht
      exact Option.some.inj ht ▸ hnow
  actualEnd := by
    intro t ht
    rcases worked.actualEnd with heq | heq
    · exact h.actualEnd t (heq ▸ ht)
    · rw [heq] at ht
      exact Option.some.inj ht ▸ hnow

namespace Store

/-- The times of execution in the store fall into years with four digits. -/
structure Dated (s : Store Q) : Prop where
  operations : ∀ r ∈ s.operations, ∀ op, Operation.Reads r op → op.Dated
  orders : ∀ r ∈ s.orders, ∀ o, Order.Reads r o → ∀ t, o.completedAt = some t → t.FourDigitYear

variable {s t : Store Q} {orderId : String}

omit [Quantity Q] in
theorem hasKey_order_iff {r : Row Order.Column Q} :
    Table.hasKey orderId r = true ↔ r .orderId = .text orderId := Cell.isText_iff

theorem getOrder_of_progress {order o : Order Q} (h : s.getOrder orderId = .ok order)
    (ht : t.orders = s.orders.map fun r => if Table.hasKey orderId r then progressRow o r else r)
    (ho : o = { order with status := o.status, completedAt := o.completedAt })
    (dated : ∀ t, o.completedAt = some t → t.FourDigitYear) : t.getOrder orderId = .ok o := by
  obtain ⟨r, rest, hrows, hread⟩ := getOrder_eq_ok_iff.mp h
  have hr : r .orderId = .text orderId :=
    (mem_rowsWith.mp (hrows ▸ List.mem_cons_self : r ∈ rowsWith s.orders .orderId orderId)).2
  have hsame : ∀ r : Row Order.Column Q,
      (if Table.hasKey orderId r then progressRow o r else r) .orderId = r .orderId := by
    intro r
    split
    · rw [progressRow_cell, if_neg (by decide), if_neg (by decide)]
    · rfl
  have hrows : rowsWith t.orders .orderId orderId = progressRow o r :: rest.map fun r =>
      if Table.hasKey orderId r then progressRow o r else r := by
    rw [ht, rowsWith_map hsame, hrows, List.map_cons, if_pos (hasKey_order_iff.mpr hr)]
  refine getOrder_eq_ok_iff.mpr ⟨_, _, hrows, ?_⟩
  rw [ho]
  exact hread.progress o.status dated

omit [Quantity Q] in
theorem mem_changedBy_iff {outcome : Outcome} {w : Workset Q} {op : Operation Q} :
    op ∈ Production.changedBy outcome w ↔ op ∈ w.operations ∧ outcome.Names op.operationId := by
  simp [Production.changedBy, Outcome.Names]

/-- The stored operation `a` counts as the one `b` that was made, and is the same where the
    outcome does not name it. -/
def Kept (same : Operation Q → Operation Q → Prop) (outcome : Outcome) (a b : Operation Q) :
    Prop :=
  same a b ∧ (¬ outcome.Names b.operationId → a = b)

/-- What is read from the row of an operation after the write: what it has become. -/
theorem exists_read_of_worked [Quantity.LawfulZero Q] {outcome : Outcome} {w : Workset Q}
    {now : Instant} {r : Row Operation.Column Q} {a b : Operation Q}
    (distinct : (w.operations.map (·.operationId)).Nodup)
    (measured : ∀ op ∈ Production.changedBy outcome w, op.Measured)
    (hread : Operation.Reads r a) (dated : a.Dated) (hnow : now.FourDigitYear)
    (hb : b ∈ w.operations) (worked : Operation.Worked now outcome.Names a b) :
    ∃ c, Operation.ofRow (recordAll (Production.changedBy outcome w) r) = .ok c ∧
      Kept Operation.Alike outcome c b := by
  have hid := Row.text_eq_ok_iff.mp hread.operationId
  have hsame := Operation.operationId_eq_of_job worked.job
  by_cases hnamed : outcome.Names a.operationId
  · have hmem : b ∈ Production.changedBy outcome w := mem_changedBy_iff.mpr ⟨hb, hsame ▸ hnamed⟩
    have hdistinct : ((Production.changedBy outcome w).map (·.operationId)).Nodup :=
      distinct.sublist (List.filter_sublist.map _)
    refine ⟨Operation.recorded a b, ?_, Operation.alike_recorded worked.job,
      absurd (hsame ▸ hnamed)⟩
    rw [recordAll_of_mem hdistinct hmem (hsame ▸ hid)]
    exact Operation.ofRow_eq_ok_iff.mpr
      (hread.record (dated.of_worked hnow worked) (measured b hmem))
  · rw [worked.unnamed hnamed, recordAll_of_ne]
    · exact ⟨a, Operation.ofRow_eq_ok_iff.mpr hread, .refl a, fun _ => rfl⟩
    · intro op hop heq
      rw [hid] at heq
      exact hnamed (Cell.text.inj heq ▸ (mem_changedBy_iff.mp hop).2)

variable {outcome : Outcome} {v w : Workset Q} {now : Instant}

theorem exists_listOperations [Quantity.LawfulZero Q] (keyed : s.Keyed) (dated : s.Dated)
    (hnow : now.FourDigitYear) (h : s.listOperations orderId = .ok v.operations)
    (changed : Workset.Changed now outcome v w)
    (measured : ∀ op ∈ Production.changedBy outcome w, op.Measured)
    (ht : t.operations = s.operations.map (recordAll (Production.changedBy outcome w))) :
    ∃ stored, t.listOperations orderId = .ok stored ∧
      List.Forall₂ (Kept Operation.Alike outcome) stored w.operations := by
  have hdistinct : (w.operations.map (·.operationId)).Nodup := by
    rw [changed.operationIds]
    exact distinct_listOperations keyed h
  have hreads : List.Forall₂ (fun r b => ∃ c,
      Operation.ofRow (recordAll (Production.changedBy outcome w) r) = .ok c ∧
        Kept Operation.Alike outcome c b)
      (sortedBy .sequence (rowsWith s.operations .orderId orderId)) w.operations := by
    refine forall₂_trans ?_ (forall₂_mem (mapM_eq_ok_iff.mp h)) (forall₂_mem changed.operations)
    rintro r a b ⟨hread, hr, -⟩ ⟨hworked, -, hb⟩
    rw [mem_sortedBy, mem_rowsWith] at hr
    have hread := Operation.ofRow_eq_ok_iff.mp hread
    exact exists_read_of_worked hdistinct measured hread (dated.operations r hr.1 a hread) hnow
      hb hworked
  obtain ⟨stored, hread, halike⟩ := exists_of_forall₂ hreads
  refine ⟨stored, ?_, halike⟩
  rw [listOperations_of_map ht (fun r => recordAll_same _ r (by decide))
    (fun r => recordAll_same _ r (by decide)), mapM_eq_ok_iff, List.forall₂_map_left_iff]
  exact hread

/-- Rows of other orders are not written, and of those of the order only the execution
    record. -/
theorem forall₂_recordAll (keyed : s.Keyed) (h : s.listOperations orderId = .ok v.operations)
    (changed : Workset.Changed now outcome v w)
    (ht : t.operations = s.operations.map (recordAll (Production.changedBy outcome w))) :
    List.Forall₂ (fun r u => (r .orderId ≠ .text orderId → u = r) ∧
      ∀ c, c ∉ executionColumns → u c = r c) s.operations t.operations := by
  rw [ht]
  refine forall₂_map_self fun r hr => ⟨fun hother => ?_, fun c hc => recordAll_same _ r hc⟩
  refine recordAll_of_ne fun op hop heq => hother ?_
  have hmem : op.operationId ∈ v.operations.map (·.operationId) :=
    changed.operationIds ▸ List.mem_map_of_mem (mem_changedBy_iff.mp hop).1
  obtain ⟨a, ha, hid⟩ := List.mem_map.mp hmem
  obtain ⟨r', hr', hrow, hread⟩ := exists_row_of_mem h ha
  -- one row has the identifier, and it belongs to the order
  have hsame : r = r' := keyed.operations.eq_of_isText (c := .operationId) (by decide) hr hr' heq
    (hid ▸ Row.text_eq_ok_iff.mp hread.operationId)
  rw [hsame]
  exact hrow

omit [Quantity Q] in
theorem forall₂_progress {o : Order Q}
    (ht : t.orders = s.orders.map fun r => if Table.hasKey orderId r then progressRow o r else r) :
    List.Forall₂ (fun r u => (r .orderId ≠ .text orderId → u = r) ∧
      ∀ c, c ≠ .status → c ≠ .completedAt → u c = r c) s.orders t.orders := by
  rw [ht]
  refine forall₂_map_self fun r _ => ⟨fun hother => ?_, fun c hs hc => ?_⟩
  · rw [if_neg (mt hasKey_order_iff.mp hother)]
  · split
    · rw [progressRow_cell, if_neg hc, if_neg hs]
    · rfl

end Store

/-! ### Recorded actions -/

/-- An answered action is recorded: the workset `u` that is read again is the one `w` that
    the action made of the workset `v` that was read, where `same` says when a stored
    operation counts as the one that was made. -/
structure Recorded (same : Operation Q → Operation Q → Prop) (clock : Clock)
    (operationId : String) (action : Action) (report : Report Q) (s t : Store Q)
    (answer : ActionAnswer Q) (orderId : String) (v w u : Workset Q) : Prop where
  found : ∃ op, s.findOperation operationId = .ok (some op) ∧ op.orderId = orderId
  read : s.workset orderId = .ok v
  applied : v.apply operationId action report clock.now = .ok (w, answer.outcome)
  readAgain : t.workset orderId = .ok u
  order : u.order = w.order
  operations : List.Forall₂ (Store.Kept same answer.outcome) u.operations w.operations
  answerOrder : answer.order = u.order
  answerOperation : ∃ op, u.operation? operationId = some op ∧ same op answer.operation
  orderRows : List.Forall₂ (fun r r' => (r .orderId ≠ .text orderId → r' = r) ∧
    ∀ c, c ≠ .status → c ≠ .completedAt → r' c = r c) s.orders t.orders
  operationRows : List.Forall₂ (fun r r' => (r .orderId ≠ .text orderId → r' = r) ∧
    ∀ c, c ∉ Store.executionColumns → r' c = r c) s.operations t.operations

/-- **Every answered action is recorded**, apart from the signs of zeros. -/
theorem transition_recorded [Quantity.LawfulZero Q] (s : Store Q) (keyed : s.Keyed)
    (dated : s.Dated) (clock : Clock) (hnow : clock.now.FourDigitYear) (operationId : String)
    (action : Action) (report : Report Q) (answer : ActionAnswer Q) (t : Store Q)
    (h : (Production.transition clock operationId action report).run s = (.ok answer, t)) :
    ∃ orderId v w u, Recorded Operation.Alike clock operationId action report s t answer orderId
      v w u := by
  obtain ⟨orderId, v, w, answered⟩ := transition_answered h
  have changed := Workset.changed_of_apply answered.applied
  have hid : v.order.orderId = orderId := Store.orderId_of_getOrder answered.order
  obtain ⟨u, hwrite, horders, hoperations⟩ := answered.written
  obtain ⟨hu, measured⟩ := Store.applyTransition_eq hwrite
  rw [hu] at horders hoperations
  dsimp only at horders hoperations
  have hkey : w.order.orderId = orderId := by
    rw [changed.order]
    exact hid
  rw [hkey] at horders
  obtain ⟨r, hr, -, hread⟩ := Store.exists_row_of_getOrder answered.order
  have hcompleted : ∀ c, w.order.completedAt = some c → c.FourDigitYear := by
    intro c hc
    rcases changed.completedAt with heq | heq
    · exact dated.orders r hr v.order hread c (heq ▸ hc)
    · rw [heq] at hc
      exact Option.some.inj hc ▸ hnow
  have horder := Store.getOrder_of_progress answered.order horders changed.order hcompleted
  obtain ⟨stored, hlisted, halike⟩ := Store.exists_listOperations keyed dated hnow
    answered.operations changed measured hoperations
  obtain ⟨op, hop, hopAlike⟩ := find?_of_forall₂ halike (fun a b hab => by
    rw [Operation.operationId_eq_of_job hab.1.job]) answered.answerOperation
  exact ⟨orderId, v, w, ⟨w.order, stored⟩,
    { found := answered.found
      read := Store.workset_eq_ok_iff.mpr ⟨answered.order, answered.operations⟩
      applied := answered.applied
      readAgain := Store.workset_eq_ok_iff.mpr ⟨horder, hlisted⟩
      order := rfl
      operations := halike
      answerOrder := answered.answerOrder
      answerOperation := ⟨op, hop, hopAlike.1⟩
      orderRows := Store.forall₂_progress horders
      operationRows := Store.forall₂_recordAll keyed answered.operations changed hoperations }⟩

/-! ### A report of minus zero -/

def lossClock : Clock := ⟨default, .midnight default⟩

def lossOrder : Order Float :=
  ⟨"O1", "MO-O1", "SHAFT", Quantity.ofInt 2, .inProgress, 5, none, none, none⟩

/-- A shaft is being turned. -/
def lossOperation : Operation Float :=
  { Draft.toOperation ⟨10, none, none, "LATHE", "Turn", none, false, Quantity.zero,
      Quantity.zero⟩ "O1" "O1/10" with
    status := .inProgress
    actualStart := some lossClock.now }

def lossStore : Store Float :=
  { (Store.empty : Store Float) with
    orders := [lossOrder.toRow]
    operations := [lossOperation.toRow] }

/-- None are complete yet, and the zero is reported with a sign. -/
def lossReport : Report Float :=
  { (Report.blank : Report Float) with quantityComplete := some (-Quantity.zero) }

def lossMade : Operation Float := { lossOperation with quantityComplete := -Quantity.zero }

def lossOutcome : Outcome := ⟨"O1/10", .complete, .inProgress, .inProgress, [], none, []⟩

theorem keyed_loss : lossStore.Keyed where
  orders _ _ := List.pairwise_singleton _ _
  operations _ _ := List.pairwise_singleton _ _

theorem reads_lossOrder : Order.Reads lossOrder.toRow lossOrder :=
  ⟨rfl, rfl, rfl, by decide +kernel, by decide +kernel, rfl, rfl, rfl, rfl⟩

theorem reads_lossOperation : Operation.Reads lossOperation.toRow lossOperation :=
  ⟨rfl, rfl, rfl, rfl, rfl, rfl, rfl, rfl, rfl, by decide +kernel, by decide +kernel,
    by decide +kernel, by decide +kernel, by decide +kernel, by decide +kernel,
    by decide +kernel, rfl, rfl, by decide +kernel, rfl, rfl, rfl, rfl⟩

theorem ofRow_lossOrder : Order.ofRow lossOrder.toRow = .ok lossOrder :=
  Order.ofRow_eq_ok_iff.mpr reads_lossOrder

theorem ofRow_lossOperation : Operation.ofRow lossOperation.toRow = .ok lossOperation :=
  Operation.ofRow_eq_ok_iff.mpr reads_lossOperation

theorem findOperation_loss : lossStore.findOperation "O1/10" = .ok (some lossOperation) :=
  congrArg (Except.map some) ofRow_lossOperation

theorem getOrder_loss : lossStore.getOrder "O1" = .ok lossOrder :=
  Store.getOrder_eq_ok_iff.mpr ⟨_, [], rfl, reads_lossOrder⟩

theorem listOperations_loss : lossStore.listOperations "O1" = .ok [lossOperation] := by
  unfold Store.listOperations Store.sortedBy
  rw [List.mergeSort_of_pairwise (by decide)]
  exact mapM_eq_ok_iff.mpr (.cons ofRow_lossOperation .nil)

theorem apply_loss :
    (Workset.ofOperations lossOrder [lossOperation]).apply "O1/10" .complete lossReport
      lossClock.now = .ok (⟨lossOrder, [lossMade]⟩, lossOutcome) := by
  rw [Workset.ofOperations_of_sorted (List.pairwise_singleton _ _)]
  have hreport : Workset.checkReport ⟨lossOrder, [lossOperation]⟩ lossReport =
      .ok (-Quantity.zero) := by
    refine bind_eq_ok_iff.mpr ⟨(), ?_, rfl⟩
    unfold validateQuantity
    rw [if_neg (by decide +kernel), if_neg (by decide +kernel)]
    dsimp only
    rw [if_neg (by decide +kernel)]
  refine bind_eq_ok_iff.mpr ⟨lossOperation, rfl, bind_eq_ok_iff.mpr ⟨(), rfl, ?_⟩⟩
  refine bind_eq_ok_iff.mpr ⟨_, hreport, bind_eq_ok_iff.mpr ⟨.complete, rfl, ?_⟩⟩
  rw [if_pos (by decide +kernel)]
  have hzero : (Quantity.zero + Quantity.zero : Float) = Quantity.zero := by decide +kernel
  have hentered : Workset.enter lossOperation (-Quantity.zero) lossReport = lossMade := by
    unfold Workset.enter Operation.addNotes
    rw [if_pos (by decide +kernel)]
    dsimp only [lossReport, Report.blank, lossMade, lossOperation, Draft.toOperation,
      Option.getD_none, Option.getD_some]
    rw [hzero]
  rw [hentered]
  rfl

/-- The store after the report. -/
def lossStoreAfter : Store Float :=
  { lossStore with
    orders := [Store.progressRow lossOrder lossOrder.toRow]
    operations := [Store.recordExecution lossMade lossOperation.toRow] }

theorem applyTransition_loss :
    lossStore.applyTransition lossOrder [lossMade] = .ok lossStoreAfter := by
  have hoperation : Table.updateViolation? (Table.hasKey "O1/10")
      (Store.recordExecution lossMade) [] lossStore.operations = none := by decide +kernel
  have horder : Table.updateViolation? (Table.hasKey "O1") (Store.progressRow lossOrder) []
      lossStore.orders = none := by decide +kernel
  exact Store.applyTransition_singleton hoperation horder rfl

theorem transition_loss :
    (Production.transition lossClock "O1/10" .complete lossReport).run lossStore =
      (.ok ⟨lossMade, lossOrder, lossOutcome, []⟩, lossStoreAfter) := by
  have hwrite : (do
      let t ← lossStore.applyTransition lossOrder
        (Production.changedBy lossOutcome ⟨lossOrder, [lossMade]⟩)
      Except.ok ((), t)) = .ok ((), lossStoreAfter) :=
    bind_eq_ok_iff.mpr ⟨_, applyTransition_loss, rfl⟩
  unfold Production.transition
  rw [run_bind, run_read_ok findOperation_loss]
  dsimp only
  rw [run_bind, run_read_ok (a := lossOrder) getOrder_loss]
  dsimp only
  rw [run_bind, run_read_ok (a := [lossOperation]) listOperations_loss]
  dsimp only
  rw [run_bind, apply_loss, run_obey_ok]
  dsimp only
  rw [run_bind, run_write_ok hwrite]
  rfl

theorem fourDigitYear_loss : lossClock.now.FourDigitYear := by
  constructor <;> decide +kernel

theorem dated_loss : lossStore.Dated where
  operations := by
    intro r hr op hread
    obtain rfl := List.mem_singleton.mp hr
    have hop : lossOperation = op :=
      Except.ok.inj (ofRow_lossOperation.symm.trans (Operation.ofRow_eq_ok_iff.mpr hread))
    constructor
    · intro t ht
      rw [← hop] at ht
      exact Option.some.inj ht ▸ fourDigitYear_loss
    · intro t ht
      rw [← hop] at ht
      cases ht
  orders := by
    intro r hr o hread t ht
    obtain rfl := List.mem_singleton.mp hr
    have ho : lossOrder = o :=
      Except.ok.inj (ofRow_lossOrder.symm.trans (Order.ofRow_eq_ok_iff.mpr hread))
    rw [← ho] at ht
    cases ht

/-- The report is recorded, with a zero for the minus zero. -/
theorem transition_recorded_loss :
    lossStore.Keyed ∧ lossStore.Dated ∧ lossClock.now.FourDigitYear ∧
    (Production.transition lossClock "O1/10" .complete lossReport).run lossStore =
      (.ok ⟨lossMade, lossOrder, lossOutcome, []⟩, lossStoreAfter) ∧
    ∃ orderId v w u, Recorded Operation.Alike lossClock "O1/10" .complete lossReport lossStore
      lossStoreAfter ⟨lossMade, lossOrder, lossOutcome, []⟩ orderId v w u :=
  ⟨keyed_loss, dated_loss, fourDigitYear_loss, transition_loss,
    transition_recorded lossStore keyed_loss dated_loss lossClock fourDigitYear_loss "O1/10"
      .complete lossReport _ _ transition_loss⟩

theorem workset_loss : lossStore.workset "O1" = .ok ⟨lossOrder, [lossOperation]⟩ :=
  Store.workset_eq_ok_iff.mpr ⟨getOrder_loss, listOperations_loss⟩

theorem listOperations_lossAfter : lossStoreAfter.listOperations "O1" =
    .ok [Operation.recorded lossOperation lossMade] := by
  have dated : lossMade.Dated :=
    ⟨fun t ht => Option.some.inj ht ▸ fourDigitYear_loss, fun t ht => by cases ht⟩
  have measured : lossMade.Measured := by constructor <;> decide +kernel
  have hread := Operation.ofRow_eq_ok_iff.mpr (reads_lossOperation.record dated measured)
  unfold Store.listOperations Store.sortedBy
  rw [List.mergeSort_of_pairwise (by decide)]
  exact mapM_eq_ok_iff.mpr (.cons hread .nil)

theorem workset_lossAfter : lossStoreAfter.workset "O1" =
    .ok ⟨lossOrder, [Operation.recorded lossOperation lossMade]⟩ := by
  have horder : lossStoreAfter.getOrder "O1" = .ok lossOrder :=
    Store.getOrder_of_progress getOrder_loss rfl rfl (fun t ht => by cases ht)
  exact Store.workset_eq_ok_iff.mpr ⟨horder, listOperations_lossAfter⟩

/-- What was answered is not what is read: the sign of the reported zero is lost. -/
theorem transition_loses_sign :
    lossStore.Keyed ∧ lossStore.Dated ∧ lossClock.now.FourDigitYear ∧
    (Production.transition lossClock "O1/10" .complete lossReport).run lossStore =
      (.ok ⟨lossMade, lossOrder, lossOutcome, []⟩, lossStoreAfter) ∧
    ¬ ∃ orderId v w u, Recorded Eq lossClock "O1/10" .complete lossReport lossStore
      lossStoreAfter ⟨lossMade, lossOrder, lossOutcome, []⟩ orderId v w u := by
  refine ⟨keyed_loss, dated_loss, fourDigitYear_loss, transition_loss, ?_⟩
  rintro ⟨orderId, v, w, u, h⟩
  obtain ⟨op, hfound, rfl⟩ := h.found
  rw [findOperation_loss] at hfound
  cases hfound
  obtain rfl : ⟨lossOrder, [lossOperation]⟩ = v :=
    Except.ok.inj (workset_loss.symm.trans h.read)
  have happlied := apply_loss
  rw [Workset.ofOperations_of_sorted (List.pairwise_singleton _ _), h.applied] at happlied
  cases happlied
  obtain rfl : ⟨lossOrder, [Operation.recorded lossOperation lossMade]⟩ = u :=
    Except.ok.inj (workset_lossAfter.symm.trans h.readAgain)
  rcases h.operations with _ | ⟨⟨hsame, -⟩, -⟩
  have hzero : (-Quantity.zero + Quantity.zero : Float) = -Quantity.zero :=
    congrArg Operation.quantityComplete hsame
  exact absurd hzero (by decide +kernel)

end Workshop
