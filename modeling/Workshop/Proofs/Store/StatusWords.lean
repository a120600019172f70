/-
  Workshop/Proofs/Store/StatusWords.lean
  ======================================
  **Statuses that are stored and statuses that are read.**  A stored status is read apart
  from blanks and letter case, but the statements of the store look for its word as it is
  written.  The two agree in a store when, and only when, the statuses that are looked for
  are stored by their words (`Store.selectsByStatus_iff`).

  A row that is found by a word is read as its status, so a row with another spelling is
  the only one that a statement can miss.  The statement that adds up hours passes the
  complete operations over, and so it counts those that it misses.
-/
import Workshop.Proofs.Execution.Rebooking
import Workshop.Proofs.Store.LedgerEntries

namespace Workshop

variable {Q : Type} [Quantity Q]

/-! ### Words that are read -/

/-- The word of a status is read as it, so the word of one of several is found exactly when
    the status that is read is one of them and is stored by its word. -/
theorem Order.Reads.exists_word_iff {r : Row Order.Column Q} {o : Order Q}
    (h : Order.Reads r o) (p : OrderStatus → Prop) :
    (∃ s, p s ∧ r .status = .text s.word) ↔ p o.status ∧ r .status = .text o.status.word := by
  constructor
  · rintro ⟨s, hs, hword⟩
    obtain ⟨word, htext, hstatus⟩ := bind_eq_ok_iff.mp h.status
    obtain rfl := Cell.text.inj (hword.symm.trans (Row.text_eq_ok_iff.mp htext))
    rw [Field.orderStatus_word] at hstatus
    obtain rfl := Except.ok.inj hstatus
    exact ⟨hs, hword⟩
  · rintro ⟨hs, hword⟩
    exact ⟨o.status, hs, hword⟩

theorem Operation.Reads.exists_word_iff {r : Row Operation.Column Q} {op : Operation Q}
    (h : Operation.Reads r op) (p : OperationStatus → Prop) :
    (∃ s, p s ∧ r .status = .text s.word) ↔ p op.status ∧ r .status = .text op.status.word := by
  constructor
  · rintro ⟨s, hs, hword⟩
    obtain ⟨word, htext, hstatus⟩ := bind_eq_ok_iff.mp h.status
    obtain rfl := Cell.text.inj (hword.symm.trans (Row.text_eq_ok_iff.mp htext))
    rw [Field.operationStatus_word] at hstatus
    obtain rfl := Except.ok.inj hstatus
    exact ⟨hs, hword⟩
  · rintro ⟨hs, hword⟩
    exact ⟨op.status, hs, hword⟩

namespace Store

theorem isActiveOrder_iff {r : Row Order.Column Q} {o : Order Q} (h : Order.Reads r o) :
    isActiveOrder r = true ↔
      o.status.isSchedulable = true ∧ r .status = .text o.status.word := by
  rw [← h.exists_word_iff fun s => s.isSchedulable = true, isActiveOrder, Bool.or_eq_true,
    Cell.isText_iff, Cell.isText_iff]
  simp only [OrderStatus.isSchedulable_iff, or_and_right, exists_or, exists_eq_left]

theorem isDraft_iff_of_reads {r : Row Order.Column Q} {o : Order Q} (h : Order.Reads r o)
    {orderId : String} : isDraft orderId r = true ↔
      o.orderId = orderId ∧ o.status = .draft ∧ r .status = .text o.status.word := by
  rw [← h.exists_word_iff fun s => s = .draft, isDraft_iff, Row.text_eq_ok_iff.mp h.orderId,
    Cell.text.injEq]
  simp only [exists_eq_left]

theorem isUnstarted_iff {r : Row Operation.Column Q} {op : Operation Q}
    (h : Operation.Reads r op) (orderId : String) : isUnstarted orderId r = true ↔
      op.orderId = orderId ∧ op.status.isSchedulable = true ∧
        r .status = .text op.status.word := by
  rw [← h.exists_word_iff fun s => s.isSchedulable = true, isUnstarted, Bool.and_eq_true,
    Bool.or_eq_true, Cell.isText_iff, Cell.isText_iff, Cell.isText_iff,
    Row.text_eq_ok_iff.mp h.orderId, Cell.text.injEq]
  simp only [OperationStatus.isSchedulable_iff, or_and_right, exists_or, exists_eq_left]

theorem isComplete_iff {r : Row Operation.Column Q} {op : Operation Q}
    (h : Operation.Reads r op) : (r .status).isText OperationStatus.complete.word = true ↔
      op.status = .complete ∧ r .status = .text op.status.word := by
  rw [← h.exists_word_iff fun s => s = .complete, Cell.isText_iff]
  simp only [exists_eq_left]

end Store

/-- The row is read as a value with a property. -/
def Row.readsAs {C α : Type} (ofRow : Row C Q → Except StoreFault α) (p : α → Bool)
    (r : Row C Q) : Bool := (ofRow r).toOption.any p

omit [Quantity Q] in
theorem Row.readsAs_of_ok {C α : Type} {ofRow : Row C Q → Except StoreFault α} {r : Row C Q}
    {a : α} (h : ofRow r = .ok a) (p : α → Bool) : r.readsAs ofRow p = p a := by
  rw [readsAs, h]
  rfl

/-! ### Selections -/

namespace Store

variable {s : Store Q}

/-- All orders and operations of a store can be read. -/
structure Decodes (s : Store Q) : Prop where
  orders : ∀ r ∈ s.orders, ∃ o, Order.ofRow r = .ok o
  operations : ∀ r ∈ s.operations, ∃ op, Operation.ofRow r = .ok op

/-- The orders that are read from a store. -/
def readOrders (s : Store Q) : List (Order Q) :=
  s.orders.filterMap fun r => (Order.ofRow r).toOption

/-- The operation is one of the order that has not begun. -/
def awaitsOf (orderId : String) (op : Operation Q) : Bool :=
  op.orderId == orderId && op.status.isSchedulable

/-- A row without its dates, if it is read as one of the order that has not begun. -/
def ClearedAsRead (orderId : String) (r t : Row Operation.Column Q) : Prop :=
  ∀ c, t.cell c = if r.readsAs Operation.ofRow (awaitsOf orderId) &&
    decide (c = .scheduledStart ∨ c = .scheduledEnd) then .null else r c

/-- The operation is complete. -/
def isCompleteOperation (op : Operation Q) : Bool := op.status == .complete

/-- The store without the operations that are read as complete. -/
def withoutComplete (s : Store Q) : Store Q :=
  { s with operations := s.operations.filter fun r =>
      !r.readsAs Operation.ofRow isCompleteOperation }

/-- The statements of a store select rows by the statuses that are read. -/
structure SelectsByStatus (s : Store Q) : Prop where
  listed : ∃ active, s.listActiveOrders none = .ok active ∧
    (active.map (·.1)).Perm (s.readOrders.filter (·.status.isSchedulable))
  released : ∀ orderId o, s.getOrder orderId = .ok o → ∀ ops releasedAt,
    s.releaseWithOperations orderId ops releasedAt ≠
      .error (.concurrentModification "ProductionOrder" orderId) ↔ o.status = .draft
  cleared : ∀ orderId, ∃ t centers, s.clearSchedule orderId = .ok (t, centers) ∧
    List.Forall₂ (ClearedAsRead orderId) s.operations t.operations
  counted : ∀ windowStart windowEnd, ∀ r ∈ s.operations,
    isCommitted windowStart windowEnd r = true →
      r.readsAs Operation.ofRow isCompleteOperation = false
  loaded : ∀ windowStart windowEnd minHours, s.loadLedgerEntries windowStart windowEnd minHours =
    s.withoutComplete.loadLedgerEntries windowStart windowEnd minHours

/-- Statuses are stored by their words wherever a statement looks for them: in the orders
    that are drafts or active, in the operations with dates that have not begun, and in
    the complete operations that start in some window. -/
structure StatusesByWord (s : Store Q) : Prop where
  draft : ∀ r ∈ s.orders, ∀ o, Order.ofRow r = .ok o → o.status = .draft →
    r .status = .text o.status.word
  active : ∀ r ∈ s.orders, ∀ o, Order.ofRow r = .ok o → o.status.isSchedulable = true →
    r .status = .text o.status.word
  unstarted : ∀ r ∈ s.operations, ∀ op, Operation.ofRow r = .ok op →
    op.status.isSchedulable = true → r .scheduledStart ≠ .null ∨ r .scheduledEnd ≠ .null →
      r .status = .text op.status.word
  complete : ∀ r ∈ s.operations, ∀ op, Operation.ofRow r = .ok op → op.status = .complete →
    ∀ windowStart windowEnd : Date, isBetween (DateText.write windowStart)
      (DateText.write windowEnd) (r .scheduledStart) = true → r .status = .text op.status.word

/-! ### Active orders -/

omit [Quantity Q] in
theorem filterMap_toOption {C α : Type} {ofRow : Row C Q → Except StoreFault α}
    {rows : List (Row C Q)} {as : List α} (h : rows.mapM ofRow = .ok as) :
    rows.filterMap (fun r => (ofRow r).toOption) = as := by
  have hread := mapM_eq_ok_iff.mp h
  clear h
  induction hread with
  | nil => rfl
  | cons hra _ ih =>
    rw [List.filterMap_cons, hra, ih]
    rfl

/-- The list of active orders is there, and it has the orders of the rows that are found. -/
theorem exists_listActiveOrders (decodes : s.Decodes) :
    ∃ active, s.listActiveOrders none = .ok active ∧
      (active.map (·.1)).Perm
        ((s.orders.filter isActiveOrder).filterMap fun r => (Order.ofRow r).toOption) := by
  have hwanted : (s.orders.filter fun r => isActiveOrder r &&
      ((none : Option String).map fun id => (r .orderId).isText id).getD true) =
        s.orders.filter isActiveOrder :=
    List.filter_congr fun r _ => Bool.and_true _
  have hrows : ∀ r ∈ sortedBy .orderId (s.orders.filter isActiveOrder),
      ∃ o, Order.ofRow r = .ok o := by
    intro r hr
    exact decodes.orders r (List.mem_filter.mp (mem_sortedBy.mp hr)).1
  obtain ⟨orders, horders⟩ := exists_forall₂ hrows
  have hops : ∀ o ∈ orders, ∃ ops, s.listOperations o.orderId = .ok ops := by
    intro o _
    have hread : ∀ r ∈ sortedBy .sequence (rowsWith s.operations .orderId o.orderId),
        ∃ op, Operation.ofRow r = .ok op := by
      intro r hr
      exact decodes.operations r (mem_rowsWith.mp (mem_sortedBy.mp hr)).1
    exact (exists_forall₂ hread).imp fun ops h => mapM_eq_ok_iff.mpr h
  obtain ⟨lists, hlists⟩ := exists_forall₂ hops
  have hread := mapM_eq_ok_iff.mpr horders
  refine ⟨orders.zip lists, ?_, ?_⟩
  · unfold listActiveOrders
    rw [hwanted]
    refine bind_eq_ok_iff.mpr ⟨orders, hread, mapM_eq_ok_iff.mpr ?_⟩
    clear horders hread hops
    induction hlists with
    | nil => exact .nil
    | cons hlist _ ih => exact .cons (bind_eq_ok_iff.mpr ⟨_, hlist, rfl⟩) ih
  · have hfst : (orders.zip lists).map (·.1) = orders :=
      List.map_fst_zip (le_of_eq hlists.length_eq)
    rw [hfst, ← filterMap_toOption hread]
    exact (List.mergeSort_perm _ _).filterMap _

omit [Quantity Q] in
theorem toOption_eq_some_iff {α : Type} {x : Except StoreFault α} {a : α} :
    x.toOption = some a ↔ x = .ok a := by
  cases x <;> simp [Except.toOption]

theorem eq_of_order (keyed : s.Keyed) {r t : Row Order.Column Q} (hr : r ∈ s.orders)
    (ht : t ∈ s.orders) {o : Order Q} (hread : Order.Reads r o)
    (hid : t .orderId = .text o.orderId) : r = t :=
  keyed.orders.eq_of_isText (c := .orderId) (by decide) hr ht
    (Row.text_eq_ok_iff.mp hread.orderId) hid

/-- The active orders are listed if and only if they are stored by their words. -/
theorem listed_iff (keyed : s.Keyed) (decodes : s.Decodes) :
    (∃ active, s.listActiveOrders none = .ok active ∧
      (active.map (·.1)).Perm (s.readOrders.filter (·.status.isSchedulable))) ↔
    ∀ r ∈ s.orders, ∀ o, Order.ofRow r = .ok o → o.status.isSchedulable = true →
      r .status = .text o.status.word := by
  obtain ⟨active, hactive, hperm⟩ := exists_listActiveOrders decodes
  constructor
  · rintro ⟨active', hactive', hperm'⟩ r hr o hread hschedulable
    obtain rfl : active = active' := Except.ok.inj (hactive.symm.trans hactive')
    have ho : o ∈ s.readOrders.filter (·.status.isSchedulable) :=
      List.mem_filter.mpr ⟨List.mem_filterMap.mpr ⟨r, hr, toOption_eq_some_iff.mpr hread⟩,
        hschedulable⟩
    obtain ⟨t, ht, hto⟩ := List.mem_filterMap.mp (hperm.mem_iff.mp (hperm'.mem_iff.mpr ho))
    obtain ⟨ht, hfound⟩ := List.mem_filter.mp ht
    have htread := Order.ofRow_eq_ok_iff.mp (toOption_eq_some_iff.mp hto)
    obtain rfl := eq_of_order keyed hr ht (Order.ofRow_eq_ok_iff.mp hread)
      (Row.text_eq_ok_iff.mp htread.orderId)
    exact ((isActiveOrder_iff htread).mp hfound).2
  · intro words
    refine ⟨active, hactive, hperm.trans (.of_eq ?_)⟩
    rw [readOrders, List.filterMap_filter, List.filter_filterMap]
    refine List.filterMap_congr fun r hr => ?_
    obtain ⟨o, hread⟩ := decodes.orders r hr
    have hfound := isActiveOrder_iff (Order.ofRow_eq_ok_iff.mp hread)
    rw [toOption_eq_some_iff.mpr hread, Option.filter_some]
    by_cases hschedulable : o.status.isSchedulable = true
    · rw [if_pos (hfound.mpr ⟨hschedulable, words r hr o hread hschedulable⟩),
        if_pos hschedulable]
    · rw [if_neg fun h => hschedulable (hfound.mp h).1, if_neg hschedulable]

/-! ### Release -/

theorem updateViolation?_eq_none_of_not_picked {C : Type} [DecidableEq C] [Table C]
    {picks : Row C Q → Bool} {change : Row C Q → Row C Q} {rows : List (Row C Q)}
    (h : ∀ r ∈ rows, picks r = false) (before : List (Row C Q)) :
    Table.updateViolation? picks change before rows = none := by
  induction rows generalizing before with
  | nil => rfl
  | cons r rows ih =>
    rw [Table.updateViolation?, h r List.mem_cons_self, if_neg Bool.false_ne_true]
    exact ih (fun t ht => h t (List.mem_cons_of_mem r ht)) _

/-- A violation is never told as a change that came in between. -/
theorem orFault_ne_concurrent {α : Type} {x : Except Violation α} {entity id : String} :
    orFault x ≠ .error (.concurrentModification entity id) := by
  cases x with
  | ok a => exact nofun
  | error v => cases v <;> exact nofun

theorem insertOperations_ne_concurrent {s : Store Q} {ops : List (Operation Q)}
    {entity id : String} :
    s.insertOperations ops ≠ .error (.concurrentModification entity id) := by
  induction ops generalizing s with
  | nil => exact nofun
  | cons op ops ih =>
    intro h
    rcases bind_eq_error_iff.mp h with hinsert | ⟨t, -, hrest⟩
    · rcases bind_eq_error_iff.mp hinsert with hrows | ⟨rows, -, hfound⟩
      · exact orFault_ne_concurrent hrows
      · exact orFault_ne_concurrent hfound
    · exact ih hrest

/-- The guard of a release lets those pass for which a row is found. -/
theorem release_ne_concurrent_iff {orderId : String} {ops : List (Operation Q)}
    {releasedAt : Instant} : s.releaseWithOperations orderId ops releasedAt ≠
      .error (.concurrentModification "ProductionOrder" orderId) ↔
        ∃ r ∈ s.orders, isDraft orderId r = true := by
  rw [← List.any_eq_true]
  constructor
  · intro h
    by_contra hnone
    refine h (bind_eq_error_iff.mpr (.inr ⟨s.orders, ?_, if_neg hnone⟩))
    have hkept : ∀ r ∈ s.orders, isDraft orderId r = false := by
      intro r hr
      rw [Bool.eq_false_iff]
      intro hdraft
      exact hnone (List.any_eq_true.mpr ⟨r, hr, hdraft⟩)
    refine orFault_eq_ok_iff.mpr (Table.updateWhere_eq_ok_iff.mpr
      ⟨updateViolation?_eq_none_of_not_picked hkept [], ?_⟩)
    refine ((List.map_congr_left fun r hr => ?_).trans (List.map_id _)).symm
    rw [hkept r hr, if_neg Bool.false_ne_true]
    rfl
  · intro hany h
    rcases bind_eq_error_iff.mp h with hrows | ⟨rows, -, hrest⟩
    · exact orFault_ne_concurrent hrows
    · rw [if_pos hany] at hrest
      exact insertOperations_ne_concurrent hrest

theorem getOrder_of_row (keyed : s.Keyed) {r : Row Order.Column Q} (hr : r ∈ s.orders)
    {o : Order Q} (hread : Order.Reads r o) : s.getOrder o.orderId = .ok o := by
  have hmem : r ∈ rowsWith s.orders .orderId o.orderId :=
    mem_rowsWith.mpr ⟨hr, Row.text_eq_ok_iff.mp hread.orderId⟩
  cases hrows : rowsWith s.orders .orderId o.orderId with
  | nil => exact absurd hmem (hrows ▸ List.not_mem_nil)
  | cons t rest =>
    obtain ⟨ht, hid⟩ := mem_rowsWith.mp (hrows ▸ List.mem_cons_self)
    obtain rfl := eq_of_order keyed hr ht hread hid
    exact getOrder_eq_ok_iff.mpr ⟨r, rest, hrows, hread⟩

/-- The guard of a release goes by the status that is read if and only if the drafts are
    stored by their word. -/
theorem released_iff (keyed : s.Keyed) :
    (∀ orderId o, s.getOrder orderId = .ok o → ∀ ops releasedAt,
      s.releaseWithOperations orderId ops releasedAt ≠
        .error (.concurrentModification "ProductionOrder" orderId) ↔ o.status = .draft) ↔
    ∀ r ∈ s.orders, ∀ o, Order.ofRow r = .ok o → o.status = .draft →
      r .status = .text o.status.word := by
  simp only [release_ne_concurrent_iff]
  constructor
  · intro h r hr o hread hdraft
    have hread := Order.ofRow_eq_ok_iff.mp hread
    obtain ⟨t, ht, hfound⟩ :=
      (h o.orderId o (getOrder_of_row keyed hr hread) [] (.midnight default)).mpr hdraft
    obtain rfl := eq_of_order keyed hr ht hread (isDraft_iff.mp hfound).1
    exact ((isDraft_iff_of_reads hread).mp hfound).2.2
  · intro words orderId o hfound ops releasedAt
    obtain ⟨r, hr, hid, hread⟩ := exists_row_of_getOrder hfound
    obtain rfl := orderId_of_getOrder hfound
    constructor
    · rintro ⟨t, ht, hdraft⟩
      obtain rfl := eq_of_order keyed hr ht hread (isDraft_iff.mp hdraft).1
      exact ((isDraft_iff_of_reads hread).mp hdraft).2.1
    · intro hdraft
      have hword := words r hr o (Order.ofRow_eq_ok_iff.mpr hread) hdraft
      exact ⟨r, hr, (isDraft_iff_of_reads hread).mpr ⟨rfl, hdraft, hword⟩⟩

/-! ### Dates that are taken away -/

theorem readsAs_awaitsOf {r : Row Operation.Column Q} {op : Operation Q}
    (h : Operation.Reads r op) (orderId : String) :
    r.readsAs Operation.ofRow (awaitsOf orderId) = true ↔
      op.orderId = orderId ∧ op.status.isSchedulable = true := by
  rw [Row.readsAs_of_ok (Operation.ofRow_eq_ok_iff.mpr h), awaitsOf, Bool.and_eq_true, beq_iff_eq]

theorem exists_clearSchedule (decodes : s.Decodes) (orderId : String) :
    ∃ centers, s.clearSchedule orderId =
      .ok ({ s with operations := s.operations.map (clearedRow orderId) }, centers) := by
  have hread : ∀ r ∈ s.operations.filter (fun r =>
      isUnstarted orderId r && !(r .scheduledStart).isNull),
        ∃ id, r.text .workCenterId = .ok id := by
    intro r hr
    obtain ⟨op, hop⟩ := decodes.operations r (List.mem_filter.mp hr).1
    exact ⟨op.workCenterId, (Operation.ofRow_eq_ok_iff.mp hop).workCenterId⟩
  obtain ⟨ids, hids⟩ := exists_forall₂ hread
  exact ⟨_, bind_eq_ok_iff.mpr ⟨ids, mapM_eq_ok_iff.mpr hids, rfl⟩⟩

omit [Quantity Q] in
theorem clearedRow_cell (orderId : String) (r : Row Operation.Column Q) (c : Operation.Column) :
    (clearedRow orderId r).cell c =
      if isUnstarted orderId r && decide (c = .scheduledStart ∨ c = .scheduledEnd) then .null
      else r c := by
  unfold clearedRow
  cases isUnstarted orderId r with
  | false => rfl
  | true =>
    rw [if_pos rfl, Row.set_cell, Row.set_cell, Bool.true_and]
    simp only [decide_eq_true_eq]
    by_cases hend : c = .scheduledEnd
    · rw [if_pos hend, if_pos (.inr hend)]
    · by_cases hstart : c = .scheduledStart
      · rw [if_neg hend, if_pos hstart, if_pos (.inl hstart)]
      · rw [if_neg hend, if_neg hstart, if_neg (not_or.mpr ⟨hstart, hend⟩)]

/-- A row loses the dates by its word that it should lose by its status if and only if it
    has none or its status is stored by its word. -/
theorem clearedRow_iff {r : Row Operation.Column Q} {op : Operation Q}
    (h : Operation.Reads r op) : (∀ orderId, ClearedAsRead orderId r (clearedRow orderId r)) ↔
      (op.status.isSchedulable = true → r .scheduledStart ≠ .null ∨ r .scheduledEnd ≠ .null →
        r .status = .text op.status.word) := by
  simp only [ClearedAsRead, clearedRow_cell]
  constructor
  · intro hcells hschedulable hdated
    by_contra hword
    have hreads := (readsAs_awaitsOf h op.orderId).mpr ⟨rfl, hschedulable⟩
    have hmissed : isUnstarted op.orderId r = false := by
      rw [Bool.eq_false_iff]
      intro hfound
      exact hword ((isUnstarted_iff h op.orderId).mp hfound).2.2
    rcases hdated with hstart | hend
    · have := hcells op.orderId .scheduledStart
      rw [hmissed, hreads] at this
      exact hstart this
    · have := hcells op.orderId .scheduledEnd
      rw [hmissed, hreads] at this
      exact hend this
  · intro words orderId c
    have hfound := isUnstarted_iff h orderId
    have hreads := readsAs_awaitsOf h orderId
    by_cases hawaits : op.orderId = orderId ∧ op.status.isSchedulable = true
    · by_cases hword : r .status = .text op.status.word
      · rw [hreads.mpr hawaits, hfound.mpr ⟨hawaits.1, hawaits.2, hword⟩]
      · -- the row is missed, but it has no dates to lose
        obtain ⟨hstart, hend⟩ := not_or.mp fun hdated => hword (words hawaits.2 hdated)
        have hmissed : isUnstarted orderId r = false :=
          Bool.eq_false_iff.mpr fun h => hword (hfound.mp h).2.2
        rw [hreads.mpr hawaits, hmissed]
        by_cases hdate : c = .scheduledStart ∨ c = .scheduledEnd
        · rcases hdate with rfl | rfl
          · exact not_not.mp hstart
          · exact not_not.mp hend
        · simp [hdate]
    · have hkept : isUnstarted orderId r = false :=
        Bool.eq_false_iff.mpr fun h => hawaits ⟨(hfound.mp h).1, (hfound.mp h).2.1⟩
      have hreads : r.readsAs Operation.ofRow (awaitsOf orderId) = false :=
        Bool.eq_false_iff.mpr fun h => hawaits (hreads.mp h)
      rw [hkept, hreads]

/-- Dates are taken from the operations that are read as not begun if and only if those
    with dates are stored by their words. -/
theorem cleared_iff (decodes : s.Decodes) :
    (∀ orderId, ∃ t centers, s.clearSchedule orderId = .ok (t, centers) ∧
      List.Forall₂ (ClearedAsRead orderId) s.operations t.operations) ↔
    ∀ r ∈ s.operations, ∀ op, Operation.ofRow r = .ok op → op.status.isSchedulable = true →
      r .scheduledStart ≠ .null ∨ r .scheduledEnd ≠ .null →
        r .status = .text op.status.word := by
  have hrows : (∀ orderId, ∃ t centers, s.clearSchedule orderId = .ok (t, centers) ∧
      List.Forall₂ (ClearedAsRead orderId) s.operations t.operations) ↔
        ∀ r ∈ s.operations, ∀ orderId, ClearedAsRead orderId r (clearedRow orderId r) := by
    constructor
    · intro h r hr orderId
      obtain ⟨t, centers, hclear, hrows⟩ := h orderId
      obtain ⟨centers', hclear'⟩ := exists_clearSchedule decodes orderId
      obtain rfl : t = _ := congrArg Prod.fst (Except.ok.inj (hclear.symm.trans hclear'))
      exact List.forall₂_same.mp (List.forall₂_map_right_iff.mp hrows) r hr
    · intro h orderId
      obtain ⟨centers, hclear⟩ := exists_clearSchedule decodes orderId
      exact ⟨_, centers, hclear, forall₂_map_self fun r hr => h r hr orderId⟩
  rw [hrows]
  refine forall₂_congr fun r hr => ?_
  obtain ⟨op, hop⟩ := decodes.operations r hr
  rw [clearedRow_iff (Operation.ofRow_eq_ok_iff.mp hop), hop]
  constructor
  · intro h op' hop'
    cases hop'
    exact h
  · intro h
    exact h op rfl

/-! ### Hours that are counted -/

theorem readsAs_complete {r : Row Operation.Column Q} {op : Operation Q}
    (h : Operation.Reads r op) : r.readsAs Operation.ofRow isCompleteOperation = true ↔
      op.status = .complete := by
  rw [Row.readsAs_of_ok (Operation.ofRow_eq_ok_iff.mpr h), isCompleteOperation, beq_iff_eq]

/-- No complete operation is counted if and only if those that start in a window are stored
    by their word. -/
theorem counted_iff (decodes : s.Decodes) :
    (∀ windowStart windowEnd, ∀ r ∈ s.operations, isCommitted windowStart windowEnd r = true →
      r.readsAs Operation.ofRow isCompleteOperation = false) ↔
    ∀ r ∈ s.operations, ∀ op, Operation.ofRow r = .ok op → op.status = .complete →
      ∀ windowStart windowEnd : Date, isBetween (DateText.write windowStart)
        (DateText.write windowEnd) (r .scheduledStart) = true →
          r .status = .text op.status.word := by
  constructor
  · intro h r hr op hread hcomplete windowStart windowEnd hbetween
    have hread := Operation.ofRow_eq_ok_iff.mp hread
    by_contra hword
    have hother : (r .status).isText OperationStatus.complete.word = false :=
      Bool.eq_false_iff.mpr fun h => hword ((isComplete_iff hread).mp h).2
    have hcounted : isCommitted windowStart windowEnd r = true := by
      rw [isCommitted, hother, hbetween]
      rfl
    have hreads := h windowStart windowEnd r hr hcounted
    rw [(readsAs_complete hread).mpr hcomplete] at hreads
    cases hreads
  · intro words windowStart windowEnd r hr hcounted
    obtain ⟨op, hop⟩ := decodes.operations r hr
    have hread := Operation.ofRow_eq_ok_iff.mp hop
    rw [isCommitted, Bool.and_eq_true, Bool.not_eq_true'] at hcounted
    rw [Bool.eq_false_iff]
    intro hcomplete
    have hcomplete := (readsAs_complete hread).mp hcomplete
    have hword := words r hr op hop hcomplete windowStart windowEnd hcounted.2
    rw [(isComplete_iff hread).mpr ⟨hcomplete, hword⟩] at hcounted
    exact Bool.noConfusion hcounted.1

/-- Hours are loaded as if the complete operations were not there, if none is counted. -/
theorem loadLedgerEntries_withoutComplete {windowStart windowEnd : Date}
    (h : ∀ r ∈ s.operations, isCommitted windowStart windowEnd r = true →
      r.readsAs Operation.ofRow isCompleteOperation = false) (minHours : Q) :
    s.loadLedgerEntries windowStart windowEnd minHours =
      s.withoutComplete.loadLedgerEntries windowStart windowEnd minHours := by
  have hrows : s.withoutComplete.operations.filter (isCommitted windowStart windowEnd) =
      s.operations.filter (isCommitted windowStart windowEnd) := by
    rw [withoutComplete, List.filter_filter]
    refine List.filter_congr fun r hr => ?_
    cases hcounted : isCommitted windowStart windowEnd r with
    | false => rfl
    | true => rw [h r hr hcounted]; rfl
  unfold loadLedgerEntries
  rw [hrows]

/-- **Rows are selected by the statuses that are read** in a store if and only if the
    statuses that are looked for are stored by their words. -/
theorem selectsByStatus_iff (keyed : s.Keyed) (decodes : s.Decodes) :
    s.SelectsByStatus ↔ s.StatusesByWord := by
  constructor
  · rintro ⟨listed, released, cleared, counted, -⟩
    exact ⟨(released_iff keyed).mp released, (listed_iff keyed decodes).mp listed,
      (cleared_iff decodes).mp cleared, (counted_iff decodes).mp counted⟩
  · rintro ⟨draft, active, unstarted, complete⟩
    have counted := (counted_iff decodes).mpr complete
    exact ⟨(listed_iff keyed decodes).mpr active, (released_iff keyed).mpr draft,
      (cleared_iff decodes).mpr unstarted, counted, fun windowStart windowEnd minHours =>
        loadLedgerEntries_withoutComplete (counted windowStart windowEnd) minHours⟩

end Store

/-! ### A store with four spellings -/

omit [Quantity Q] in
/-- A cell of no key is written without a change to the keys. -/
theorem Row.keys_set {C : Type} [DecidableEq C] [Table C] {c : C}
    (other : ∀ key ∈ (Table.uniqueKeys : List (List C)), c ∉ key) (r : Row C Q) (v : Cell Q) :
    ∀ key ∈ (Table.uniqueKeys : List (List C)), ∀ d ∈ key, (r.set c v).cell d = r d := by
  intro key hkey d hd
  have hne : d ≠ c := by
    rintro rfl
    exact other key hkey hd
  rw [Row.set_cell, if_neg hne]

/-- A row with another spelling of its status is read as before. -/
theorem Order.Reads.respelled {r : Row Order.Column Q} {o : Order Q} (h : Order.Reads r o)
    {word : String} (same : Field.orderStatus 4 word = .ok o.status) :
    Order.Reads (r.set .status (.text word)) o := by
  refine h.updated (fun c hc => ?_) ?_
    ((Row.instant_congr (Row.set_cell _ _ _ _)).trans h.releasedAt)
    ((Row.instant_congr (Row.set_cell _ _ _ _)).trans h.completedAt)
  · rw [Row.set_cell, if_neg (by rintro rfl; exact hc (by decide))]
  · exact bind_eq_ok_iff.mpr ⟨word, Row.text_eq_ok_iff.mpr (Row.set_cell _ _ _ _), same⟩

theorem Operation.Reads.respelled {r : Row Operation.Column Q} {op : Operation Q}
    (h : Operation.Reads r op) {word : String}
    (same : Field.operationStatus 15 word = .ok op.status) :
    Operation.Reads (r.set .status (.text word)) op := by
  have kept : ∀ {c}, c ≠ .status → (r.set .status (.text word)).cell c = r c := by
    intro c hc
    rw [Row.set_cell, if_neg hc]
  exact
    { operationId := (Row.text_congr (kept (by decide))).trans h.operationId
      orderId := (Row.text_congr (kept (by decide))).trans h.orderId
      sequence := (Row.number_congr (kept (by decide))).trans h.sequence
      componentPartId := (Row.text?_congr (kept (by decide))).trans h.componentPartId
      operationGroup := (Row.text?_congr (kept (by decide))).trans h.operationGroup
      workCenterId := (Row.text_congr (kept (by decide))).trans h.workCenterId
      name := (Row.text_congr (kept (by decide))).trans h.name
      description := (Row.text?_congr (kept (by decide))).trans h.description
      isInspection := (Row.flag_congr (kept (by decide))).trans h.isInspection
      setupHours := (Row.quantity_congr (kept (by decide))).trans h.setupHours
      runHours := (Row.quantity_congr (kept (by decide))).trans h.runHours
      actualSetupHours := (Row.quantity_congr (kept (by decide))).trans h.actualSetupHours
      actualRunHours := (Row.quantity_congr (kept (by decide))).trans h.actualRunHours
      quantityComplete := (Row.quantity_congr (kept (by decide))).trans h.quantityComplete
      quantityScrapped := (Row.quantity_congr (kept (by decide))).trans h.quantityScrapped
      status := bind_eq_ok_iff.mpr ⟨word, Row.text_eq_ok_iff.mpr (Row.set_cell _ _ _ _), same⟩
      scheduledStart := (Row.date_congr (kept (by decide))).trans h.scheduledStart
      scheduledEnd := (Row.date_congr (kept (by decide))).trans h.scheduledEnd
      actualStart := (Row.instant_congr (kept (by decide))).trans h.actualStart
      actualEnd := (Row.instant_congr (kept (by decide))).trans h.actualEnd
      startedBy := (Row.text?_congr (kept (by decide))).trans h.startedBy
      completedBy := (Row.text?_congr (kept (by decide))).trans h.completedBy
      notes := (Row.text?_congr (kept (by decide))).trans h.notes }

def shelfOrder (id : String) (status : OrderStatus) : Order Float :=
  ⟨id, "MO-" ++ id, "SHAFT", Quantity.ofInt 2, status, 5, none, none, none⟩

def shelfOperation (sequence : Int) (status : OperationStatus) : Operation Float :=
  { Draft.toOperation ⟨sequence, none, none, "LATHE", "Turn", none, false, Quantity.zero,
      Quantity.ofInt 4⟩ "A" ("A/" ++ toString sequence) with
    status := status
    scheduledStart := some Store.bookedMonday
    scheduledEnd := some Store.bookedMonday }

/-- A released order with a complete operation and a pending one on the same day, and a
    draft, with texts for their statuses. -/
def shelf (released draft complete pending : String) : Store Float :=
  { (Store.empty : Store Float) with
    orders := [(shelfOrder "A" .released).toRow.set .status (.text released),
      (shelfOrder "B" .draft).toRow.set .status (.text draft)]
    operations := [(shelfOperation 10 .complete).toRow.set .status (.text complete),
      (shelfOperation 20 .pending).toRow.set .status (.text pending)] }

theorem keyed_shelf (released draft complete pending : String) :
    (shelf released draft complete pending).Keyed where
  orders := by
    have plain : Table.Keyed [(shelfOrder "A" .released).toRow, (shelfOrder "B" .draft).toRow] := by
      unfold Table.Keyed
      decide +kernel
    have kept := Row.keys_set (C := Order.Column) (c := .status) (Q := Float) (by decide)
    exact plain.of_forall₂ (.cons (kept _ _) (.cons (kept _ _) .nil))
  operations := by
    have plain : Table.Keyed
        [(shelfOperation 10 .complete).toRow, (shelfOperation 20 .pending).toRow] := by
      unfold Table.Keyed
      decide +kernel
    have kept := Row.keys_set (C := Operation.Column) (c := .status) (Q := Float) (by decide)
    exact plain.of_forall₂ (.cons (kept _ _) (.cons (kept _ _) .nil))

theorem reads_shelfDraft {word : String} (h : Field.orderStatus 4 word = .ok .draft) :
    Order.Reads ((shelfOrder "B" .draft).toRow.set .status (.text word))
      (shelfOrder "B" .draft) := by
  have plain : Order.Reads (shelfOrder "B" .draft).toRow (shelfOrder "B" .draft) :=
    ⟨rfl, rfl, rfl, by decide +kernel, by decide +kernel, rfl, rfl, rfl, rfl⟩
  exact plain.respelled h

theorem decodes_shelf {released draft complete pending : String}
    (hreleased : Field.orderStatus 4 released = .ok .released)
    (hdraft : Field.orderStatus 4 draft = .ok .draft)
    (hcomplete : Field.operationStatus 15 complete = .ok .complete)
    (hpending : Field.operationStatus 15 pending = .ok .pending) :
    (shelf released draft complete pending).Decodes := by
  have hA : Order.Reads (shelfOrder "A" .released).toRow (shelfOrder "A" .released) :=
    ⟨rfl, rfl, rfl, by decide +kernel, by decide +kernel, rfl, rfl, rfl, rfl⟩
  have h10 : Operation.Reads (shelfOperation 10 .complete).toRow (shelfOperation 10 .complete) :=
    ⟨rfl, rfl, rfl, rfl, rfl, rfl, rfl, rfl, rfl, by decide +kernel, by decide +kernel,
      by decide +kernel, by decide +kernel, by decide +kernel, by decide +kernel,
      by decide +kernel, by decide +kernel, by decide +kernel, rfl, rfl, rfl, rfl, rfl⟩
  have h20 : Operation.Reads (shelfOperation 20 .pending).toRow (shelfOperation 20 .pending) :=
    ⟨rfl, rfl, rfl, rfl, rfl, rfl, rfl, rfl, rfl, by decide +kernel, by decide +kernel,
      by decide +kernel, by decide +kernel, by decide +kernel, by decide +kernel,
      by decide +kernel, by decide +kernel, by decide +kernel, rfl, rfl, rfl, rfl, rfl⟩
  constructor
  · intro r hr
    rcases List.mem_pair.mp hr with rfl | rfl
    · exact ⟨_, Order.ofRow_eq_ok_iff.mpr (hA.respelled hreleased)⟩
    · exact ⟨_, Order.ofRow_eq_ok_iff.mpr (reads_shelfDraft hdraft)⟩
  · intro r hr
    rcases List.mem_pair.mp hr with rfl | rfl
    · exact ⟨_, Operation.ofRow_eq_ok_iff.mpr (h10.respelled hcomplete)⟩
    · exact ⟨_, Operation.ofRow_eq_ok_iff.mpr (h20.respelled hpending)⟩

/-- The words of the statuses are selected by the statuses that are read from them. -/
theorem selectsByStatus_shelf :
    ((shelf "RELEASED" "DRAFT" "COMPLETE" "PENDING").Keyed ∧
      (shelf "RELEASED" "DRAFT" "COMPLETE" "PENDING").Decodes) ∧
    (shelf "RELEASED" "DRAFT" "COMPLETE" "PENDING").SelectsByStatus := by
  have keyed := keyed_shelf "RELEASED" "DRAFT" "COMPLETE" "PENDING"
  have decodes := decodes_shelf (Field.orderStatus_word 4 .released)
    (Field.orderStatus_word 4 .draft) (Field.operationStatus_word 15 .complete)
    (Field.operationStatus_word 15 .pending)
  have orders : ∀ r ∈ (shelf "RELEASED" "DRAFT" "COMPLETE" "PENDING").orders, ∀ o,
      Order.ofRow r = .ok o → r .status = .text o.status.word := by
    intro r hr o hread
    refine (((Order.ofRow_eq_ok_iff.mp hread).exists_word_iff fun _ => True).mp ?_).2
    rcases List.mem_pair.mp hr with rfl | rfl
    · exact ⟨.released, trivial, Row.set_cell _ _ _ _⟩
    · exact ⟨.draft, trivial, Row.set_cell _ _ _ _⟩
  have operations : ∀ r ∈ (shelf "RELEASED" "DRAFT" "COMPLETE" "PENDING").operations, ∀ op,
      Operation.ofRow r = .ok op → r .status = .text op.status.word := by
    intro r hr op hread
    refine (((Operation.ofRow_eq_ok_iff.mp hread).exists_word_iff fun _ => True).mp ?_).2
    rcases List.mem_pair.mp hr with rfl | rfl
    · exact ⟨.complete, trivial, Row.set_cell _ _ _ _⟩
    · exact ⟨.pending, trivial, Row.set_cell _ _ _ _⟩
  refine ⟨⟨keyed, decodes⟩, (Store.selectsByStatus_iff keyed decodes).mpr ?_⟩
  exact ⟨fun r hr o hread _ => orders r hr o hread, fun r hr o hread _ => orders r hr o hread,
    fun r hr op hread _ _ => operations r hr op hread,
    fun r hr op hread _ _ _ _ => operations r hr op hread⟩

/-- The same statuses, apart from letter case and blanks. -/
def respelledShelf : Store Float := shelf " released " "draft" "Complete" "pending"

/-- With other spellings the released order is not listed, the draft cannot be released, the
    pending operation keeps its dates, and the complete one takes hours. -/
theorem respelledShelf_misread :
    (respelledShelf.Keyed ∧ respelledShelf.Decodes) ∧
    respelledShelf.listActiveOrders none = .ok [] ∧
    (respelledShelf.getOrder "B" = .ok (shelfOrder "B" .draft) ∧ ∀ releasedAt,
      respelledShelf.releaseWithOperations "B" [] releasedAt =
        .error (.concurrentModification "ProductionOrder" "B")) ∧
    respelledShelf.clearSchedule "A" = .ok (respelledShelf, []) ∧
    respelledShelf.loadLedgerEntries Store.bookedMonday Store.bookedMonday 0.5 =
      .ok [⟨"LATHE", Store.bookedMonday, Quantity.ofInt 8⟩] ∧
    ¬ respelledShelf.SelectsByStatus := by
  have keyed : respelledShelf.Keyed := keyed_shelf _ _ _ _
  have decodes : respelledShelf.Decodes :=
    decodes_shelf (by decide +kernel) (by decide +kernel) (by decide +kernel) (by decide +kernel)
  have hlisted : respelledShelf.listActiveOrders none = .ok [] := by
    have hnone : respelledShelf.orders.filter (fun r => Store.isActiveOrder r &&
        ((none : Option String).map fun id => (r .orderId).isText id).getD true) = [] := by
      decide +kernel
    unfold Store.listActiveOrders Store.sortedBy
    rw [hnone]
    dsimp only
    rw [List.mergeSort_nil]
    rfl
  have hfound : respelledShelf.getOrder "B" = .ok (shelfOrder "B" .draft) :=
    Store.getOrder_eq_ok_iff.mpr ⟨_, [], by rfl, reads_shelfDraft (by decide +kernel)⟩
  have hrefused : ∀ releasedAt, respelledShelf.releaseWithOperations "B" [] releasedAt =
      .error (.concurrentModification "ProductionOrder" "B") := by
    intro releasedAt
    rfl
  have hcleared : respelledShelf.clearSchedule "A" = .ok (respelledShelf, []) := by
    refine bind_eq_ok_iff.mpr ⟨[], rfl, ?_⟩
    rw [Text.ascending, List.mergeSort_nil]
    rfl
  have hloaded : respelledShelf.loadLedgerEntries Store.bookedMonday Store.bookedMonday 0.5 =
      .ok [⟨"LATHE", Store.bookedMonday, Quantity.ofInt 8⟩] := by
    have hcounted : respelledShelf.operations.filter
        (Store.isCommitted Store.bookedMonday Store.bookedMonday) = respelledShelf.operations :=
      List.filter_eq_self.mpr (by decide +kernel)
    unfold Store.loadLedgerEntries
    dsimp only
    rw [hcounted]
    have hgroups : respelledShelf.operations.foldl (fun gs r => Store.addToGroup r gs) [] =
        [respelledShelf.operations] := by rfl
    have hstart : ((shelfOperation 10 .complete).toRow.set .status (.text "Complete")).date
        .scheduledStart 1 = .ok (some Store.bookedMonday) := by decide +kernel
    have hhours : Field.quantity "hours" (Store.sumHours
        (respelledShelf.operations.filterMap (Store.committedHours 0.5))) =
          .ok (Quantity.ofInt 8) := by decide +kernel
    rw [hgroups, List.mergeSort_singleton]
    refine bind_eq_ok_iff.mpr ⟨[some ⟨"LATHE", Store.bookedMonday, Quantity.ofInt 8⟩],
      mapM_eq_ok_iff.mpr (.cons ?_ .nil), rfl⟩
    refine bind_eq_ok_iff.mpr ⟨some Store.bookedMonday, hstart, ?_⟩
    exact bind_eq_ok_iff.mpr ⟨"LATHE", rfl, bind_eq_ok_iff.mpr ⟨_, hhours, rfl⟩⟩
  refine ⟨⟨keyed, decodes⟩, hlisted, ⟨hfound, hrefused⟩, hcleared, hloaded, ?_⟩
  intro selects
  exact ((selects.released "B" _ hfound [] (.midnight default)).mpr rfl) (hrefused _)

end Workshop
