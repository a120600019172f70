/-
  Workshop/Proofs/Store/WrittenRows.lean
  ======================================
  **Rows are read as they were written.**  The row of an order or an operation is read as it,
  whichever of its fields are missing, apart from the sign of a zero (`Order.reads_toRow`,
  `Operation.reads_toRow`).  So an order that is added is found again, and the operations of a
  release are found and listed again, the list in the ascending order of sequence numbers
  (`writes_readBack`).

  The sign of a zero is not kept (`writes_readBack_not_exact`), and a list has an answer only
  while every row of the order can be read.
-/
import Workshop.Proofs.Calendar.WrittenDate
import Workshop.Proofs.Execution.Release
import Workshop.Proofs.Store.ExecutionRecords

namespace Workshop

variable {Q : Type}

/-! ### Cells that are written and read -/

theorem Field.date_ofDate? (place : Nat) (d : Option Date) : date place (ofDate? d) = .ok d := by
  cases d with
  | none => rfl
  | some d =>
    unfold date ofDate?
    rw [Option.map_some]
    dsimp only
    rw [DateText.read_write]

namespace Row

variable {C : Type} [DecidableEq C] [Table C] {r : Row C Q} {c : C}

theorem date_of_cell {d : Option Date} {place : Nat} (h : r c = .ofText? (Field.ofDate? d)) :
    r.date c place = .ok d :=
  bind_eq_ok_iff.mpr ⟨_, text?_eq_ok_iff.mpr h, Field.date_ofDate? place d⟩

theorem number_of_cell {n : Int} {place : Nat} (h : r c = .integer n)
    (range : -2147483648 ≤ n ∧ n ≤ 2147483647) : r.number c place = .ok n := by
  unfold Row.number Field.number
  rw [h]
  dsimp only [Field.whole]
  rw [if_pos range]

theorem flag_of_cell {b : Bool} (h : r c = .ofBool b) : r.flag c = .ok b := by
  unfold Row.flag
  rw [h]
  cases b <;> rfl

end Row

/-! ### Orders -/

/-- The times of the order fall into years with four digits, and its priority has 32 bits. -/
structure Order.Storable (o : Order Q) : Prop where
  priority : -2147483648 ≤ o.priority ∧ o.priority ≤ 2147483647
  releasedAt : ∀ t, o.releasedAt = some t → t.FourDigitYear
  completedAt : ∀ t, o.completedAt = some t → t.FourDigitYear

/-- The times of the operation fall into years with four digits, and its sequence number has
    32 bits. -/
structure Operation.Storable (op : Operation Q) : Prop where
  sequence : -2147483648 ≤ op.sequence ∧ op.sequence ≤ 2147483647
  dated : op.Dated

variable [Quantity Q]

/-- The same order, apart from the sign of a zero. -/
structure Order.Mirrors (a b : Order Q) : Prop where
  same : a = { b with quantityOrdered := a.quantityOrdered }
  quantityOrdered : Quantity.Alike a.quantityOrdered b.quantityOrdered

/-- The same operation, apart from the signs of zeros. -/
structure Operation.Mirrors (a b : Operation Q) : Prop where
  same : a =
    { b with
      setupHours := a.setupHours
      runHours := a.runHours
      actualSetupHours := a.actualSetupHours
      actualRunHours := a.actualRunHours
      quantityComplete := a.quantityComplete
      quantityScrapped := a.quantityScrapped }
  setupHours : Quantity.Alike a.setupHours b.setupHours
  runHours : Quantity.Alike a.runHours b.runHours
  actualSetupHours : Quantity.Alike a.actualSetupHours b.actualSetupHours
  actualRunHours : Quantity.Alike a.actualRunHours b.actualRunHours
  quantityComplete : Quantity.Alike a.quantityComplete b.quantityComplete
  quantityScrapped : Quantity.Alike a.quantityScrapped b.quantityScrapped

/-- The order as it is read from its row. -/
def Order.stored (o : Order Q) : Order Q :=
  { o with quantityOrdered := o.quantityOrdered + Quantity.zero }

/-- The operation as it is read from its row. -/
def Operation.stored (op : Operation Q) : Operation Q :=
  { op with
    setupHours := op.setupHours + Quantity.zero
    runHours := op.runHours + Quantity.zero
    actualSetupHours := op.actualSetupHours + Quantity.zero
    actualRunHours := op.actualRunHours + Quantity.zero
    quantityComplete := op.quantityComplete + Quantity.zero
    quantityScrapped := op.quantityScrapped + Quantity.zero }

theorem Order.stored_mirrors [Quantity.LawfulZero Q] (o : Order Q) : o.stored.Mirrors o :=
  ⟨rfl, Quantity.LawfulZero.add_zero_alike _⟩

theorem Operation.stored_mirrors [Quantity.LawfulZero Q] (op : Operation Q) :
    op.stored.Mirrors op where
  same := rfl
  setupHours := Quantity.LawfulZero.add_zero_alike _
  runHours := Quantity.LawfulZero.add_zero_alike _
  actualSetupHours := Quantity.LawfulZero.add_zero_alike _
  actualRunHours := Quantity.LawfulZero.add_zero_alike _
  quantityComplete := Quantity.LawfulZero.add_zero_alike _
  quantityScrapped := Quantity.LawfulZero.add_zero_alike _

/-- A quantity that a column requires is a number if the row lacks nothing. -/
theorem Table.isNaN_of_missing? {C : Type} [DecidableEq C] [Table C] {r : Row C Q}
    (h : missing? r = none) {c : C} {x : Q} (required : (spec c).required = true)
    (hx : r c = .ofQuantity x) : Quantity.isNaN x = false :=
  Cell.not_isNaN_of_not_isNull (hx ▸ Table.not_isNull_of_missing? h required)

/-- The row of an order is read as the order. -/
theorem Order.reads_toRow {o : Order Q} (h : o.Storable)
    (complete : Table.missing? o.toRow = none) : Order.Reads o.toRow o.stored where
  orderId := Row.text_eq_ok_iff.mpr (Row.ofCells_cell _ _)
  orderNumber := Row.text_eq_ok_iff.mpr (Row.ofCells_cell _ _)
  partId := Row.text_eq_ok_iff.mpr (Row.ofCells_cell _ _)
  quantityOrdered := Row.quantity_of_cell (Row.ofCells_cell _ _)
    (Table.isNaN_of_missing? complete (c := .quantityOrdered) rfl (Row.ofCells_cell _ _))
  status := bind_eq_ok_iff.mpr ⟨_, Row.text_eq_ok_iff.mpr (Row.ofCells_cell _ _),
    Field.orderStatus_word 4 o.status⟩
  priority := Row.number_of_cell (Row.ofCells_cell _ _) h.priority
  dueDate := Row.date_of_cell (Row.ofCells_cell _ _)
  releasedAt := Row.instant_of_cell (Row.ofCells_cell _ _) h.releasedAt
  completedAt := Row.instant_of_cell (Row.ofCells_cell _ _) h.completedAt

/-- The row of an operation is read as the operation. -/
theorem Operation.reads_toRow {op : Operation Q} (h : op.Storable)
    (complete : Table.missing? op.toRow = none) : Operation.Reads op.toRow op.stored := by
  have quantity : ∀ {c x}, (Table.spec c).required = true → op.toRow c = .ofQuantity x →
      op.toRow.quantity c = .ok (x + Quantity.zero) :=
    fun required hx => Row.quantity_of_cell hx (Table.isNaN_of_missing? complete required hx)
  have text : ∀ {c s}, op.toRow c = .ofText? s → op.toRow.text? c = .ok s :=
    Row.text?_eq_ok_iff.mpr
  exact
    { operationId := Row.text_eq_ok_iff.mpr (Row.ofCells_cell _ _)
      orderId := Row.text_eq_ok_iff.mpr (Row.ofCells_cell _ _)
      sequence := Row.number_of_cell (Row.ofCells_cell _ _) h.sequence
      componentPartId := text (Row.ofCells_cell _ _)
      operationGroup := text (Row.ofCells_cell _ _)
      workCenterId := Row.text_eq_ok_iff.mpr (Row.ofCells_cell _ _)
      name := Row.text_eq_ok_iff.mpr (Row.ofCells_cell _ _)
      description := text (Row.ofCells_cell _ _)
      isInspection := Row.flag_of_cell (Row.ofCells_cell _ _)
      setupHours := quantity rfl (Row.ofCells_cell _ _)
      runHours := quantity rfl (Row.ofCells_cell _ _)
      actualSetupHours := quantity rfl (Row.ofCells_cell _ _)
      actualRunHours := quantity rfl (Row.ofCells_cell _ _)
      quantityComplete := quantity rfl (Row.ofCells_cell _ _)
      quantityScrapped := quantity rfl (Row.ofCells_cell _ _)
      status := bind_eq_ok_iff.mpr ⟨_, Row.text_eq_ok_iff.mpr (Row.ofCells_cell _ _),
        Field.operationStatus_word 15 op.status⟩
      scheduledStart := Row.date_of_cell (Row.ofCells_cell _ _)
      scheduledEnd := Row.date_of_cell (Row.ofCells_cell _ _)
      actualStart := Row.instant_of_cell (Row.ofCells_cell _ _) h.dated.actualStart
      actualEnd := Row.instant_of_cell (Row.ofCells_cell _ _) h.dated.actualEnd
      startedBy := text (Row.ofCells_cell _ _)
      completedBy := text (Row.ofCells_cell _ _)
      notes := text (Row.ofCells_cell _ _) }

/-- What is read after an order has been released. -/
theorem Order.Reads.released {r : Row Order.Column Q} {o : Order Q} (h : Order.Reads r o)
    {releasedAt : Instant} (year : releasedAt.FourDigitYear) :
    Order.Reads (Store.releasedRow releasedAt r)
      { o with status := .released, releasedAt := some releasedAt } := by
  refine h.updated (fun c hc => ?_) ?_
    (Row.instant_of_cell (Store.releasedRow_cell _ _ _) fun u hu => Option.some.inj hu ▸ year) ?_
  · rw [Store.releasedRow_cell, if_neg (by rintro rfl; exact hc (by decide)),
      if_neg (by rintro rfl; exact hc (by decide))]
  · exact bind_eq_ok_iff.mpr ⟨_, Row.text_eq_ok_iff.mpr (Store.releasedRow_cell _ _ _),
      Field.orderStatus_word 4 .released⟩
  · exact (Row.instant_congr (Store.releasedRow_cell _ _ _)).trans h.completedAt

/-! ### Rows by their keys -/

namespace Store

variable {s t : Store Q} {orderId id : String}

/-- One row is found by a unique key. -/
theorem rowsWith_of_mem {C : Type} [DecidableEq C] [Table C] {rows : List (Row C Q)}
    (keyed : Table.Keyed rows) {c : C} (unique : [c] ∈ (Table.uniqueKeys : List (List C)))
    {r : Row C Q} (hr : r ∈ rows) (hid : r c = .text id) : rowsWith rows c id = [r] := by
  have mem : r ∈ rowsWith rows c id := mem_rowsWith.mpr ⟨hr, hid⟩
  have texts : ∀ u ∈ rowsWith rows c id, u c = .text id := fun u hu => (mem_rowsWith.mp hu).2
  have apart : (rowsWith rows c id).Pairwise fun u v => ∀ s, ¬ (u c = .text s ∧ v c = .text s) :=
    (keyed.pairwise unique).filter _
  generalize rowsWith rows c id = selected at mem texts apart
  cases selected with
  | nil => cases mem
  | cons u rest =>
    obtain rfl : rest = [] := List.eq_nil_iff_forall_not_mem.mpr fun v hv =>
      List.rel_of_pairwise_cons apart hv id
        ⟨texts u List.mem_cons_self, texts v (List.mem_cons_of_mem u hv)⟩
    rw [List.mem_singleton.mp mem]

omit [Quantity Q] in
theorem rowsWith_append {C : Type} [DecidableEq C] {rows added : List (Row C Q)} {c : C}
    (other : ∀ r ∈ added, r c ≠ .text id) :
    rowsWith (rows ++ added) c id = rowsWith rows c id := by
  have none : added.filter (fun r => (r c).isText id) = [] :=
    List.filter_eq_nil_iff.mpr fun r hr => mt Cell.isText_iff.mp (other r hr)
  unfold rowsWith
  rw [List.filter_append, none, List.append_nil]

/-! ### An order that is added -/

/-- An order comes behind the others if its row breaks no rule of the table. -/
theorem insertOrder_eq_ok {o : Order Q} (fine : Table.violation? s.orders o.toRow = none) :
    s.insertOrder o = .ok { s with orders := s.orders ++ [o.toRow] } :=
  bind_eq_ok_iff.mpr ⟨_, orFault_eq_ok_iff.mpr (Table.insert_eq_ok fine), rfl⟩

theorem insertOrder_eq {o : Order Q} (keyed : s.Keyed) (h : s.insertOrder o = .ok t) :
    t = { s with orders := s.orders ++ [o.toRow] } ∧ Table.Keyed t.orders ∧
      Table.missing? o.toRow = none := by
  obtain ⟨rows, hrows, h⟩ := bind_eq_ok_iff.mp h
  cases h
  have hadded := orFault_eq_ok_iff.mp hrows
  exact ⟨by rw [Table.insert_eq_append hadded], keyed.orders.insert hadded,
    Table.missing?_of_insert hadded⟩

/-- An order that was added is found, and what was there before is found as before.  `same`
    says when an order that is found counts as the one that was added. -/
structure OrderAdded (same : Order Q → Order Q → Prop) (s t : Store Q) (o : Order Q) : Prop where
  found : ∃ a, t.findOrder o.orderId = .ok (some a) ∧ same a o
  others : ∀ id, id ≠ o.orderId → t.findOrder id = s.findOrder id
  findOperation : t.findOperation = s.findOperation
  listOperations : t.listOperations = s.listOperations

theorem orderAdded [Quantity.LawfulZero Q] {o : Order Q} (keyed : s.Keyed) (storable : o.Storable)
    (h : s.insertOrder o = .ok t) : OrderAdded Order.Mirrors s t o := by
  obtain ⟨rfl, added, complete⟩ := insertOrder_eq keyed h
  have id_row : o.toRow .orderId = .text o.orderId := Row.ofCells_cell _ _
  have rows : rowsWith (s.orders ++ [o.toRow]) .orderId o.orderId = [o.toRow] :=
    rowsWith_of_mem added (by decide) (by simp) id_row
  refine ⟨⟨o.stored, ?_, o.stored_mirrors⟩, fun id hid => ?_, rfl, rfl⟩
  · exact readFirst_eq_ok_iff.mpr
      ⟨_, [], rows, Order.ofRow_eq_ok_iff.mpr (Order.reads_toRow storable complete)⟩
  · unfold findOrder
    rw [rowsWith_append fun r hr heq => ?_]
    rw [List.mem_singleton.mp hr, id_row] at heq
    exact hid (Cell.text.inj heq).symm

/-! ### Operations that are added -/

theorem missing?_of_insertOperations {ops : List (Operation Q)}
    (h : s.insertOperations ops = .ok t) : ∀ op ∈ ops, Table.missing? op.toRow = none := by
  induction ops generalizing s with
  | nil => exact List.forall_mem_nil _
  | cons op ops ih =>
    obtain ⟨u, hinsert, hrest⟩ := bind_eq_ok_iff.mp h
    obtain ⟨rows, hrows, -⟩ := bind_eq_ok_iff.mp hinsert
    exact List.forall_mem_cons.mpr
      ⟨Table.missing?_of_insert (orFault_eq_ok_iff.mp hrows), ih hrest⟩

theorem missing?_of_release {ops : List (Operation Q)} {releasedAt : Instant}
    (h : s.releaseWithOperations orderId ops releasedAt = .ok t) :
    ∀ op ∈ ops, Table.missing? op.toRow = none := by
  obtain ⟨rows, -, h⟩ := bind_eq_ok_iff.mp h
  split at h
  · exact missing?_of_insertOperations h
  · cases h

/-! ### Lists of operations -/

/-- A list has an answer exactly when every row of the order can be read. -/
theorem exists_listOperations_iff : (∃ ops, s.listOperations id = .ok ops) ↔
    ∀ r ∈ s.operations, r .orderId = .text id → ∃ op, Operation.ofRow r = .ok op := by
  unfold listOperations
  simp only [mapM_eq_ok_iff]
  constructor
  · rintro ⟨ops, h⟩ r hr hid
    obtain ⟨op, -, hop⟩ := forall₂_mem_left h (mem_sortedBy.mpr (mem_rowsWith.mpr ⟨hr, hid⟩))
    exact ⟨op, hop⟩
  · intro reads
    refine exists_forall₂ fun r hr => ?_
    obtain ⟨hr, hid⟩ := mem_rowsWith.mp (mem_sortedBy.mp hr)
    exact reads r hr hid

/-- In a store that keeps its keys no two operations of an order have one sequence number. -/
theorem ascending_listOperations (keyed : s.Keyed) {ops : List (Operation Q)}
    (h : s.listOperations id = .ok ops) : ops.Pairwise fun a b => a.sequence < b.sequence := by
  have places : (rowsWith s.operations .orderId id).Pairwise fun r t =>
      Table.agreeOn [Operation.Column.orderId, .sequence] r t = false :=
    (keyed.operations [.orderId, .sequence] (by decide)).filter _
  have sorted : (sortedBy .sequence (rowsWith s.operations .orderId id)).Pairwise fun r t =>
      Table.agreeOn [Operation.Column.orderId, .sequence] r t = false := by
    refine ((List.mergeSort_perm _ _).pairwise_iff ?_).mpr places
    intro r t hrt
    rwa [Table.agreeOn_comm]
  have apart : ops.Pairwise fun a b => a.sequence ≠ b.sequence := by
    refine pairwise_of_forall₂ (forall₂_mem (mapM_eq_ok_iff.mp h)) ?_ sorted
    rintro r a t b ⟨hr, hrow, -⟩ ⟨ht, htow, -⟩ hne heq
    have hid := (mem_rowsWith.mp (mem_sortedBy.mp hrow)).2
    have htid := (mem_rowsWith.mp (mem_sortedBy.mp htow)).2
    have hr := sequence_of_reads (Operation.ofRow_eq_ok_iff.mp hr)
    have ht := sequence_of_reads (Operation.ofRow_eq_ok_iff.mp ht)
    simp [Table.agreeOn, hid, htid, hr, ht, heq, Cell.agrees, Cell.isNull, Cell.le] at hne
  refine ((sorted_listOperations h).and apart).imp ?_
  rintro a b ⟨hle, hne⟩
  exact lt_of_le_of_ne hle hne

theorem rowsWith_toRow (rows : List (Row Operation.Column Q)) (ops : List (Operation Q)) :
    rowsWith (rows ++ ops.map Operation.toRow) .orderId id =
      rowsWith rows .orderId id ++ (ops.filter (·.orderId == id)).map Operation.toRow := by
  unfold rowsWith
  rw [List.filter_append, List.filter_map]
  refine congrArg (rows.filter _ ++ List.map Operation.toRow ·) (List.filter_congr fun op _ => ?_)
  rw [Function.comp_apply, Operation.toRow, Row.ofCells_cell]
  rfl

/-- After operations were added, those are listed that were listed before, and the added ones
    of the order. -/
theorem perm_of_listOperations {ops before after : List (Operation Q)}
    (reads : ∀ op ∈ ops, Operation.Reads op.toRow op.stored)
    (rows : t.operations = s.operations ++ ops.map Operation.toRow)
    (hs : s.listOperations id = .ok before) (ht : t.listOperations id = .ok after) :
    after.Perm (before ++ (ops.filter (·.orderId == id)).map Operation.stored) := by
  have written : List.Forall₂ (fun r op => Operation.ofRow r = .ok op)
      ((ops.filter (·.orderId == id)).map Operation.toRow)
      ((ops.filter (·.orderId == id)).map Operation.stored) := by
    rw [List.forall₂_map_left_iff, List.forall₂_map_right_iff, List.forall₂_same]
    exact fun op hop => Operation.ofRow_eq_ok_iff.mpr (reads op (List.mem_filter.mp hop).1)
  have sorted : (sortedBy .sequence (rowsWith t.operations .orderId id)).Perm
      (sortedBy .sequence (rowsWith s.operations .orderId id) ++
        (ops.filter (·.orderId == id)).map Operation.toRow) := by
    rw [rows, rowsWith_toRow]
    exact (List.mergeSort_perm _ _).trans ((List.mergeSort_perm _ _).symm.append_right _)
  obtain ⟨listed, hlisted, hperm⟩ :=
    List.perm_comp_forall₂ sorted (List.rel_append (mapM_eq_ok_iff.mp hs) written)
  have same : after = listed := Except.ok.inj (ht.symm.trans (mapM_eq_ok_iff.mpr hlisted))
  exact same ▸ hperm

/-! ### A release -/

/-- The operations that were added with a release are found and listed, the order is released,
    and what was there before is found as before.  `same` says when an operation that is found
    counts as the one that was added. -/
structure OperationsAdded (same : Operation Q → Operation Q → Prop) (s t : Store Q)
    (orderId : String) (ops : List (Operation Q)) (releasedAt : Instant) : Prop where
  order : ∀ o, s.findOrder orderId = .ok (some o) → o.status = .draft ∧
    t.findOrder orderId = .ok (some { o with status := .released, releasedAt := some releasedAt })
  otherOrders : ∀ id, id ≠ orderId → t.findOrder id = s.findOrder id
  found : ∀ op ∈ ops, ∃ a, t.findOperation op.operationId = .ok (some a) ∧ same a op
  otherOperations : ∀ id, (∀ op ∈ ops, op.operationId ≠ id) →
    t.findOperation id = s.findOperation id
  answers : ∀ id, (∃ listed, t.listOperations id = .ok listed) ↔
    ∃ listed, s.listOperations id = .ok listed
  listed : ∀ id before after, s.listOperations id = .ok before →
    t.listOperations id = .ok after →
    ∃ added, List.Forall₂ same added (ops.filter (·.orderId == id)) ∧
      after.Perm (before ++ added)
  ascending : ∀ id listed, t.listOperations id = .ok listed →
    listed.Pairwise fun a b => a.sequence < b.sequence

omit [Quantity Q] in
/-- A release finds the same rows of orders by their identifiers. -/
theorem rowsWith_released (releasedAt : Instant) (rows : List (Row Order.Column Q)) :
    rowsWith (rows.map fun r => if isDraft orderId r then releasedRow releasedAt r else r)
        .orderId id =
      (rowsWith rows .orderId id).map fun r =>
        if isDraft orderId r then releasedRow releasedAt r else r := by
  refine rowsWith_map (fun r => ?_) rows id
  split
  · rw [releasedRow_cell, if_neg (by decide), if_neg (by decide)]
  · rfl

/-- The order that is released was a draft, and is found as released. -/
theorem findOrder_released (keyed : s.Keyed) {releasedAt : Instant}
    (year : releasedAt.FourDigitYear) (hdraft : ∃ r ∈ s.orders, isDraft orderId r = true)
    (horders : t.orders = s.orders.map fun r =>
      if isDraft orderId r then releasedRow releasedAt r else r)
    {o : Order Q} (h : s.findOrder orderId = .ok (some o)) :
    o.status = .draft ∧ t.findOrder orderId =
      .ok (some { o with status := .released, releasedAt := some releasedAt }) := by
  obtain ⟨r, hr, hdraft⟩ := hdraft
  obtain ⟨hid, hstatus⟩ := isDraft_iff.mp hdraft
  obtain ⟨r', rest, hrows, hread⟩ := readFirst_eq_ok_iff.mp h
  -- the one row of the order is the draft
  obtain ⟨rfl, -⟩ : r = r' ∧ [] = rest :=
    List.cons.inj ((rowsWith_of_mem keyed.orders (by decide) hr hid).symm.trans hrows)
  have hread := Order.ofRow_eq_ok_iff.mp hread
  constructor
  · have status := hread.status
    rw [Row.text_eq_ok_iff.mpr hstatus] at status
    exact Except.ok.inj (status.symm.trans (Field.orderStatus_word 4 .draft))
  · unfold findOrder
    rw [horders, rowsWith_released, hrows, List.map_cons, if_pos hdraft]
    exact readFirst_eq_ok_iff.mpr
      ⟨_, _, rfl, Order.ofRow_eq_ok_iff.mpr (hread.released year)⟩

theorem findOrder_not_released {releasedAt : Instant}
    (horders : t.orders = s.orders.map fun r =>
      if isDraft orderId r then releasedRow releasedAt r else r)
    (other : id ≠ orderId) : t.findOrder id = s.findOrder id := by
  have unchanged : ∀ r ∈ rowsWith s.orders .orderId id,
      (if isDraft orderId r then releasedRow releasedAt r else r) = r := by
    intro r hr
    refine if_neg fun hdraft => other ?_
    exact Cell.text.inj ((mem_rowsWith.mp hr).2.symm.trans (isDraft_iff.mp hdraft).1)
  unfold findOrder
  rw [horders, rowsWith_released, List.map_congr_left unchanged, List.map_id']

theorem operationsAdded [Quantity.LawfulZero Q] {ops : List (Operation Q)} {releasedAt : Instant}
    (keyed : s.Keyed) (year : releasedAt.FourDigitYear) (storable : ∀ op ∈ ops, op.Storable)
    (h : s.releaseWithOperations orderId ops releasedAt = .ok t) :
    OperationsAdded Operation.Mirrors s t orderId ops releasedAt := by
  have complete := missing?_of_release h
  obtain ⟨hdraft, ht, htkeyed⟩ := releaseWithOperations_eq keyed h
  have horders : t.orders = s.orders.map fun r =>
      if isDraft orderId r then releasedRow releasedAt r else r := by rw [ht]
  have hrows : t.operations = s.operations ++ ops.map Operation.toRow := by rw [ht]
  have reads : ∀ op ∈ ops, Operation.Reads op.toRow op.stored :=
    fun op hop => Operation.reads_toRow (storable op hop) (complete op hop)
  have id_row : ∀ op : Operation Q, op.toRow .operationId = .text op.operationId :=
    fun op => Row.ofCells_cell _ _
  refine ⟨fun o => findOrder_released keyed year hdraft horders,
    fun id => findOrder_not_released horders, fun op hop => ?_, fun id other => ?_, fun id => ?_,
    fun id before after hs ht => ?_, fun id listed => ascending_listOperations htkeyed⟩
  · have mem : op.toRow ∈ t.operations :=
      hrows ▸ List.mem_append_right _ (List.mem_map_of_mem hop)
    refine ⟨op.stored, ?_, op.stored_mirrors⟩
    exact readFirst_eq_ok_iff.mpr
      ⟨_, [], rowsWith_of_mem htkeyed.operations (by decide) mem (id_row op),
        Operation.ofRow_eq_ok_iff.mpr (reads op hop)⟩
  · unfold findOperation
    rw [hrows, rowsWith_append fun r hr heq => ?_]
    obtain ⟨op, hop, rfl⟩ := List.mem_map.mp hr
    exact other op hop (Cell.text.inj ((id_row op).symm.trans heq))
  · rw [exists_listOperations_iff, exists_listOperations_iff, hrows]
    constructor
    · exact fun old r hr => old r (List.mem_append_left _ hr)
    · intro old r hr hid
      rcases List.mem_append.mp hr with hr | hr
      · exact old r hr hid
      · obtain ⟨op, hop, rfl⟩ := List.mem_map.mp hr
        exact ⟨op.stored, Operation.ofRow_eq_ok_iff.mpr (reads op hop)⟩
  · refine ⟨_, ?_, perm_of_listOperations reads hrows hs ht⟩
    rw [List.forall₂_map_left_iff, List.forall₂_same]
    exact fun op _ => op.stored_mirrors

end Store

/-- **What is written is read back.**  Dates are read as they were written, and so are instants
    in years with four digits.  An order that was added is found again, and the operations of a
    release are found and listed again, all of them apart from the signs of zeros; the released
    order has only another status and the time of its release. -/
theorem writes_readBack [Quantity.LawfulZero Q] :
    (∀ (place : Nat) (d : Option Date), Field.date place (Field.ofDate? d) = .ok d) ∧
    (∀ (place : Nat) (t : Option Instant), (∀ u, t = some u → u.FourDigitYear) →
      Field.instant place (Field.ofInstant? t) = .ok t) ∧
    (∀ (s t : Store Q) (o : Order Q), s.Keyed → o.Storable → s.insertOrder o = .ok t →
      Store.OrderAdded Order.Mirrors s t o) ∧
    ∀ (s t : Store Q) (orderId : String) (ops : List (Operation Q)) (releasedAt : Instant),
      s.Keyed → releasedAt.FourDigitYear → (∀ op ∈ ops, op.Storable) →
      s.releaseWithOperations orderId ops releasedAt = .ok t →
      Store.OperationsAdded Operation.Mirrors s t orderId ops releasedAt :=
  ⟨Field.date_ofDate?, fun place _ year => Field.instant_ofInstant? place year,
    fun _ _ _ keyed storable => Store.orderAdded keyed storable,
    fun _ _ _ _ _ keyed year storable => Store.operationsAdded keyed year storable⟩

/-! ### An order from the first day of the calendar -/

/-- The last nanosecond of a leap second. -/
def leapSecond : Instant where
  date := ⟨736634, by decide, by decide⟩
  second := 86399
  nano := 1999999999

example : leapSecond.write = "2016-12-31T23:59:60.999999999+00:00" := by decide +kernel

/-- An order that was due on the first day of the calendar. -/
def overdueOrder : Order Rat :=
  ⟨"O1", "MO-1", "SHAFT", 2, .complete, -1, some .first, some leapSecond, some leapSecond⟩

def overdueStore : Store Rat := { (Store.empty : Store Rat) with orders := [overdueOrder.toRow] }

theorem insertOrder_overdue : Store.empty.insertOrder overdueOrder = .ok overdueStore := by
  have fine : Table.violation? [] overdueOrder.toRow = none := by decide +kernel
  exact Store.insertOrder_eq_ok fine

theorem fourDigitYear_leapSecond : leapSecond.FourDigitYear := by
  constructor <;> decide +kernel

theorem storable_shaft {op : Operation Rat} (hop : op ∈ shaftOperations) : op.Storable := by
  have sequences : ∀ op ∈ shaftOperations,
      -2147483648 ≤ op.sequence ∧ op.sequence ≤ 2147483647 := by decide
  have unstarted : ∀ op ∈ shaftOperations, op.actualStart = none ∧ op.actualEnd = none := by
    decide
  obtain ⟨start, stop⟩ := unstarted op hop
  refine ⟨sequences op hop, fun t ht => ?_, fun t ht => ?_⟩
  · rw [start] at ht
    cases ht
  · rw [stop] at ht
    cases ht

/-- The overdue order is found as it was added, and the operations of the shaft as they were
    released. -/
theorem writes_readBack_shaft :
    (Store.empty : Store Rat).Keyed ∧ overdueOrder.Storable ∧
      Store.empty.insertOrder overdueOrder = .ok overdueStore ∧
      Store.OrderAdded Order.Mirrors Store.empty overdueStore overdueOrder ∧
      shaftStore.Keyed ∧ shaftClock.now.FourDigitYear ∧ (∀ op ∈ shaftOperations, op.Storable) ∧
      shaftStore.releaseWithOperations "S1" shaftOperations shaftClock.now =
        .ok (shaftStoreAfter shaftOperations) ∧
      Store.OperationsAdded Operation.Mirrors shaftStore (shaftStoreAfter shaftOperations) "S1"
        shaftOperations shaftClock.now := by
  obtain ⟨-, -, added, released⟩ := writes_readBack (Q := Rat)
  have keyed : (Store.empty : Store Rat).Keyed := ⟨fun _ _ => .nil, fun _ _ => .nil⟩
  have storable : overdueOrder.Storable :=
    ⟨by decide, fun t ht => Option.some.inj ht ▸ fourDigitYear_leapSecond,
      fun t ht => Option.some.inj ht ▸ fourDigitYear_leapSecond⟩
  have year : shaftClock.now.FourDigitYear := by constructor <;> decide +kernel
  exact ⟨keyed, storable, insertOrder_overdue, added _ _ _ keyed storable insertOrder_overdue,
    keyed_shaft, year, fun _ => storable_shaft, release_writes_shaft,
    released _ _ _ _ _ keyed_shaft year (fun _ => storable_shaft) release_writes_shaft⟩

/-! ### What is not read back -/

/-- An order for a zero with a sign. -/
def minusOrder : Order Float :=
  ⟨"O1", "MO-1", "SHAFT", -Quantity.zero, .draft, 5, none, none, none⟩

def minusStore : Store Float := { (Store.empty : Store Float) with orders := [minusOrder.toRow] }

/-- A second order for a shaft. -/
def siblingOrder : Order Rat := { shaftOrder with orderId := "S2", orderNumber := "MO-3" }

/-- An operation of the first shaft that began in the year 10000; such a time is written with
    five digits and a sign, and is not read. -/
def lateOperation : Operation Rat :=
  { turned with
    operationId := "S1/5"
    sequence := 5
    actualStart := some (.midnight ⟨3652365, by decide, by decide⟩) }

/-- Two orders are added, and the second one is released with an operation of the first. -/
def crossedRelease : Except StoreFault (Store Rat) := do
  let s ← Store.empty.insertOrder shaftOrder
  let s ← s.insertOrder siblingOrder
  s.releaseWithOperations "S2" [lateOperation] shaftClock.now

def crossedStore (orders : List (Row Order.Column Rat)) (ops : List (Operation Rat)) :
    Store Rat :=
  { (Store.empty : Store Rat) with orders := orders, operations := ops.map Operation.toRow }

/-- What the second release leaves. -/
def siblingReleased : Store Rat :=
  crossedStore [shaftOrder.toRow, Store.releasedRow shaftClock.now siblingOrder.toRow]
    [lateOperation]

/-- What the release of the first order leaves after it. -/
def bothReleased : Store Rat :=
  crossedStore [Store.releasedRow shaftClock.now shaftOrder.toRow,
    Store.releasedRow shaftClock.now siblingOrder.toRow] (lateOperation :: shaftOperations)

theorem crossedRelease_eq : crossedRelease = .ok siblingReleased := by
  have hfirst : Table.violation? [] shaftOrder.toRow = none := by decide +kernel
  have hsecond : Table.violation? [shaftOrder.toRow] siblingOrder.toRow = none := by
    decide +kernel
  have hlate : Table.violation? [] lateOperation.toRow = none := by decide +kernel
  refine bind_eq_ok_iff.mpr ⟨_, Store.insertOrder_eq_ok hfirst, ?_⟩
  refine bind_eq_ok_iff.mpr ⟨_, Store.insertOrder_eq_ok hsecond, ?_⟩
  refine bind_eq_ok_iff.mpr ⟨_, rfl, ?_⟩
  exact bind_eq_ok_iff.mpr ⟨_, Store.insertOperation_eq_ok hlate rfl, rfl⟩

theorem release_writes_both :
    siblingReleased.releaseWithOperations "S1" shaftOperations shaftClock.now =
      .ok bothReleased := by
  have hturn : Table.violation? [lateOperation.toRow] turned.toRow = none := by decide +kernel
  have hgrind : Table.violation? [lateOperation.toRow, turned.toRow] ground.toRow = none := by
    decide +kernel
  refine bind_eq_ok_iff.mpr ⟨_, rfl, ?_⟩
  refine bind_eq_ok_iff.mpr ⟨_, Store.insertOperation_eq_ok hturn rfl, ?_⟩
  exact bind_eq_ok_iff.mpr ⟨_, Store.insertOperation_eq_ok hgrind rfl, rfl⟩

/-- The sign of a zero is lost.  And all operations of an order are kept from being listed by
    one that cannot be read, which another order has brought with its own release. -/
theorem writes_readBack_not_exact :
    (Store.empty.insertOrder minusOrder = .ok minusStore ∧
      ¬ Store.OrderAdded Eq Store.empty minusStore minusOrder) ∧
    crossedRelease = .ok siblingReleased ∧
      siblingReleased.releaseWithOperations "S1" shaftOperations shaftClock.now =
        .ok bothReleased ∧
      ∀ listed, bothReleased.listOperations "S1" ≠ .ok listed := by
  refine ⟨⟨?_, fun added => ?_⟩, crossedRelease_eq, release_writes_both, fun listed h => ?_⟩
  · have fine : Table.violation? [] minusOrder.toRow = none := by decide +kernel
    exact Store.insertOrder_eq_ok fine
  · obtain ⟨a, found, rfl⟩ := added.found
    obtain ⟨r, rest, hrows, hread⟩ := Store.readFirst_eq_ok_iff.mp found
    obtain rfl : minusOrder.toRow = r := (List.cons.inj hrows).1
    have number : Quantity.isNaN (-Quantity.zero : Float) = false := by decide +kernel
    have quantity : minusOrder.toRow.quantity .quantityOrdered =
        .ok (-Quantity.zero + Quantity.zero) := Row.quantity_of_cell (Row.ofCells_cell _ _) number
    have zero : (-Quantity.zero + Quantity.zero : Float) = -Quantity.zero :=
      Except.ok.inj (quantity.symm.trans (Order.ofRow_eq_ok_iff.mp hread).quantityOrdered)
    exact absurd zero (by decide +kernel)
  · obtain ⟨op, hop⟩ := Store.exists_listOperations_iff.mp ⟨listed, h⟩ lateOperation.toRow
      List.mem_cons_self rfl
    have hread := (Operation.ofRow_eq_ok_iff.mp hop).actualStart
    have hnone : (lateOperation.toRow.instant .actualStart 18).toOption = none := by
      decide +kernel
    rw [hread] at hnone
    cases hnone

end Workshop
