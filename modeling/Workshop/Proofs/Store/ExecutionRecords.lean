/-
  Workshop/Proofs/Store/ExecutionRecords.lean
  ===========================================
  **Execution records in the store.**  An execution record is kept in ten columns of the row
  of its operation (`Store.executionColumns`), and the state of an order in two.  What is
  read from a row after the write is what was written, but for the sign of a zero
  (`Operation.Reads.record`, `Order.Reads.progress`); the other columns stay.

  A write that is not refused changes the rows of the operations it names and of their
  order, and no other (`Store.applyTransition_eq`).
-/
import Workshop.Proofs.Calendar.WrittenInstant
import Workshop.Proofs.Quantity.Zero
import Workshop.Proofs.Store.Reading

namespace Workshop

/-! ### Words and instants -/

theorem OrderStatus.read?_word (s : OrderStatus) : OrderStatus.read? s.word = some s := by
  cases s <;> decide +kernel

theorem OperationStatus.read?_word (s : OperationStatus) :
    OperationStatus.read? s.word = some s := by
  cases s <;> decide +kernel

theorem OperationStatus.word_injective : Function.Injective OperationStatus.word := by
  intro a b h
  have hread := a.ofWord?_word
  rw [h, b.ofWord?_word] at hread
  exact (Option.some.inj hread).symm

namespace Field

theorem orderStatus_word (place : Nat) (s : OrderStatus) : orderStatus place s.word = .ok s := by
  unfold orderStatus
  rw [s.read?_word]

theorem operationStatus_word (place : Nat) (s : OperationStatus) :
    operationStatus place s.word = .ok s := by
  unfold operationStatus
  rw [s.read?_word]

theorem instant_ofInstant? (place : Nat) {t : Option Instant}
    (h : ∀ u, t = some u → u.FourDigitYear) : instant place (ofInstant? t) = .ok t := by
  cases t with
  | none => rfl
  | some u =>
    unfold instant ofInstant?
    rw [Option.map_some]
    dsimp only
    rw [Instant.read_write (h u rfl)]

end Field

variable {Q : Type}

/-! ### A reader sees nothing but its cell -/

namespace Row

variable {C : Type} [DecidableEq C] [Table C] {r t : Row C Q} {c : C}

theorem text_congr (h : t c = r c) : t.text c = r.text c := congrArg (Field.text _) h

theorem text?_congr (h : t c = r c) : t.text? c = r.text? c := congrArg (Field.text? _) h

theorem quantity_congr [Quantity Q] (h : t c = r c) : t.quantity c = r.quantity c :=
  congrArg (Field.quantity _) h

theorem number_congr (h : t c = r c) {place : Nat} : t.number c place = r.number c place :=
  congrArg (Field.number _ place) h

theorem flag_congr (h : t c = r c) : t.flag c = r.flag c := congrArg (Field.flag _) h

theorem date_congr (h : t c = r c) {place : Nat} : t.date c place = r.date c place :=
  congrArg (· >>= Field.date place) (text?_congr h)

theorem instant_congr (h : t c = r c) {place : Nat} : t.instant c place = r.instant c place :=
  congrArg (· >>= Field.instant place) (text?_congr h)

end Row

/-! ### Operations apart from the signs of zeros -/

namespace Operation

/-- The times of the execution record fall into years with four digits. -/
structure Dated (op : Operation Q) : Prop where
  actualStart : ∀ t, op.actualStart = some t → t.FourDigitYear
  actualEnd : ∀ t, op.actualEnd = some t → t.FourDigitYear

variable [Quantity Q]

/-- The quantities of the execution record are numbers. -/
structure Measured (op : Operation Q) : Prop where
  actualSetupHours : Quantity.isNaN op.actualSetupHours = false
  actualRunHours : Quantity.isNaN op.actualRunHours = false
  quantityComplete : Quantity.isNaN op.quantityComplete = false
  quantityScrapped : Quantity.isNaN op.quantityScrapped = false

/-- The same operation, apart from the signs of zeros in the execution record. -/
structure Alike (a b : Operation Q) : Prop where
  job : a.job = b.job
  status : a.status = b.status
  actualSetupHours : Quantity.Alike a.actualSetupHours b.actualSetupHours
  actualRunHours : Quantity.Alike a.actualRunHours b.actualRunHours
  quantityComplete : Quantity.Alike a.quantityComplete b.quantityComplete
  quantityScrapped : Quantity.Alike a.quantityScrapped b.quantityScrapped
  actualStart : a.actualStart = b.actualStart
  actualEnd : a.actualEnd = b.actualEnd
  startedBy : a.startedBy = b.startedBy
  completedBy : a.completedBy = b.completedBy
  notes : a.notes = b.notes

theorem Alike.refl (op : Operation Q) : Alike op op :=
  ⟨rfl, rfl, .refl _, .refl _, .refl _, .refl _, rfl, rfl, rfl, rfl, rfl⟩

/-- The operation that is read where the execution record of `b` was written to the row
    of `a`. -/
def recorded (a b : Operation Q) : Operation Q :=
  { a with
    status := b.status
    actualSetupHours := b.actualSetupHours + Quantity.zero
    actualRunHours := b.actualRunHours + Quantity.zero
    quantityComplete := b.quantityComplete + Quantity.zero
    quantityScrapped := b.quantityScrapped + Quantity.zero
    actualStart := b.actualStart
    actualEnd := b.actualEnd
    startedBy := b.startedBy
    completedBy := b.completedBy
    notes := b.notes }

theorem alike_recorded [Quantity.LawfulZero Q] {a b : Operation Q} (job : b.job = a.job) :
    Alike (recorded a b) b where
  job := job.symm
  status := rfl
  actualSetupHours := Quantity.LawfulZero.add_zero_alike _
  actualRunHours := Quantity.LawfulZero.add_zero_alike _
  quantityComplete := Quantity.LawfulZero.add_zero_alike _
  quantityScrapped := Quantity.LawfulZero.add_zero_alike _
  actualStart := rfl
  actualEnd := rfl
  startedBy := rfl
  completedBy := rfl
  notes := rfl

end Operation

/-! ### Rows that are written and read -/

variable [Quantity Q]

theorem Cell.ofQuantity_of_not_isNaN {x : Q} (h : Quantity.isNaN x = false) :
    Cell.ofQuantity x = .real (x + Quantity.zero) := by
  unfold ofQuantity
  rw [h]
  rfl

namespace Row

variable {C : Type} [DecidableEq C] [Table C] {r : Row C Q} {c : C}

theorem quantity_of_cell {x : Q} (h : r c = .ofQuantity x) (number : Quantity.isNaN x = false) :
    r.quantity c = .ok (x + Quantity.zero) := by
  unfold Row.quantity
  rw [h, Cell.ofQuantity_of_not_isNaN number]
  rfl

omit [Quantity Q] in
theorem instant_of_cell {t : Option Instant} {place : Nat}
    (h : r c = .ofText? (Field.ofInstant? t)) (year : ∀ u, t = some u → u.FourDigitYear) :
    r.instant c place = .ok t :=
  bind_eq_ok_iff.mpr ⟨_, text?_eq_ok_iff.mpr h, Field.instant_ofInstant? place year⟩

end Row

namespace Store

theorem recordExecution_cell (op : Operation Q) (r : Row Operation.Column Q)
    (c : Operation.Column) :
    (recordExecution op r).cell c = if c ∈ executionColumns then op.toRow.cell c else r.cell c := by
  rw [recordExecution, Row.ofCells_cell]

theorem recordExecution_same (op : Operation Q) (r : Row Operation.Column Q)
    {c : Operation.Column} (h : c ∉ executionColumns) :
    (recordExecution op r).cell c = r.cell c := by
  rw [recordExecution_cell, if_neg h]

end Store

open Store in
/-- What is read after an execution record has been written. -/
theorem Operation.Reads.record {r : Row Operation.Column Q} {a b : Operation Q}
    (h : Operation.Reads r a) (dated : b.Dated) (measured : b.Measured) :
    Operation.Reads (recordExecution b r) (Operation.recorded a b) := by
  have same : ∀ {c}, c ∉ executionColumns → recordExecution b r c = r c :=
    fun hc => recordExecution_same b r hc
  have written : ∀ {c}, c ∈ executionColumns → recordExecution b r c = b.toRow c := by
    intro c hc
    rw [recordExecution_cell, if_pos hc]
  have quantity : ∀ {c x}, c ∈ executionColumns → b.toRow c = .ofQuantity x →
      Quantity.isNaN x = false → (recordExecution b r).quantity c = .ok (x + Quantity.zero) :=
    fun hc hx => Row.quantity_of_cell ((written hc).trans hx)
  have instant : ∀ {c} {t : Option Instant} (place : Nat), c ∈ executionColumns →
      b.toRow c = .ofText? (Field.ofInstant? t) → (∀ u, t = some u → u.FourDigitYear) →
      (recordExecution b r).instant c place = .ok t :=
    fun _ hc ht => Row.instant_of_cell ((written hc).trans ht)
  have text : ∀ {c} {s : Option String}, c ∈ executionColumns → b.toRow c = .ofText? s →
      (recordExecution b r).text? c = .ok s :=
    fun hc hs => Row.text?_eq_ok_iff.mpr ((written hc).trans hs)
  exact
    { operationId := (Row.text_congr (same (by decide))).trans h.operationId
      orderId := (Row.text_congr (same (by decide))).trans h.orderId
      sequence := (Row.number_congr (same (by decide))).trans h.sequence
      componentPartId := (Row.text?_congr (same (by decide))).trans h.componentPartId
      operationGroup := (Row.text?_congr (same (by decide))).trans h.operationGroup
      workCenterId := (Row.text_congr (same (by decide))).trans h.workCenterId
      name := (Row.text_congr (same (by decide))).trans h.name
      description := (Row.text?_congr (same (by decide))).trans h.description
      isInspection := (Row.flag_congr (same (by decide))).trans h.isInspection
      setupHours := (Row.quantity_congr (same (by decide))).trans h.setupHours
      runHours := (Row.quantity_congr (same (by decide))).trans h.runHours
      actualSetupHours := quantity (by decide) (Row.ofCells_cell _ _) measured.actualSetupHours
      actualRunHours := quantity (by decide) (Row.ofCells_cell _ _) measured.actualRunHours
      quantityComplete := quantity (by decide) (Row.ofCells_cell _ _) measured.quantityComplete
      quantityScrapped := quantity (by decide) (Row.ofCells_cell _ _) measured.quantityScrapped
      status := bind_eq_ok_iff.mpr ⟨_,
        Row.text_eq_ok_iff.mpr ((written (by decide)).trans (Row.ofCells_cell _ _)),
        Field.operationStatus_word 15 b.status⟩
      scheduledStart := (Row.date_congr (same (by decide))).trans h.scheduledStart
      scheduledEnd := (Row.date_congr (same (by decide))).trans h.scheduledEnd
      actualStart := instant 18 (by decide) (Row.ofCells_cell _ _) dated.actualStart
      actualEnd := instant 19 (by decide) (Row.ofCells_cell _ _) dated.actualEnd
      startedBy := text (by decide) (Row.ofCells_cell _ _)
      completedBy := text (by decide) (Row.ofCells_cell _ _)
      notes := text (by decide) (Row.ofCells_cell _ _) }

/-- The row of an operation that is not complete does not say that it is. -/
theorem Operation.Reads.status_ne_complete {r : Row Operation.Column Q} {op : Operation Q}
    (h : Operation.Reads r op) (hop : op.status ≠ .complete) :
    r .status ≠ .text OperationStatus.complete.word := by
  intro hcomplete
  have hstatus := h.status
  rw [Row.text_eq_ok_iff.mpr hcomplete] at hstatus
  exact hop (Except.ok.inj (hstatus.symm.trans (Field.operationStatus_word 15 .complete)))

namespace Store

/-- The row with the state of an order. -/
def progressRow (o : Order Q) (r : Row Order.Column Q) : Row Order.Column Q :=
  (r.set .status (.text o.status.word)).set .completedAt
    (.ofText? (Field.ofInstant? o.completedAt))

omit [Quantity Q] in
theorem progressRow_cell (o : Order Q) (r : Row Order.Column Q) (c : Order.Column) :
    (progressRow o r).cell c =
      if c = .completedAt then .ofText? (Field.ofInstant? o.completedAt)
      else if c = .status then .text o.status.word else r.cell c := by
  rw [progressRow, Row.set_cell, Row.set_cell]

end Store

/-- A row in which only the status and the times of an order are others is read with these. -/
theorem Order.Reads.updated {r t : Row Order.Column Q} {o : Order Q} (h : Order.Reads r o)
    (same : ∀ c, c ∉ [Order.Column.status, .releasedAt, .completedAt] → t c = r c)
    {status : OrderStatus} {releasedAt completedAt : Option Instant}
    (hstatus : (t.text .status >>= Field.orderStatus 4) = .ok status)
    (hreleased : t.instant .releasedAt 7 = .ok releasedAt)
    (hcompleted : t.instant .completedAt 8 = .ok completedAt) :
    Order.Reads t
      { o with status := status, releasedAt := releasedAt, completedAt := completedAt } where
  orderId := (Row.text_congr (same _ (by decide))).trans h.orderId
  orderNumber := (Row.text_congr (same _ (by decide))).trans h.orderNumber
  partId := (Row.text_congr (same _ (by decide))).trans h.partId
  quantityOrdered := (Row.quantity_congr (same _ (by decide))).trans h.quantityOrdered
  status := hstatus
  priority := (Row.number_congr (same _ (by decide))).trans h.priority
  dueDate := (Row.date_congr (same _ (by decide))).trans h.dueDate
  releasedAt := hreleased
  completedAt := hcompleted

open Store in
/-- What is read after the state of an order has been written. -/
theorem Order.Reads.progress {r : Row Order.Column Q} {a : Order Q} (h : Order.Reads r a)
    (status : OrderStatus) {completedAt : Option Instant}
    (dated : ∀ t, completedAt = some t → t.FourDigitYear) :
    Order.Reads (progressRow { a with status := status, completedAt := completedAt } r)
      { a with status := status, completedAt := completedAt } := by
  refine h.updated (fun c hc => ?_) ?_ ?_ (Row.instant_of_cell (progressRow_cell _ _ _) dated)
  · rw [progressRow_cell, if_neg (by rintro rfl; exact hc (by decide)),
      if_neg (by rintro rfl; exact hc (by decide))]
  · exact bind_eq_ok_iff.mpr ⟨_, Row.text_eq_ok_iff.mpr (progressRow_cell _ _ _),
      Field.orderStatus_word 4 status⟩
  · exact (Row.instant_congr (progressRow_cell _ _ _)).trans h.releasedAt

/-! ### What a write changes -/

theorem Table.missing?_of_updateWhere {C : Type} [DecidableEq C] [Table C]
    {picks : Row C Q → Bool} {change : Row C Q → Row C Q} {rows rows' : List (Row C Q)}
    (h : updateWhere picks change rows = .ok rows') {r : Row C Q} (hr : r ∈ rows)
    (hp : picks r = true) : missing? (change r) = none := by
  have hnone := (updateWhere_eq_ok_iff.mp h).1
  clear h
  generalize ([] : List (Row C Q)) = before at hnone
  induction rows generalizing before with
  | nil => cases hr
  | cons t rows ih =>
    rw [updateViolation?] at hnone
    split at hnone
    · split at hnone
      · cases hnone
      · rename_i hfine
        rcases List.mem_cons.mp hr with rfl | hr
        · exact missing?_of_violation? hfine
        · exact ih hr _ hnone
    · rcases List.mem_cons.mp hr with rfl | hr
      · contradiction
      · exact ih hr _ hnone

omit [Quantity Q] in
theorem Table.not_isNull_of_missing? {C : Type} [DecidableEq C] [Table C] {r : Row C Q}
    (h : missing? r = none) {c : C} (hc : (spec c).required = true) : (r c).isNull = false := by
  unfold missing? at h
  have := List.find?_eq_none.mp h c (Table.mem_columns c)
  simpa [hc] using this

theorem Cell.not_isNaN_of_not_isNull {x : Q} (h : (Cell.ofQuantity x).isNull = false) :
    Quantity.isNaN x = false := by
  unfold ofQuantity at h
  split at h
  · cases h
  · rename_i hx
    exact Bool.eq_false_iff.mpr hx

namespace Store

/-- A row after the execution records of operations have been written. -/
def recordAll (ops : List (Operation Q)) (r : Row Operation.Column Q) : Row Operation.Column Q :=
  ops.foldl (fun r op => if Table.hasKey op.operationId r then recordExecution op r else r) r

theorem writeExecution_eq {s t : Store Q} {op : Operation Q} (h : s.writeExecution op = .ok t) :
    t = { s with operations := s.operations.map (recordAll [op]) } ∧ op.Measured := by
  obtain ⟨rows, hrows, h⟩ := bind_eq_ok_iff.mp h
  have hupdate := orFault_eq_ok_iff.mp hrows
  split at h
  case isFalse => cases h
  case isTrue hany =>
    cases h
    constructor
    · rw [Table.updateWhere_eq_map hupdate]
      rfl
    · obtain ⟨r, hr, hpick⟩ := List.any_eq_true.mp hany
      have hmissing := Table.missing?_of_updateWhere hupdate hr hpick
      have hnumber : ∀ {c x}, (Table.spec c).required = true → c ∈ executionColumns →
          op.toRow c = .ofQuantity x → Quantity.isNaN x = false := by
        intro c x hc hrec hx
        have hnull := Table.not_isNull_of_missing? hmissing hc
        rw [recordExecution_cell, if_pos hrec, hx] at hnull
        exact Cell.not_isNaN_of_not_isNull hnull
      exact
        { actualSetupHours :=
            hnumber (c := .actualSetupHours) rfl (by decide) (Row.ofCells_cell _ _)
          actualRunHours :=
            hnumber (c := .actualRunHours) rfl (by decide) (Row.ofCells_cell _ _)
          quantityComplete :=
            hnumber (c := .quantityComplete) rfl (by decide) (Row.ofCells_cell _ _)
          quantityScrapped :=
            hnumber (c := .quantityScrapped) rfl (by decide) (Row.ofCells_cell _ _) }

theorem writeExecutions_eq {s t : Store Q} {ops : List (Operation Q)}
    (h : s.writeExecutions ops = .ok t) :
    t = { s with operations := s.operations.map (recordAll ops) } ∧ ∀ op ∈ ops, op.Measured := by
  induction ops generalizing s with
  | nil =>
    cases h
    have hnothing : recordAll ([] : List (Operation Q)) = id := rfl
    rw [hnothing, List.map_id]
    exact ⟨rfl, List.forall_mem_nil _⟩
  | cons op ops ih =>
    obtain ⟨u, hfirst, hrest⟩ := bind_eq_ok_iff.mp h
    obtain ⟨hu, hmeasured⟩ := writeExecution_eq hfirst
    obtain ⟨ht, hall⟩ := ih hrest
    constructor
    · rw [ht, hu, List.map_map]
      rfl
    · exact List.forall_mem_cons.mpr ⟨hmeasured, hall⟩

/-- What the write of an action does when it is not refused. -/
theorem applyTransition_eq {s t : Store Q} {o : Order Q} {changed : List (Operation Q)}
    (h : s.applyTransition o changed = .ok t) :
    t = { s with
      orders := s.orders.map fun r => if Table.hasKey o.orderId r then progressRow o r else r
      operations := s.operations.map (recordAll changed) } ∧ ∀ op ∈ changed, op.Measured := by
  obtain ⟨u, hrecords, h⟩ := bind_eq_ok_iff.mp h
  obtain ⟨hu, hmeasured⟩ := writeExecutions_eq hrecords
  obtain ⟨rows, hrows, h⟩ := bind_eq_ok_iff.mp h
  have hmap := Table.updateWhere_eq_map (orFault_eq_ok_iff.mp hrows)
  cases h
  rw [hmap, hu]
  exact ⟨rfl, hmeasured⟩

/-- The write of an action that changes one operation, whose rows it finds in order. -/
theorem applyTransition_singleton {s : Store Q} {o : Order Q} {op : Operation Q}
    (operation : Table.updateViolation? (Table.hasKey op.operationId) (recordExecution op) []
      s.operations = none)
    (order : Table.updateViolation? (Table.hasKey o.orderId) (progressRow o) [] s.orders = none)
    (found : s.operations.any (Table.hasKey op.operationId) = true) :
    s.applyTransition o [op] = .ok { s with
      orders := s.orders.map fun r => if Table.hasKey o.orderId r then progressRow o r else r
      operations := s.operations.map fun r =>
        if Table.hasKey op.operationId r then recordExecution op r else r } := by
  have hrecord := orFault_eq_ok_iff.mpr (Table.updateWhere_eq_ok_iff.mpr ⟨operation, rfl⟩)
  have hprogress := orFault_eq_ok_iff.mpr (Table.updateWhere_eq_ok_iff.mpr ⟨order, rfl⟩)
  have hwritten : s.writeExecution op = .ok { s with
      operations := s.operations.map fun r =>
        if Table.hasKey op.operationId r then recordExecution op r else r } :=
    bind_eq_ok_iff.mpr ⟨_, hrecord, if_pos found⟩
  exact bind_eq_ok_iff.mpr
    ⟨_, bind_eq_ok_iff.mpr ⟨_, hwritten, rfl⟩, bind_eq_ok_iff.mpr ⟨_, hprogress, rfl⟩⟩

/-- Writing execution records leaves all other columns alone. -/
theorem recordAll_same (ops : List (Operation Q)) (r : Row Operation.Column Q)
    {c : Operation.Column} (hc : c ∉ executionColumns) : recordAll ops r c = r c := by
  induction ops generalizing r with
  | nil => rfl
  | cons op ops ih =>
    refine (ih _).trans ?_
    dsimp only
    split
    · exact recordExecution_same op r hc
    · rfl

omit [Quantity Q] in
theorem hasKey_operation_iff {id : String} {r : Row Operation.Column Q} :
    Table.hasKey id r = true ↔ r .operationId = .text id := Cell.isText_iff

theorem recordAll_of_ne {ops : List (Operation Q)} {r : Row Operation.Column Q}
    (h : ∀ op ∈ ops, r .operationId ≠ .text op.operationId) : recordAll ops r = r := by
  induction ops with
  | nil => rfl
  | cons op ops ih =>
    obtain ⟨hop, hops⟩ := List.forall_mem_cons.mp h
    rw [recordAll, List.foldl_cons, if_neg (mt hasKey_operation_iff.mp hop)]
    exact ih hops

/-- A row gets the record of its operation, if that is written. -/
theorem recordAll_of_mem {ops : List (Operation Q)} (distinct : (ops.map (·.operationId)).Nodup)
    {op : Operation Q} (hop : op ∈ ops) {r : Row Operation.Column Q}
    (hid : r .operationId = .text op.operationId) : recordAll ops r = recordExecution op r := by
  induction ops with
  | nil => cases hop
  | cons a ops ih =>
    rw [List.map_cons, List.nodup_cons] at distinct
    obtain ⟨hfresh, distinct⟩ := distinct
    rw [recordAll, List.foldl_cons]
    rcases List.mem_cons.mp hop with rfl | hop
    · rw [if_pos (hasKey_operation_iff.mpr hid)]
      refine recordAll_of_ne fun b hb heq => hfresh ?_
      rw [recordExecution_same op r (by decide), hid] at heq
      rw [Cell.text.inj heq]
      exact List.mem_map_of_mem hb
    · have hother : ¬ Table.hasKey a.operationId r = true := by
        intro heq
        rw [hasKey_operation_iff, hid] at heq
        exact hfresh (Cell.text.inj heq ▸ List.mem_map_of_mem hop)
      rw [if_neg hother]
      exact ih distinct hop

/-! ### Lists of rows that are read again -/

omit [Quantity Q] in
/-- A change of rows that leaves a column alone finds the same rows by that column. -/
theorem rowsWith_map {C : Type} [DecidableEq C] {c : C} {change : Row C Q → Row C Q}
    (same : ∀ r, change r c = r c) (rows : List (Row C Q)) (id : String) :
    rowsWith (rows.map change) c id = (rowsWith rows c id).map change := by
  unfold rowsWith
  rw [List.filter_map]
  refine congrArg (List.map change) (List.filter_congr fun r _ => ?_)
  rw [Function.comp_apply, same]

/-- A change of rows that leaves their order and their places in it alone is seen row by
    row. -/
theorem listOperations_of_map {s t : Store Q}
    {change : Row Operation.Column Q → Row Operation.Column Q}
    (h : t.operations = s.operations.map change)
    (sameOrder : ∀ r, change r .orderId = r .orderId)
    (samePlace : ∀ r, change r .sequence = r .sequence) (orderId : String) :
    t.listOperations orderId =
      ((sortedBy .sequence (rowsWith s.operations .orderId orderId)).map change).mapM
        Operation.ofRow := by
  have hsorted : sortedBy .sequence ((rowsWith s.operations .orderId orderId).map change) =
      (sortedBy .sequence (rowsWith s.operations .orderId orderId)).map change := by
    unfold sortedBy
    refine (List.map_mergeSort fun a _ b _ => ?_).symm
    rw [samePlace, samePlace]
  unfold listOperations
  rw [h, rowsWith_map sameOrder, hsorted]

end Store

end Workshop
