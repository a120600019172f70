/-
  Workshop/Proofs/Store/Reading.lean
  ==================================
  **What is read from the store.**  A row is read as an operation or an order exactly when
  each of its columns is read as the field that stands for it (`Operation.ofRow_eq_ok_iff`,
  `Order.ofRow_eq_ok_iff`).  Operations come from rows of the order that was asked for, and
  a store that keeps its keys never gives an operation twice (`distinct_listActiveOrders`).
-/
import Workshop.Proofs.Store.Keys
import Workshop.Store.Orders
import Mathlib.Data.List.Nodup
import Mathlib.Data.List.Perm.Basic

namespace Workshop

/-! ### Single cells -/

namespace Field

variable {Q : Type} {column : String} {v : Cell Q}

theorem text_eq_ok_iff {s : String} : text column v = .ok s ↔ v = .text s := by
  cases v <;> simp [text]

theorem text?_eq_ok_iff {s : Option String} : text? column v = .ok s ↔ v = .ofText? s := by
  cases v <;> cases s <;> simp [text?, Cell.ofText?, eq_comm]

theorem date_eq_none {place : Nat} {s : Option String} (h : date place s = .ok none) :
    s = none := by
  cases s with
  | none => rfl
  | some s =>
    unfold date at h
    dsimp only at h
    split at h
    · cases h
    · cases h

theorem eq_integer_of_number {place : Nat} {n : Int} (h : number column place v = .ok n) :
    v = .integer n := by
  unfold number at h
  cases v with
  | integer m =>
    dsimp only [whole] at h
    split at h
    · cases h
      rfl
    · cases h
  | null => cases h
  | real x => cases h
  | text s => cases h

end Field

variable {Q : Type}

namespace Row

variable {C : Type} [DecidableEq C] [Table C] {r : Row C Q} {c : C}

theorem text_eq_ok_iff {s : String} : r.text c = .ok s ↔ r c = .text s := Field.text_eq_ok_iff

theorem text?_eq_ok_iff {s : Option String} : r.text? c = .ok s ↔ r c = .ofText? s :=
  Field.text?_eq_ok_iff

theorem eq_null_of_date {place : Nat} (h : r.date c place = .ok none) : r c = .null := by
  obtain ⟨s, hs, h⟩ := bind_eq_ok_iff.mp h
  rw [Field.date_eq_none h] at hs
  exact text?_eq_ok_iff.mp hs

end Row

/-! ### Rows of orders and operations -/

variable [Quantity Q]

/-- The row is read as an order. -/
structure Order.Reads (r : Row Order.Column Q) (o : Order Q) : Prop where
  orderId : r.text .orderId = .ok o.orderId
  orderNumber : r.text .orderNumber = .ok o.orderNumber
  partId : r.text .partId = .ok o.partId
  quantityOrdered : r.quantity .quantityOrdered = .ok o.quantityOrdered
  status : (r.text .status >>= Field.orderStatus 4) = .ok o.status
  priority : r.number .priority 5 = .ok o.priority
  dueDate : r.date .dueDate 6 = .ok o.dueDate
  releasedAt : r.instant .releasedAt 7 = .ok o.releasedAt
  completedAt : r.instant .completedAt 8 = .ok o.completedAt

theorem Order.ofRow_eq_ok_iff {r : Row Order.Column Q} {o : Order Q} :
    Order.ofRow r = .ok o ↔ Order.Reads r o := by
  constructor
  · intro h
    obtain ⟨orderId, h1, h⟩ := bind_eq_ok_iff.mp h
    obtain ⟨orderNumber, h2, h⟩ := bind_eq_ok_iff.mp h
    obtain ⟨partId, h3, h⟩ := bind_eq_ok_iff.mp h
    obtain ⟨quantityOrdered, h4, h⟩ := bind_eq_ok_iff.mp h
    obtain ⟨word, h5, h⟩ := bind_eq_ok_iff.mp h
    obtain ⟨status, h6, h⟩ := bind_eq_ok_iff.mp h
    obtain ⟨priority, h7, h⟩ := bind_eq_ok_iff.mp h
    obtain ⟨dueDate, h8, h⟩ := bind_eq_ok_iff.mp h
    obtain ⟨releasedAt, h9, h⟩ := bind_eq_ok_iff.mp h
    obtain ⟨completedAt, h10, h⟩ := bind_eq_ok_iff.mp h
    cases h
    exact ⟨h1, h2, h3, h4, bind_eq_ok_iff.mpr ⟨word, h5, h6⟩, h7, h8, h9, h10⟩
  · intro h
    obtain ⟨word, hword, hstatus⟩ := bind_eq_ok_iff.mp h.status
    simp only [Order.ofRow, bind_eq_ok_iff]
    exact ⟨_, h.orderId, _, h.orderNumber, _, h.partId, _, h.quantityOrdered, word, hword, _,
      hstatus, _, h.priority, _, h.dueDate, _, h.releasedAt, _, h.completedAt, rfl⟩

/-- The row is read as an operation. -/
structure Operation.Reads (r : Row Operation.Column Q) (op : Operation Q) : Prop where
  operationId : r.text .operationId = .ok op.operationId
  orderId : r.text .orderId = .ok op.orderId
  sequence : r.number .sequence 2 = .ok op.sequence
  componentPartId : r.text? .componentPartId = .ok op.componentPartId
  operationGroup : r.text? .operationGroup = .ok op.operationGroup
  workCenterId : r.text .workCenterId = .ok op.workCenterId
  name : r.text .name = .ok op.name
  description : r.text? .description = .ok op.description
  isInspection : r.flag .isInspection = .ok op.isInspection
  setupHours : r.quantity .setupHours = .ok op.setupHours
  runHours : r.quantity .runHours = .ok op.runHours
  actualSetupHours : r.quantity .actualSetupHours = .ok op.actualSetupHours
  actualRunHours : r.quantity .actualRunHours = .ok op.actualRunHours
  quantityComplete : r.quantity .quantityComplete = .ok op.quantityComplete
  quantityScrapped : r.quantity .quantityScrapped = .ok op.quantityScrapped
  status : (r.text .status >>= Field.operationStatus 15) = .ok op.status
  scheduledStart : r.date .scheduledStart 16 = .ok op.scheduledStart
  scheduledEnd : r.date .scheduledEnd 17 = .ok op.scheduledEnd
  actualStart : r.instant .actualStart 18 = .ok op.actualStart
  actualEnd : r.instant .actualEnd 19 = .ok op.actualEnd
  startedBy : r.text? .startedBy = .ok op.startedBy
  completedBy : r.text? .completedBy = .ok op.completedBy
  notes : r.text? .notes = .ok op.notes

theorem Operation.ofRow_eq_ok_iff {r : Row Operation.Column Q} {op : Operation Q} :
    Operation.ofRow r = .ok op ↔ Operation.Reads r op := by
  constructor
  · intro h
    obtain ⟨operationId, h1, h⟩ := bind_eq_ok_iff.mp h
    obtain ⟨orderId, h2, h⟩ := bind_eq_ok_iff.mp h
    obtain ⟨sequence, h3, h⟩ := bind_eq_ok_iff.mp h
    obtain ⟨componentPartId, h4, h⟩ := bind_eq_ok_iff.mp h
    obtain ⟨operationGroup, h5, h⟩ := bind_eq_ok_iff.mp h
    obtain ⟨workCenterId, h6, h⟩ := bind_eq_ok_iff.mp h
    obtain ⟨name, h7, h⟩ := bind_eq_ok_iff.mp h
    obtain ⟨description, h8, h⟩ := bind_eq_ok_iff.mp h
    obtain ⟨isInspection, h9, h⟩ := bind_eq_ok_iff.mp h
    obtain ⟨setupHours, h10, h⟩ := bind_eq_ok_iff.mp h
    obtain ⟨runHours, h11, h⟩ := bind_eq_ok_iff.mp h
    obtain ⟨actualSetupHours, h12, h⟩ := bind_eq_ok_iff.mp h
    obtain ⟨actualRunHours, h13, h⟩ := bind_eq_ok_iff.mp h
    obtain ⟨quantityComplete, h14, h⟩ := bind_eq_ok_iff.mp h
    obtain ⟨quantityScrapped, h15, h⟩ := bind_eq_ok_iff.mp h
    obtain ⟨word, h16, h⟩ := bind_eq_ok_iff.mp h
    obtain ⟨status, h17, h⟩ := bind_eq_ok_iff.mp h
    obtain ⟨scheduledStart, h18, h⟩ := bind_eq_ok_iff.mp h
    obtain ⟨scheduledEnd, h19, h⟩ := bind_eq_ok_iff.mp h
    obtain ⟨actualStart, h20, h⟩ := bind_eq_ok_iff.mp h
    obtain ⟨actualEnd, h21, h⟩ := bind_eq_ok_iff.mp h
    obtain ⟨startedBy, h22, h⟩ := bind_eq_ok_iff.mp h
    obtain ⟨completedBy, h23, h⟩ := bind_eq_ok_iff.mp h
    obtain ⟨notes, h24, h⟩ := bind_eq_ok_iff.mp h
    cases h
    exact ⟨h1, h2, h3, h4, h5, h6, h7, h8, h9, h10, h11, h12, h13, h14, h15,
      bind_eq_ok_iff.mpr ⟨word, h16, h17⟩, h18, h19, h20, h21, h22, h23, h24⟩
  · intro h
    obtain ⟨word, hword, hstatus⟩ := bind_eq_ok_iff.mp h.status
    simp only [Operation.ofRow, bind_eq_ok_iff]
    exact ⟨_, h.operationId, _, h.orderId, _, h.sequence, _, h.componentPartId, _,
      h.operationGroup, _, h.workCenterId, _, h.name, _, h.description, _, h.isInspection, _,
      h.setupHours, _, h.runHours, _, h.actualSetupHours, _, h.actualRunHours, _,
      h.quantityComplete, _, h.quantityScrapped, word, hword, _, hstatus, _, h.scheduledStart, _,
      h.scheduledEnd, _, h.actualStart, _, h.actualEnd, _, h.startedBy, _, h.completedBy, _,
      h.notes, rfl⟩

/-! ### The operations of orders -/

namespace Store

variable {s : Store Q}

omit [Quantity Q] in
theorem mem_rowsWith {C : Type} [DecidableEq C] {rows : List (Row C Q)} {c : C} {id : String}
    {r : Row C Q} : r ∈ rowsWith rows c id ↔ r ∈ rows ∧ r c = .text id := by
  rw [rowsWith, List.mem_filter, Cell.isText_iff]

theorem mem_sortedBy {C : Type} [DecidableEq C] {rows : List (Row C Q)} {c : C} {r : Row C Q} :
    r ∈ sortedBy c rows ↔ r ∈ rows := List.mem_mergeSort

omit [Quantity Q] in
theorem readFirst_eq_ok_iff {C α : Type} {ofRow : Row C Q → Except StoreFault α}
    {rows : List (Row C Q)} {a : α} : readFirst ofRow rows = .ok (some a) ↔
      ∃ r rest, rows = r :: rest ∧ ofRow r = .ok a := by
  constructor
  · intro h
    cases rows with
    | nil => cases h
    | cons r rest =>
      change (ofRow r).map some = _ at h
      cases hr : ofRow r with
      | error e =>
        rw [hr] at h
        cases h
      | ok b =>
        rw [hr] at h
        cases h
        exact ⟨r, rest, rfl, hr⟩
  · rintro ⟨r, rest, rfl, hr⟩
    exact congrArg (Except.map some) hr

/-- The order that is found is read from the first row with its identifier. -/
theorem getOrder_eq_ok_iff {orderId : String} {o : Order Q} : s.getOrder orderId = .ok o ↔
    ∃ r rest, rowsWith s.orders .orderId orderId = r :: rest ∧ Order.Reads r o := by
  simp only [← Order.ofRow_eq_ok_iff, ← readFirst_eq_ok_iff]
  constructor
  · intro h
    obtain ⟨found, hfound, h⟩ := bind_eq_ok_iff.mp h
    cases found with
    | none => cases h
    | some o =>
      cases h
      exact hfound
  · intro h
    exact bind_eq_ok_iff.mpr ⟨some o, h, rfl⟩

theorem exists_row_of_getOrder {orderId : String} {o : Order Q}
    (h : s.getOrder orderId = .ok o) :
    ∃ r ∈ s.orders, r .orderId = .text orderId ∧ Order.Reads r o := by
  obtain ⟨r, rest, hrows, hread⟩ := getOrder_eq_ok_iff.mp h
  obtain ⟨hr, hid⟩ := mem_rowsWith.mp (hrows ▸ List.mem_cons_self)
  exact ⟨r, hr, hid, hread⟩

theorem orderId_of_getOrder {orderId : String} {o : Order Q}
    (h : s.getOrder orderId = .ok o) : o.orderId = orderId := by
  obtain ⟨r, -, hid, hread⟩ := exists_row_of_getOrder h
  have hread := Row.text_eq_ok_iff.mp hread.orderId
  exact Cell.text.inj (hread.symm.trans hid)

theorem exists_row_of_mem {orderId : String} {ops : List (Operation Q)}
    (h : s.listOperations orderId = .ok ops) {op : Operation Q} (hop : op ∈ ops) :
    ∃ r ∈ s.operations, r .orderId = .text orderId ∧ Operation.Reads r op := by
  obtain ⟨r, hr, hread⟩ := forall₂_mem_right (mapM_eq_ok_iff.mp h) hop
  rw [mem_sortedBy, mem_rowsWith] at hr
  exact ⟨r, hr.1, hr.2, Operation.ofRow_eq_ok_iff.mp hread⟩

theorem pairwise_sortedBy {C : Type} [DecidableEq C] {rows : List (Row C Q)} {c d : C}
    (h : rows.Pairwise fun r t => ∀ id, ¬ (r d = .text id ∧ t d = .text id)) :
    (sortedBy c rows).Pairwise fun r t => ∀ id, ¬ (r d = .text id ∧ t d = .text id) := by
  refine ((List.mergeSort_perm rows _).pairwise_iff ?_).mpr h
  intro r t hrt id hid
  exact hrt id hid.symm

theorem distinct_listOperations (keyed : s.Keyed) {orderId : String} {ops : List (Operation Q)}
    (h : s.listOperations orderId = .ok ops) : (ops.map (·.operationId)).Nodup := by
  have hrows := keyed.operations.pairwise (c := .operationId) (by decide)
  have hsorted := pairwise_sortedBy (c := .sequence) (hrows.filter fun r =>
    (r .orderId).isText orderId)
  rw [List.Nodup, List.pairwise_map]
  refine pairwise_of_forall₂ (mapM_eq_ok_iff.mp h) ?_ hsorted
  intro r op t op' hr ht hne hid
  have hr := Row.text_eq_ok_iff.mp (Operation.ofRow_eq_ok_iff.mp hr).operationId
  have ht := Row.text_eq_ok_iff.mp (Operation.ofRow_eq_ok_iff.mp ht).operationId
  exact hne op.operationId ⟨hr, hid ▸ ht⟩

/-- The place of a row among the operations of its order. -/
def place (r : Row Operation.Column Q) : Int :=
  match r .sequence with
  | .integer n => n
  | _ => 0

theorem sequence_of_reads {r : Row Operation.Column Q} {op : Operation Q}
    (h : Operation.Reads r op) : r .sequence = .integer op.sequence :=
  Field.eq_integer_of_number h.sequence

theorem place_of_reads {r : Row Operation.Column Q} {op : Operation Q}
    (h : Operation.Reads r op) : place r = op.sequence := by
  unfold place
  rw [sequence_of_reads h]

/-- Operations are listed by their sequence numbers. -/
theorem sorted_listOperations {orderId : String} {ops : List (Operation Q)}
    (h : s.listOperations orderId = .ok ops) :
    ops.Pairwise fun a b => a.sequence ≤ b.sequence := by
  have hreads : List.Forall₂ (fun r op => Operation.Reads r op)
      (sortedBy .sequence (rowsWith s.operations .orderId orderId)) ops :=
    (mapM_eq_ok_iff.mp h).imp fun r op hread => Operation.ofRow_eq_ok_iff.mp hread
  have hle : ∀ a ∈ rowsWith s.operations .orderId orderId,
      ∀ b ∈ rowsWith s.operations .orderId orderId,
        Cell.le (a .sequence) (b .sequence) = decide (place a ≤ place b) := by
    intro a ha b hb
    obtain ⟨x, -, hx⟩ := forall₂_mem_left hreads (mem_sortedBy.mpr ha)
    obtain ⟨y, -, hy⟩ := forall₂_mem_left hreads (mem_sortedBy.mpr hb)
    rw [place_of_reads hx, place_of_reads hy, sequence_of_reads hx, sequence_of_reads hy]
    rfl
  -- the cells are compared like the numbers in them, and those are totally ordered
  have hplaces : (sortedBy .sequence (rowsWith s.operations .orderId orderId)).map place =
      ((rowsWith s.operations .orderId orderId).map place).mergeSort fun a b => decide (a ≤ b) :=
    List.map_mergeSort hle
  have hsorted : (((rowsWith s.operations .orderId orderId).map place).mergeSort
      fun a b => decide (a ≤ b)).Pairwise fun a b => decide (a ≤ b) = true :=
    List.pairwise_mergeSort (by simp; omega) (by simp; omega) _
  rw [← hplaces, List.pairwise_map] at hsorted
  refine pairwise_of_forall₂ hreads ?_ hsorted
  intro r op r' op' hr hr' hle
  rw [← place_of_reads hr, ← place_of_reads hr']
  exact of_decide_eq_true hle

/-- No operation is listed twice, whatever orders are asked for. -/
theorem distinct_listActiveOrders (keyed : s.Keyed) {filter : Option String}
    {active : List (Order Q × List (Operation Q))} (h : s.listActiveOrders filter = .ok active) :
    ((active.flatMap (·.2)).map (·.operationId)).Nodup := by
  obtain ⟨orders, horders, h⟩ := bind_eq_ok_iff.mp h
  have hactive : List.Forall₂
      (fun (o : Order Q) p => p.1 = o ∧ s.listOperations o.orderId = .ok p.2) orders active := by
    refine (mapM_eq_ok_iff.mp h).imp ?_
    intro o p hp
    obtain ⟨ops, hops, hp⟩ := bind_eq_ok_iff.mp hp
    cases hp
    exact ⟨rfl, hops⟩
  have hdistinct : active.Pairwise fun p q => p.1.orderId ≠ q.1.orderId := by
    have hrows := keyed.orders.pairwise (c := .orderId) (by decide)
    have hsorted := pairwise_sortedBy (c := .orderId) (hrows.filter fun r =>
      isActiveOrder r && (filter.map fun id => (r .orderId).isText id).getD true)
    have hread : orders.Pairwise fun o o' => o.orderId ≠ o'.orderId := by
      refine pairwise_of_forall₂ (mapM_eq_ok_iff.mp horders) ?_ hsorted
      intro r o t o' hr ht hne hid
      have hr := Row.text_eq_ok_iff.mp (Order.ofRow_eq_ok_iff.mp hr).orderId
      have ht := Row.text_eq_ok_iff.mp (Order.ofRow_eq_ok_iff.mp ht).orderId
      exact hne o.orderId ⟨hr, hid ▸ ht⟩
    refine pairwise_of_forall₂ hactive ?_ hread
    rintro o p o' p' ⟨rfl, -⟩ ⟨rfl, -⟩ hne
    exact hne
  rw [List.map_flatMap, List.nodup_flatMap]
  constructor
  · intro p hp
    obtain ⟨o, -, -, hops⟩ := forall₂_mem_right hactive hp
    exact distinct_listOperations keyed hops
  · refine hdistinct.imp_of_mem ?_
    intro p q hp hq hne id hidp hidq
    obtain ⟨o, -, rfl, hops⟩ := forall₂_mem_right hactive hp
    obtain ⟨o', -, rfl, hops'⟩ := forall₂_mem_right hactive hq
    obtain ⟨op, hop, rfl⟩ := List.mem_map.mp hidp
    obtain ⟨op', hop', hid⟩ := List.mem_map.mp hidq
    obtain ⟨r, hr, hrow, hread⟩ := exists_row_of_mem hops hop
    obtain ⟨r', hr', hrow', hread'⟩ := exists_row_of_mem hops' hop'
    -- one row has the identifier, and it belongs to one order
    have heq : r = r' := keyed.operations.eq_of_isText (c := .operationId) (by decide) hr hr'
      (Row.text_eq_ok_iff.mp hread.operationId)
      (hid ▸ Row.text_eq_ok_iff.mp hread'.operationId)
    rw [heq, hrow'] at hrow
    exact hne (Cell.text.inj hrow).symm

end Store

end Workshop
