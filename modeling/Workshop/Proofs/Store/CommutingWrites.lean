/-
  Workshop/Proofs/Store/CommutingWrites.lean
  ==========================================
  **Writes of actions and writes of dates commute.**  Whatever records an action writes and
  whatever placements are written, they can change places: both orders end in the same
  store, with the same answers (`Store.carryOut_swap`).  So writes of both kinds end as if
  those of the actions had come first, in whatever order they came, and what one kind has
  written the other leaves alone (`Store.carryOut_merges`).

  The two kinds write different columns.  The rows to be written are found by identifiers,
  which none of them writes.  A write of dates asks for the start date of a row, which no
  record has; a record is refused for an empty column or for a key, and the dates are no
  part of a key and may be empty.
-/
import Workshop.Proofs.Store.ExecutionRecords
import Workshop.Proofs.Store.GuardedDates
import Mathlib.Data.List.Find

namespace Workshop

variable {Q : Type} [Quantity Q]

/-! ### Updates and changes that they do not see -/

namespace Table

variable {C : Type} [DecidableEq C] [Table C]

/-- A change of rows that an update does not see: it leaves alone what the update goes by,
    and the two can be made in either order. -/
structure Unseen (picks : Row C Q → Bool) (change f : Row C Q → Row C Q) : Prop where
  picks : ∀ r, picks (f r) = picks r
  change : ∀ r, change (f r) = f (change r)
  required : ∀ r, ∀ c, (spec c).required = true → f r c = r c
  keys : ∀ r, ∀ key ∈ (uniqueKeys : List (List C)), ∀ c ∈ key, f r c = r c

variable {picks : Row C Q → Bool} {change f : Row C Q → Row C Q}

omit [Quantity Q] in
theorem missing?_congr {r t : Row C Q} (h : ∀ c, (spec c).required = true → t c = r c) :
    missing? t = missing? r := by
  refine List.find?_congr fun c _ => ?_
  cases hc : (spec c).required with
  | false => rfl
  | true => rw [h c hc]

theorem Unseen.violation? (unseen : Unseen picks change f) (others : List (Row C Q))
    (r : Row C Q) : violation? (others.map f) (f r) = violation? others r := by
  have hagree : ∀ key ∈ (uniqueKeys : List (List C)),
      (others.map f).any (agreeOn key (f r)) = others.any (agreeOn key r) := by
    intro key hkey
    rw [List.any_map]
    refine congrArg others.any (funext fun t => ?_)
    exact agreeOn_congr (unseen.keys r key hkey) (unseen.keys t key hkey)
  unfold Table.violation?
  rw [missing?_congr (unseen.required r), List.find?_congr hagree]

theorem Unseen.updateViolation? (unseen : Unseen picks change f)
    (before after : List (Row C Q)) :
    updateViolation? picks change (before.map f) (after.map f) =
      updateViolation? picks change before after := by
  induction after generalizing before with
  | nil => rfl
  | cons r after ih =>
    have hchanged := unseen.violation? (before ++ after) (change r)
    have hwith := ih (before ++ [change r])
    have hwithout := ih (before ++ [r])
    rw [List.map_append, List.map_singleton] at hwith hwithout
    rw [List.map_append, ← unseen.change] at hchanged
    rw [← unseen.change] at hwith
    rw [List.map_cons, Table.updateViolation?, Table.updateViolation?, unseen.picks, hchanged,
      hwith, hwithout]

/-- The update of the changed rows is the change of the updated rows. -/
theorem Unseen.updateWhere (unseen : Unseen picks change f) (rows : List (Row C Q)) :
    updateWhere picks change (rows.map f) = (updateWhere picks change rows).map (List.map f) := by
  have hviolation := unseen.updateViolation? [] rows
  rw [List.map_nil] at hviolation
  unfold Table.updateWhere
  rw [hviolation]
  cases Table.updateViolation? picks change [] rows with
  | some v => rfl
  | none =>
    refine congrArg Except.ok ?_
    rw [List.map_map, List.map_map]
    refine List.map_congr_left fun r _ => ?_
    simp only [Function.comp_apply, unseen.picks, unseen.change]
    split <;> rfl

end Table

/-! ### Rows with dates and rows with records -/

namespace Store

/-- The columns that a write of dates writes. -/
def dateColumns : List Operation.Column := [.scheduledStart, .scheduledEnd]

/-- A change of the rows of operations that writes dates only, before a record or after it. -/
structure Dates (f : Row Operation.Column Q → Row Operation.Column Q) : Prop where
  same : ∀ r, ∀ c ∉ dateColumns, f r c = r c
  record : ∀ op r, recordExecution op (f r) = f (recordExecution op r)

variable {s t : Store Q} {f : Row Operation.Column Q → Row Operation.Column Q}

theorem Dates.refl : Dates (fun r : Row Operation.Column Q => r) :=
  ⟨fun _ _ _ => rfl, fun _ _ => rfl⟩

theorem isOpen_recordExecution (s : Store Q) (id : String) (op : Operation Q)
    (r : Row Operation.Column Q) : s.isOpen id (recordExecution op r) = s.isOpen id r := by
  unfold isOpen
  rw [recordExecution_same op r (by decide), recordExecution_same op r (by decide)]

/-- The dates and the record of a row are written into different columns. -/
theorem withDates_recordExecution (start stop : Date) (op : Operation Q)
    (r : Row Operation.Column Q) :
    withDates start stop (recordExecution op r) = recordExecution op (withDates start stop r) := by
  refine congrArg Row.ofCells (funext fun c => ?_)
  rw [Row.set_cell, recordExecution_cell, withDates_cell]
  cases c <;> rfl

theorem dates_dateRow (s : Store Q) (p : Placement Q) : Dates (s.dateRow p) where
  same r c hc := by
    simp only [dateColumns, List.mem_cons, List.not_mem_nil, or_false, not_or] at hc
    exact (laterRow_dateRow s p r).same c hc.1 hc.2
  record op r := by
    unfold dateRow
    rw [isOpen_recordExecution]
    split
    · exact (withDates_recordExecution p.start p.stop op r).symm
    · rfl

theorem dates_placeRow (s : Store Q) (ps : List (Placement Q)) : Dates (s.placeRow ps) := by
  induction ps with
  | nil => exact .refl
  | cons p ps ih =>
    constructor
    · intro r c hc
      exact (ih.same _ c hc).trans ((dates_dateRow s p).same r c hc)
    · intro op r
      have hfirst := (dates_dateRow s p).record op r
      exact (ih.record op (s.dateRow p r)).trans (congrArg (s.placeRow ps) hfirst)

omit [Quantity Q] in
/-- A date may be missing, and no key has one. -/
theorem dateColumns_optional : ∀ c ∈ dateColumns, (Table.spec c).required = false := by decide

theorem dateColumns_not_key : ∀ key ∈ (Table.uniqueKeys : List (List Operation.Column)),
    ∀ c ∈ key, c ∉ dateColumns := by decide

theorem Dates.unseen (h : Dates f) (op : Operation Q) :
    Table.Unseen (Table.hasKey op.operationId) (recordExecution op) f where
  picks r := by
    unfold Table.hasKey
    rw [h.same r _ (by decide)]
  change := h.record op
  required r c hc := by
    refine h.same r c fun hdate => ?_
    rw [dateColumns_optional c hdate] at hc
    cases hc
  keys r key hkey c hc := h.same r c (dateColumns_not_key key hkey c hc)

/-! ### One write after another -/

/-- The store with a change of the rows of operations. -/
def mapOperations (f : Row Operation.Column Q → Row Operation.Column Q) (s : Store Q) : Store Q :=
  { s with operations := s.operations.map f }

theorem writeExecution_mapOperations (h : Dates f) (s : Store Q) (op : Operation Q) :
    (s.mapOperations f).writeExecution op = (s.writeExecution op).map (mapOperations f) := by
  have hany : (s.operations.map f).any (Table.hasKey op.operationId) =
      s.operations.any (Table.hasKey op.operationId) := by
    rw [List.any_map]
    exact congrArg s.operations.any (funext (h.unseen op).picks)
  unfold writeExecution mapOperations
  dsimp only
  rw [(h.unseen op).updateWhere, hany]
  cases Table.updateWhere (Table.hasKey op.operationId) (recordExecution op) s.operations with
  | error v => rfl
  | ok rows =>
    change (if _ then _ else _) = Except.map _ (if _ then _ else _)
    split <;> rfl

theorem writeExecutions_mapOperations (h : Dates f) (s : Store Q) (ops : List (Operation Q)) :
    (s.mapOperations f).writeExecutions ops = (s.writeExecutions ops).map (mapOperations f) := by
  induction ops generalizing s with
  | nil => rfl
  | cons op ops ih =>
    rw [writeExecutions, writeExecutions, writeExecution_mapOperations h]
    cases s.writeExecution op with
    | error e => rfl
    | ok t => exact ih t

/-- An action writes the same with other dates, and it is refused for the same reasons. -/
theorem applyTransition_mapOperations (h : Dates f) (s : Store Q) (o : Order Q)
    (changed : List (Operation Q)) : (s.mapOperations f).applyTransition o changed =
      (s.applyTransition o changed).map (mapOperations f) := by
  rw [applyTransition, applyTransition, writeExecutions_mapOperations h]
  cases s.writeExecutions changed with
  | error e => rfl
  | ok t =>
    change (orFault (Table.updateWhere _ _ t.orders) >>= _) =
      Except.map _ (orFault (Table.updateWhere _ _ t.orders) >>= _)
    cases Table.updateWhere (Table.hasKey o.orderId) _ t.orders with
    | error v => rfl
    | ok rows => rfl

omit [Quantity Q] in
theorem isOpen_congr (h : t.disputed = s.disputed) (id : String) : t.isOpen id = s.isOpen id := by
  unfold isOpen
  rw [h]

omit [Quantity Q] in
theorem dateRow_congr (h : t.disputed = s.disputed) (p : Placement Q) :
    t.dateRow p = s.dateRow p := by
  unfold dateRow
  rw [isOpen_congr h]

omit [Quantity Q] in
theorem placeRow_congr (h : t.disputed = s.disputed) (ps : List (Placement Q)) :
    t.placeRow ps = s.placeRow ps := by
  unfold placeRow
  rw [funext fun p => dateRow_congr h p]

theorem isOpen_recordAll (s : Store Q) (id : String) (ops : List (Operation Q))
    (r : Row Operation.Column Q) : s.isOpen id (recordAll ops r) = s.isOpen id r := by
  unfold isOpen
  rw [recordAll_same ops r (by decide), recordAll_same ops r (by decide)]

theorem Dates.recordAll (h : Dates f) (ops : List (Operation Q)) (r : Row Operation.Column Q) :
    recordAll ops (f r) = f (recordAll ops r) := by
  induction ops generalizing r with
  | nil => rfl
  | cons op ops ih =>
    have hfirst : Store.recordAll [op] (f r) = f (Store.recordAll [op] r) := by
      change (if _ then _ else _) = f (if _ then _ else _)
      rw [(h.unseen op).picks, h.record]
      split <;> rfl
    exact (congrArg (Store.recordAll ops) hfirst).trans (ih _)

/-- The same placements are rejected after records as before them. -/
theorem writeSchedule_snd_of_records {ops : List (Operation Q)}
    (disputed : t.disputed = s.disputed)
    (records : t.operations = s.operations.map (recordAll ops)) (ps : List (Placement Q)) :
    (t.writeSchedule (ps.map fun p => (p.operationId, p.start, p.stop))).2 =
      (s.writeSchedule (ps.map fun p => (p.operationId, p.start, p.stop))).2 := by
  induction ps generalizing s t with
  | nil => rfl
  | cons p ps ih =>
    have hopen : t.operations.any (t.isOpen p.operationId) =
        s.operations.any (s.isOpen p.operationId) := by
      rw [records, List.any_map, isOpen_congr disputed]
      exact congrArg s.operations.any (funext fun r => isOpen_recordAll s p.operationId ops r)
    have hrows : t.operations.map (t.dateRow p) =
        (s.operations.map (s.dateRow p)).map (recordAll ops) := by
      rw [records, List.map_map, List.map_map, dateRow_congr disputed]
      exact List.map_congr_left fun r _ => ((dates_dateRow s p).recordAll ops r).symm
    have hrest := ih (s := { s with operations := s.operations.map (s.dateRow p) })
      (t := { t with operations := t.operations.map (t.dateRow p) }) disputed hrows
    simp only [List.map_cons, writeSchedule, writeDates_eq]
    rw [hopen, hrest]

/-- Every list of dates to be written is that of some placements. -/
theorem exists_placements (ps : List (String × Date × Date)) :
    ∃ qs : List (Placement Q), qs.map (fun p => (p.operationId, p.start, p.stop)) = ps := by
  refine List.map_surjective_iff.mpr ?_ ps
  rintro ⟨id, start, stop⟩
  exact ⟨⟨id, "", 0, "", start, stop, Quantity.zero, 0⟩, rfl⟩

end Store

/-! ### Writes of two kinds -/

/-- A write of the store: what an action has changed, or dates of operations. -/
inductive Write (Q : Type) where
  | transition (o : Order Q) (changed : List (Operation Q))
  | schedule (placements : List (String × Date × Date))

namespace Write

def isTransition : Write Q → Bool
  | transition _ _ => true
  | schedule _ => false

def isSchedule (w : Write Q) : Bool := !w.isTransition

end Write

/-- What a list of writes leaves: the store, the answer to each write of an action, and the
    operations that each write of dates rejects. -/
structure Carried (Q : Type) where
  store : Store Q
  answers : List (Except StoreFault Unit)
  rejected : List (List String)

namespace Store

/-- Carries out writes one after the other; one that is refused leaves the store. -/
def carryOut (s : Store Q) : List (Write Q) → Carried Q
  | [] => ⟨s, [], []⟩
  | .transition o changed :: ws =>
    match s.applyTransition o changed with
    | .ok t =>
      let rest := t.carryOut ws
      { rest with answers := .ok () :: rest.answers }
    | .error e =>
      let rest := s.carryOut ws
      { rest with answers := .error e :: rest.answers }
  | .schedule ps :: ws =>
    let (t, rejected) := s.writeSchedule ps
    let rest := t.carryOut ws
    { rest with rejected := rejected :: rest.rejected }

variable {s t : Store Q}

theorem carryOut_transition_ok {o : Order Q} {changed : List (Operation Q)}
    (h : s.applyTransition o changed = .ok t) (ws : List (Write Q)) :
    s.carryOut (.transition o changed :: ws) =
      { t.carryOut ws with answers := .ok () :: (t.carryOut ws).answers } := by
  rw [carryOut, h]

theorem carryOut_transition_error {o : Order Q} {changed : List (Operation Q)} {e : StoreFault}
    (h : s.applyTransition o changed = .error e) (ws : List (Write Q)) :
    s.carryOut (.transition o changed :: ws) =
      { s.carryOut ws with answers := .error e :: (s.carryOut ws).answers } := by
  rw [carryOut, h]

theorem carryOut_schedule (s : Store Q) (ps : List (String × Date × Date)) (ws : List (Write Q)) :
    s.carryOut (.schedule ps :: ws) =
      { (s.writeSchedule ps).1.carryOut ws with
        rejected := (s.writeSchedule ps).2 :: ((s.writeSchedule ps).1.carryOut ws).rejected } := rfl

/-- A write of dates and a write of an action that follows it can change places. -/
theorem carryOut_swap (s : Store Q) (ps : List (String × Date × Date)) (o : Order Q)
    (changed : List (Operation Q)) (ws : List (Write Q)) :
    s.carryOut (.schedule ps :: .transition o changed :: ws) =
      s.carryOut (.transition o changed :: .schedule ps :: ws) := by
  obtain ⟨qs, rfl⟩ := exists_placements (Q := Q) ps
  have hdated := applyTransition_mapOperations (dates_placeRow s qs) s o changed
  have hstore : (s.writeSchedule (qs.map fun p => (p.operationId, p.start, p.stop))).1 =
      s.mapOperations (s.placeRow qs) := writeSchedule_fst s qs
  rw [carryOut_schedule, hstore]
  cases htransition : s.applyTransition o changed with
  | error e =>
    rw [htransition] at hdated
    rw [carryOut_transition_error hdated, carryOut_transition_error htransition,
      carryOut_schedule, hstore]
  | ok t =>
    rw [htransition] at hdated
    obtain ⟨ht, -⟩ := applyTransition_eq htransition
    have hdisputed : t.disputed = s.disputed := by rw [ht]
    have hrecords : t.operations = s.operations.map (recordAll changed) := by rw [ht]
    have hafter : (t.writeSchedule (qs.map fun p => (p.operationId, p.start, p.stop))).1 =
        t.mapOperations (s.placeRow qs) := by
      rw [writeSchedule_fst, placeRow_congr hdisputed]
      rfl
    rw [carryOut_transition_ok hdated, carryOut_transition_ok htransition, carryOut_schedule,
      hafter, writeSchedule_snd_of_records hdisputed hrecords]

theorem carryOut_cons_congr {ws ws' : List (Write Q)}
    (h : ∀ t : Store Q, t.carryOut ws = t.carryOut ws') (s : Store Q) (w : Write Q) :
    s.carryOut (w :: ws) = s.carryOut (w :: ws') := by
  cases w with
  | schedule ps => rw [carryOut_schedule, carryOut_schedule, h]
  | transition o changed =>
    cases htransition : s.applyTransition o changed with
    | error e =>
      rw [carryOut_transition_error htransition, carryOut_transition_error htransition, h]
    | ok t => rw [carryOut_transition_ok htransition, carryOut_transition_ok htransition, h]

/-- A write of dates can wait until after the writes of actions that follow it. -/
theorem carryOut_delay (s : Store Q) (ps : List (String × Date × Date)) {ws : List (Write Q)}
    (h : ∀ w ∈ ws, w.isTransition = true) (rest : List (Write Q)) :
    s.carryOut (.schedule ps :: (ws ++ rest)) = s.carryOut (ws ++ .schedule ps :: rest) := by
  induction ws generalizing s with
  | nil => rfl
  | cons w ws ih =>
    obtain ⟨hw, hws⟩ := List.forall_mem_cons.mp h
    cases w with
    | schedule => cases hw
    | transition o changed =>
      rw [List.cons_append, carryOut_swap]
      exact carryOut_cons_congr (fun t => ih t hws) s _

/-- Writes end as if those of actions had come first. -/
theorem carryOut_eq (s : Store Q) (ws : List (Write Q)) :
    s.carryOut ws = s.carryOut (ws.filter Write.isTransition ++ ws.filter Write.isSchedule) := by
  induction ws generalizing s with
  | nil => rfl
  | cons w ws ih =>
    rw [carryOut_cons_congr ih s w]
    cases w with
    | transition o changed => rfl
    | schedule ps =>
      exact carryOut_delay s ps (fun w hw => (List.mem_filter.mp hw).2) _

theorem carryOut_append (s : Store Q) (ws ws' : List (Write Q)) :
    s.carryOut (ws ++ ws') =
      ⟨((s.carryOut ws).store.carryOut ws').store,
        (s.carryOut ws).answers ++ ((s.carryOut ws).store.carryOut ws').answers,
        (s.carryOut ws).rejected ++ ((s.carryOut ws).store.carryOut ws').rejected⟩ := by
  induction ws generalizing s with
  | nil => rfl
  | cons w ws ih =>
    rw [List.cons_append]
    cases w with
    | schedule ps =>
      rw [carryOut_schedule, carryOut_schedule, ih]
      rfl
    | transition o changed =>
      cases htransition : s.applyTransition o changed with
      | error e =>
        rw [carryOut_transition_error htransition, carryOut_transition_error htransition, ih]
        rfl
      | ok t =>
        rw [carryOut_transition_ok htransition, carryOut_transition_ok htransition, ih]
        rfl

/-! ### Nothing is lost -/

/-- The rows of two tables agree one by one in some columns. -/
def AgreeIn (columns : Operation.Column → Prop)
    (rows rows' : List (Row Operation.Column Q)) : Prop :=
  List.Forall₂ (fun r t => ∀ c, columns c → t.cell c = r c) rows rows'

omit [Quantity Q] in
theorem AgreeIn.refl (columns : Operation.Column → Prop) (rows : List (Row Operation.Column Q)) :
    AgreeIn columns rows rows := List.forall₂_same.mpr fun _ _ _ _ => rfl

omit [Quantity Q] in
theorem AgreeIn.trans {columns : Operation.Column → Prop}
    {rows rows' rows'' : List (Row Operation.Column Q)} (h : AgreeIn columns rows rows')
    (h' : AgreeIn columns rows' rows'') : AgreeIn columns rows rows'' :=
  forall₂_trans (fun _ _ _ hrt htu c hc => (htu c hc).trans (hrt c hc)) h h'

/-- Writes of dates give no answer to an action, and they leave the orders and all columns
    but those of the dates. -/
theorem carryOut_schedules (s : Store Q) {ws : List (Write Q)}
    (h : ∀ w ∈ ws, w.isSchedule = true) : (s.carryOut ws).answers = [] ∧
      (s.carryOut ws).store.orders = s.orders ∧
      AgreeIn (· ∉ dateColumns) s.operations (s.carryOut ws).store.operations := by
  induction ws generalizing s with
  | nil => exact ⟨rfl, rfl, .refl _ _⟩
  | cons w ws ih =>
    obtain ⟨hw, hws⟩ := List.forall_mem_cons.mp h
    cases w with
    | transition => cases hw
    | schedule ps =>
      obtain ⟨qs, rfl⟩ := exists_placements (Q := Q) ps
      rw [carryOut_schedule, writeSchedule_fst]
      obtain ⟨hanswers, horders, hrows⟩ := ih (s.mapOperations (s.placeRow qs)) hws
      have hfirst : AgreeIn (· ∉ dateColumns) s.operations
          (s.mapOperations (s.placeRow qs)).operations :=
        forall₂_map_self fun r _ => (dates_placeRow s qs).same r
      exact ⟨hanswers, horders, hfirst.trans hrows⟩

/-- Writes of actions reject no dates, and they leave the columns of the dates. -/
theorem carryOut_transitions (s : Store Q) {ws : List (Write Q)}
    (h : ∀ w ∈ ws, w.isTransition = true) : (s.carryOut ws).rejected = [] ∧
      AgreeIn (· ∈ dateColumns) s.operations (s.carryOut ws).store.operations := by
  induction ws generalizing s with
  | nil => exact ⟨rfl, .refl _ _⟩
  | cons w ws ih =>
    obtain ⟨hw, hws⟩ := List.forall_mem_cons.mp h
    cases w with
    | schedule => cases hw
    | transition o changed =>
      cases htransition : s.applyTransition o changed with
      | error e =>
        rw [carryOut_transition_error htransition]
        exact ih s hws
      | ok t =>
        rw [carryOut_transition_ok htransition]
        obtain ⟨hrejected, hrows⟩ := ih t hws
        obtain ⟨ht, -⟩ := applyTransition_eq htransition
        have hother : ∀ c ∈ dateColumns, c ∉ executionColumns := by decide
        have hfirst : AgreeIn (· ∈ dateColumns) s.operations t.operations := by
          rw [ht]
          exact forall₂_map_self fun r _ c hc => recordAll_same changed r (hother c hc)
        exact ⟨hrejected, hfirst.trans hrows⟩

/-- What writes of both kinds leave has everything that the writes of each kind alone would
    have left. -/
structure Merges (both transitions schedules : Carried Q) : Prop where
  answers : both.answers = transitions.answers
  rejected : both.rejected = schedules.rejected
  orders : both.store.orders = transitions.store.orders
  records : AgreeIn (· ∉ dateColumns) transitions.store.operations both.store.operations
  dates : AgreeIn (· ∈ dateColumns) schedules.store.operations both.store.operations

theorem merges_of_append {ts ss : List (Write Q)} (s : Store Q)
    (transitions : ∀ w ∈ ts, w.isTransition = true) (schedules : ∀ w ∈ ss, w.isSchedule = true)
    (commute : s.carryOut (ts ++ ss) = s.carryOut (ss ++ ts)) :
    Merges (s.carryOut (ts ++ ss)) (s.carryOut ts) (s.carryOut ss) := by
  obtain ⟨hanswers, horders, hrecords⟩ := carryOut_schedules (s.carryOut ts).store schedules
  obtain ⟨hrejected, hdates⟩ := carryOut_transitions (s.carryOut ss).store transitions
  have hts := carryOut_append s ts ss
  have hss := commute.trans (carryOut_append s ss ts)
  constructor
  · rw [hts, hanswers, List.append_nil]
  · rw [hss, hrejected, List.append_nil]
  · rw [hts, horders]
  · rw [hts]
    exact hrecords
  · rw [hss]
    exact hdates

/-- **Writes of actions and writes of dates commute.**  However they come in between one
    another, they end as if the writes of actions had come first, and nothing is lost that
    the writes of one kind alone would have left. -/
theorem carryOut_merges (s : Store Q) (ws : List (Write Q)) :
    s.carryOut ws = s.carryOut (ws.filter Write.isTransition ++ ws.filter Write.isSchedule) ∧
      Merges (s.carryOut ws) (s.carryOut (ws.filter Write.isTransition))
        (s.carryOut (ws.filter Write.isSchedule)) := by
  obtain ⟨ts, hts⟩ : ∃ ts, ws.filter Write.isTransition = ts := ⟨_, rfl⟩
  obtain ⟨ss, hss⟩ : ∃ ss, ws.filter Write.isSchedule = ss := ⟨_, rfl⟩
  have transitions : ∀ w ∈ ts, w.isTransition = true :=
    hts ▸ fun w hw => (List.mem_filter.mp hw).2
  have schedules : ∀ w ∈ ss, w.isSchedule = true :=
    hss ▸ fun w hw => (List.mem_filter.mp hw).2
  have hfirst := carryOut_eq s ws
  rw [hts, hss] at hfirst ⊢
  refine ⟨hfirst, hfirst ▸ merges_of_append s transitions schedules ?_⟩
  -- the writes of dates may come first as well
  have hlast := carryOut_eq s (ss ++ ts)
  have hnone : ss.filter Write.isTransition = [] := by
    rw [List.filter_eq_nil_iff]
    intro w hw
    have hw := schedules w hw
    rw [Write.isSchedule, Bool.not_eq_true'] at hw
    rw [hw]
    exact Bool.false_ne_true
  have hnone' : ts.filter Write.isSchedule = [] := by
    rw [List.filter_eq_nil_iff]
    intro w hw
    rw [Write.isSchedule, transitions w hw]
    exact Bool.false_ne_true
  rw [List.filter_append, List.filter_append, hnone, hnone', List.nil_append, List.append_nil,
    List.filter_eq_self.mpr transitions, List.filter_eq_self.mpr schedules] at hlast
  exact hlast.symm

/-! ### Two writers at one order -/

def pairOrder : Order Rat := ⟨"S1", "MO-2", "SHAFT", 1, .released, 1, none, none, none⟩

def pairOperation (sequence : Int) (status : OperationStatus) : Operation Rat :=
  { Draft.toOperation ⟨sequence, none, none, "LATHE", "Turn", none, false, 0, 4⟩ "S1"
      ("S1/" ++ toString sequence) with
    status := status }

/-- An order with two operations, neither of which has a date. -/
def pairStore : Store Rat :=
  { (empty : Store Rat) with
    orders := [pairOrder.toRow]
    operations := [(pairOperation 10 .ready).toRow, (pairOperation 20 .pending).toRow] }

/-- Wednesday, 1 March of year 0, and the day after it. -/
def pairDays : Date × Date := (default, (default : Date).addDaysClamped 1)

/-- One writer starts the first operation, and before that names one that there is not.  The
    other one dates the first operation, and later both, from a plan that knew of no dates. -/
def pairWrites : List (Write Rat) :=
  [.schedule [("S1/10", pairDays.1, pairDays.1)],
    .transition pairOrder [pairOperation 30 .complete],
    .transition { pairOrder with status := .inProgress } [pairOperation 10 .inProgress],
    .schedule [("S1/10", pairDays.2, pairDays.2), ("S1/20", pairDays.2, pairDays.2)]]

/-- The write of the unknown operation fails, the second date of the first operation is
    rejected, and its row has the state of the one writer and the date of the other. -/
theorem carryOut_merges_pair :
    ((pairStore.carryOut pairWrites).answers = [.error (.notFound "Operation" "S1/30"), .ok ()] ∧
      (pairStore.carryOut pairWrites).rejected = [[], ["S1/10"]] ∧
      (pairStore.carryOut pairWrites).store.operations.map (fun r =>
        (r.text .status, r.text .scheduledStart)) =
          [(.ok "IN_PROGRESS", .ok (DateText.write pairDays.1)),
            (.ok "PENDING", .ok (DateText.write pairDays.2))]) ∧
    pairStore.carryOut pairWrites = pairStore.carryOut
      (pairWrites.filter Write.isTransition ++ pairWrites.filter Write.isSchedule) ∧
      Merges (pairStore.carryOut pairWrites)
        (pairStore.carryOut (pairWrites.filter Write.isTransition))
        (pairStore.carryOut (pairWrites.filter Write.isSchedule)) := by
  refine ⟨⟨?_, ?_, ?_⟩, carryOut_merges pairStore pairWrites⟩
  · decide +kernel
  · decide +kernel
  · decide +kernel

end Store

end Workshop
