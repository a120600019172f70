/-
  Workshop/Proofs/Store/AvailabilityRates.lean
  ============================================
  **The availability that is kept.**  The availability of a work center is up to date when
  it compares as equal to the one that a ledger gives which is rebuilt from the store
  (`Store.UpToDate`).  A recalculation brings all work centers that it lists up to date and
  leaves the others alone (`Store.exists_recalculated`).

  Whether a work center is up to date depends on its own row, the settings and its own
  bookings (`Store.UpToDate.of_same`).
-/
import Workshop.Proofs.Quantity.Accumulation
import Workshop.Proofs.Store.BookedHours
import Workshop.Proofs.Store.ExecutionRecords
import Workshop.Proofs.Store.GuardedDates

namespace Workshop

variable {Q : Type} [Quantity Q]

/-- The quantities compare as equal. -/
def Quantity.Equal (x y : Q) : Prop := x ≤ y ∧ y ≤ x

/-- What is kept of a number compares as equal to it. -/
theorem Quantity.equal_add_zero [Coherent Q] [LawfulZero Q] {x : Q} (h : isNaN x = false) :
    Equal (x + zero) x := by
  rcases LawfulZero.add_zero_alike x with heq | ⟨hsum, hx⟩
  · have number : x ≤ x := by simpa [isNaN] using h
    rw [heq]
    exact ⟨number, number⟩
  · exact ⟨Coherent.le_trans hsum.1 hx.2, Coherent.le_trans hx.1 hsum.2⟩

/-! ### Rows of work centers -/

theorem WorkCenter.availability_only (wc : WorkCenter Q) (l : Ledger Q) :
    wc.availability (l.only wc.workCenterId) = wc.availability l := by
  rw [availability, availability, Ledger.total_only]
  rfl

/-- The row is read as a work center. -/
structure WorkCenter.Reads (r : Row WorkCenter.Column Q) (wc : WorkCenter Q) : Prop where
  workCenterId : r.text .workCenterId = .ok wc.workCenterId
  code : r.text .code = .ok wc.code
  name : r.text .name = .ok wc.name
  capacityHoursPerDay : r.quantity .capacityHoursPerDay = .ok wc.capacityHoursPerDay
  efficiencyFactor : r.quantity .efficiencyFactor = .ok wc.efficiencyFactor
  availabilityRate : r.quantity .availabilityRate = .ok wc.availabilityRate
  isActive : r.flag .isActive = .ok wc.isActive

theorem WorkCenter.ofRow_eq_ok_iff {r : Row WorkCenter.Column Q} {wc : WorkCenter Q} :
    WorkCenter.ofRow r = .ok wc ↔ WorkCenter.Reads r wc := by
  simp only [WorkCenter.ofRow, bind_eq_ok_iff]
  constructor
  · rintro ⟨id, h1, code, h2, name, h3, capacity, h4, factor, h5, rate, h6, active, h7, h⟩
    cases h
    exact ⟨h1, h2, h3, h4, h5, h6, h7⟩
  · intro h
    exact ⟨_, h.workCenterId, _, h.code, _, h.name, _, h.capacityHoursPerDay, _,
      h.efficiencyFactor, _, h.availabilityRate, _, h.isActive, rfl⟩

/-- What is read after another availability has been written. -/
theorem WorkCenter.Reads.withRate {r t : Row WorkCenter.Column Q} {wc : WorkCenter Q} {rate : Q}
    (h : WorkCenter.Reads r wc) (same : ∀ c, c ≠ .availabilityRate → t c = r c)
    (written : t .availabilityRate = .ofQuantity rate) (number : Quantity.isNaN rate = false) :
    WorkCenter.Reads t { wc with availabilityRate := rate + Quantity.zero } where
  workCenterId := (Row.text_congr (same .workCenterId (by decide))).trans h.workCenterId
  code := (Row.text_congr (same .code (by decide))).trans h.code
  name := (Row.text_congr (same .name (by decide))).trans h.name
  capacityHoursPerDay :=
    (Row.quantity_congr (same .capacityHoursPerDay (by decide))).trans h.capacityHoursPerDay
  efficiencyFactor :=
    (Row.quantity_congr (same .efficiencyFactor (by decide))).trans h.efficiencyFactor
  availabilityRate := by
    rw [Row.quantity, written, Cell.ofQuantity_of_not_isNaN number]
    rfl
  isActive := (Row.flag_congr (same .isActive (by decide))).trans h.isActive

namespace Store

omit [Quantity Q] in
/-- There is a work center with the identifier. -/
def HasWorkCenter (id : String) (s : Store Q) : Prop :=
  ∃ r ∈ s.workCenters, r .workCenterId = .text id

variable {s t : Store Q} {id : String} {wc : WorkCenter Q}

theorem findWorkCenter_eq_ok_iff : s.findWorkCenter id = .ok (some wc) ↔
    ∃ r rest, rowsWith s.workCenters .workCenterId id = r :: rest ∧ WorkCenter.Reads r wc := by
  simp only [← WorkCenter.ofRow_eq_ok_iff, ← readFirst_eq_ok_iff]
  rfl

theorem workCenterId_of_findWorkCenter (h : s.findWorkCenter id = .ok (some wc)) :
    wc.workCenterId = id := by
  obtain ⟨r, rest, hrows, hread⟩ := findWorkCenter_eq_ok_iff.mp h
  obtain ⟨-, hid⟩ := mem_rowsWith.mp (hrows ▸ List.mem_cons_self)
  exact Cell.text.inj ((Row.text_eq_ok_iff.mp hread.workCenterId).symm.trans hid)

theorem hasWorkCenter_of_findWorkCenter (h : s.findWorkCenter id = .ok (some wc)) :
    s.HasWorkCenter id := by
  obtain ⟨r, rest, hrows, -⟩ := findWorkCenter_eq_ok_iff.mp h
  exact ⟨r, mem_rowsWith.mp (hrows ▸ List.mem_cons_self)⟩

/-- A row with a key of its own is the one that is found. -/
theorem findWorkCenter_of_reads (keyed : Table.Keyed s.workCenters)
    {r : Row WorkCenter.Column Q} (hr : r ∈ s.workCenters) (hread : WorkCenter.Reads r wc) :
    s.findWorkCenter wc.workCenterId = .ok (some wc) := by
  have hid := Row.text_eq_ok_iff.mp hread.workCenterId
  obtain ⟨t, rest, hrows⟩ := List.exists_cons_of_ne_nil
    (List.ne_nil_of_mem (mem_rowsWith.mpr ⟨hr, hid⟩))
  obtain ⟨ht, htid⟩ := mem_rowsWith.mp (hrows ▸ List.mem_cons_self)
  obtain rfl := keyed.eq_of_isText (c := .workCenterId) (by decide) ht hr htid hid
  exact findWorkCenter_eq_ok_iff.mpr ⟨t, rest, hrows, hread⟩

/-! ### Rates that are written -/

/-- The row with an availability, if one is entered for it; of several the last counts. -/
def rateRow (rates : List (String × Q)) (r : Row WorkCenter.Column Q) : Row WorkCenter.Column Q :=
  rates.foldl (fun r p =>
    if Table.hasKey p.1 r then r.set .availabilityRate (.ofQuantity p.2) else r) r

omit [Quantity Q] in
theorem hasKey_workCenter_iff {r : Row WorkCenter.Column Q} :
    Table.hasKey id r = true ↔ r .workCenterId = .text id := Cell.isText_iff

theorem rateRow_concat (rates : List (String × Q)) (p : String × Q)
    (r : Row WorkCenter.Column Q) : rateRow (rates ++ [p]) r =
      if Table.hasKey p.1 (rateRow rates r) then
        (rateRow rates r).set .availabilityRate (.ofQuantity p.2)
      else rateRow rates r := by
  rw [rateRow, List.foldl_append]
  rfl

theorem rateRow_same (rates : List (String × Q)) (r : Row WorkCenter.Column Q)
    {c : WorkCenter.Column} (hc : c ≠ .availabilityRate) : rateRow rates r c = r c := by
  induction rates using List.reverseRecOn with
  | nil => rfl
  | append_singleton rates p ih =>
    rw [rateRow_concat]
    split
    · rw [Row.set_cell, if_neg hc, ih]
    · exact ih

theorem rateRow_of_ne {rates : List (String × Q)} {r : Row WorkCenter.Column Q}
    (h : ∀ p ∈ rates, r .workCenterId ≠ .text p.1) : rateRow rates r = r := by
  induction rates using List.reverseRecOn with
  | nil => rfl
  | append_singleton rates p ih =>
    have hrest := ih fun q hq => h q (List.mem_append_left _ hq)
    rw [rateRow_concat, hrest, if_neg (mt hasKey_workCenter_iff.mp (h p (by simp)))]

/-- A row gets the rate that is entered for it, if it is always the same. -/
theorem rateRow_of_mem {rates : List (String × Q)} {r : Row WorkCenter.Column Q} {rate : Q}
    (hid : r .workCenterId = .text id) (hmem : ∃ p ∈ rates, p.1 = id)
    (same : ∀ p ∈ rates, p.1 = id → p.2 = rate) :
    rateRow rates r .availabilityRate = .ofQuantity rate := by
  induction rates using List.reverseRecOn with
  | nil =>
    obtain ⟨p, hp, -⟩ := hmem
    cases hp
  | append_singleton rates p ih =>
    have hkey : Table.hasKey p.1 (rateRow rates r) = true ↔ p.1 = id := by
      rw [hasKey_workCenter_iff, rateRow_same _ _ (by decide), hid]
      exact ⟨fun h => (Cell.text.inj h).symm, fun h => congrArg Cell.text h.symm⟩
    rw [rateRow_concat]
    by_cases hp : p.1 = id
    · rw [if_pos (hkey.mpr hp), Row.set_cell, if_pos rfl, same p (by simp) hp]
    · rw [if_neg (mt hkey.mp hp)]
      refine ih ?_ fun q hq => same q (List.mem_append_left _ hq)
      obtain ⟨q, hq, hqid⟩ := hmem
      rcases List.mem_append.mp hq with hq | hq
      · exact ⟨q, hq, hqid⟩
      · rw [List.mem_singleton.mp hq] at hqid
        exact absurd hqid hp

theorem setAvailabilityRate_eq {rate : Q} {n : Nat}
    (h : s.setAvailabilityRate id rate = .ok (t, n)) :
    t = { s with workCenters := s.workCenters.map (rateRow [(id, rate)]) } ∧
      (s.HasWorkCenter id → Quantity.isNaN rate = false) := by
  obtain ⟨rows, hrows, h⟩ := bind_eq_ok_iff.mp h
  have hupdate := orFault_eq_ok_iff.mp hrows
  cases h
  constructor
  · rw [Table.updateWhere_eq_map hupdate]
    rfl
  · rintro ⟨r, hr, hid⟩
    have hmissing := Table.missing?_of_updateWhere hupdate hr (hasKey_workCenter_iff.mpr hid)
    have hnull := Table.not_isNull_of_missing? hmissing (c := .availabilityRate) rfl
    rw [Row.set_cell, if_pos rfl] at hnull
    exact Cell.not_isNaN_of_not_isNull hnull

theorem hasWorkCenter_rateRow (rates : List (String × Q)) (rows : List (Row WorkCenter.Column Q)) :
    HasWorkCenter id { s with workCenters := rows.map (rateRow rates) } ↔
      HasWorkCenter id { s with workCenters := rows } := by
  simp [HasWorkCenter, rateRow_same]

/-- What the entry of rates does when it is not refused. -/
theorem updateAvailabilityRates_map {rates : List (String × Q)} {n : Nat}
    (h : s.updateAvailabilityRates rates = .ok (t, n)) :
    t = { s with workCenters := s.workCenters.map (rateRow rates) } ∧
      ∀ p ∈ rates, s.HasWorkCenter p.1 → Quantity.isNaN p.2 = false := by
  induction rates generalizing s n with
  | nil =>
    cases h
    have hnothing : rateRow ([] : List (String × Q)) = id := rfl
    rw [hnothing, List.map_id]
    exact ⟨rfl, List.forall_mem_nil _⟩
  | cons p rates ih =>
    obtain ⟨⟨u, m⟩, hset, hrest⟩ := bind_eq_ok_iff.mp h
    obtain ⟨⟨v, k⟩, hv, hdone⟩ := bind_eq_ok_iff.mp hrest
    cases hdone
    obtain ⟨hu, hnumber⟩ := setAvailabilityRate_eq hset
    obtain ⟨ht, hall⟩ := ih hv
    subst hu
    constructor
    · rw [ht, List.map_map]
      rfl
    · refine List.forall_mem_cons.mpr ⟨hnumber, fun q hq hhas => hall q hq ?_⟩
      exact (hasWorkCenter_rateRow _ _).mpr hhas

/-! ### Recalculation -/

omit [Quantity Q] in
theorem mem_textsIn {C : Type} [DecidableEq C] {rows : List (Row C Q)} {c : C} :
    id ∈ textsIn rows c ↔ ∃ r ∈ rows, r c = .text id := by
  rw [textsIn, List.mem_filterMap]
  refine exists_congr fun r => and_congr_right fun _ => ?_
  cases r c <;> simp

/-- The row is that of an active work center. -/
def isActiveCenter (r : Row WorkCenter.Column Q) : Bool := Cell.agrees (r .isActive) (.integer 1)

/-- The identifiers that a recalculation is about: those that are given, or those of all
    active work centers. -/
def asked (s : Store Q) (ids : Option (List String)) : List String :=
  ids.getD (textsIn (s.workCenters.filter isActiveCenter) .workCenterId)

/-- The work centers that are listed for a recalculation. -/
structure Listed (s : Store Q) (ids : Option (List String)) (centers : List (WorkCenter Q)) :
    Prop where
  found : ∀ wc ∈ centers, s.findWorkCenter wc.workCenterId = .ok (some wc)
  asked : ∀ wc ∈ centers, wc.workCenterId ∈ s.asked ids
  all : ∀ id ∈ s.asked ids, s.HasWorkCenter id → ∃ wc ∈ centers, wc.workCenterId = id

theorem not_hasWorkCenter_of_findWorkCenter (h : s.findWorkCenter id = .ok none) :
    ¬ s.HasWorkCenter id := by
  rintro ⟨r, hr, hid⟩
  obtain ⟨t, rest, hrows⟩ := List.exists_cons_of_ne_nil
    (List.ne_nil_of_mem (mem_rowsWith.mpr ⟨hr, hid⟩))
  rw [findWorkCenter, hrows, readFirst] at h
  cases hread : WorkCenter.ofRow t with
  | error e =>
    rw [hread] at h
    cases h
  | ok wc =>
    rw [hread] at h
    cases h

theorem listed_of_ids {ids : List String} {centers : List (WorkCenter Q)}
    (h : s.listWorkCentersByIds ids = .ok centers) : s.Listed (some ids) centers := by
  obtain ⟨found, hfound, h⟩ := bind_eq_ok_iff.mp h
  cases h
  have each := mapM_eq_ok_iff.mp hfound
  have origin : ∀ wc ∈ (found.filterMap id).mergeSort fun a b => decide (a.code ≤ b.code),
      s.findWorkCenter wc.workCenterId = .ok (some wc) ∧ wc.workCenterId ∈ ids := by
    intro wc hwc
    obtain ⟨o, ho, rfl⟩ := List.mem_filterMap.mp (List.mem_mergeSort.mp hwc)
    obtain ⟨id, hid, hread⟩ := forall₂_mem_right each ho
    rw [workCenterId_of_findWorkCenter hread]
    exact ⟨hread, hid⟩
  refine ⟨fun wc hwc => (origin wc hwc).1, fun wc hwc => (origin wc hwc).2, ?_⟩
  intro id hid hhas
  obtain ⟨o, ho, hread⟩ := forall₂_mem_left each hid
  cases o with
  | none => exact absurd hhas (not_hasWorkCenter_of_findWorkCenter hread)
  | some wc =>
    refine ⟨wc, ?_, workCenterId_of_findWorkCenter hread⟩
    exact List.mem_mergeSort.mpr (List.mem_filterMap.mpr ⟨some wc, ho, rfl⟩)

theorem listed_of_active (keyed : Table.Keyed s.workCenters) {centers : List (WorkCenter Q)}
    (h : s.listActiveWorkCenters = .ok centers) : s.Listed none centers := by
  have each := mapM_eq_ok_iff.mp h
  have active : ∀ {r}, r ∈ sortedBy .code (s.workCenters.filter isActiveCenter) ↔
      r ∈ s.workCenters ∧ isActiveCenter r = true := by
    intro r
    rw [mem_sortedBy, List.mem_filter]
  constructor
  · intro wc hwc
    obtain ⟨r, hr, hread⟩ := forall₂_mem_right each hwc
    exact findWorkCenter_of_reads keyed (active.mp hr).1 (WorkCenter.ofRow_eq_ok_iff.mp hread)
  · intro wc hwc
    obtain ⟨r, hr, hread⟩ := forall₂_mem_right each hwc
    have hid := (WorkCenter.ofRow_eq_ok_iff.mp hread).workCenterId
    exact mem_textsIn.mpr ⟨r, mem_sortedBy.mp hr, Row.text_eq_ok_iff.mp hid⟩
  · intro id hid _
    obtain ⟨r, hr, hrid⟩ := mem_textsIn.mp hid
    obtain ⟨wc, hwc, hread⟩ := forall₂_mem_left each (mem_sortedBy.mpr hr)
    refine ⟨wc, hwc, ?_⟩
    have hread := (WorkCenter.ofRow_eq_ok_iff.mp hread).workCenterId
    exact Cell.text.inj ((Row.text_eq_ok_iff.mp hread).symm.trans hrid)

/-- The ledger from which availability is recalculated. -/
def availabilityLedger (s : Store Q) (today : Date) : Except StoreFault (Ledger Q) :=
  s.buildLedger today (today.addDaysClamped (Settings.horizonDays s))
    (Settings.minOperationHours s) fun _ => true

/-- The rates that a ledger gives. -/
def ratesOf (ledger : Ledger Q) (centers : List (WorkCenter Q)) : List (String × Q) :=
  centers.map fun wc => (wc.workCenterId, (wc.availability ledger).rate)

/-- What a recalculation over the horizon of the settings does: it rebuilds the ledger and
    enters the rates of the work centers that it lists. -/
structure Recalculated (today : Date) (ids : Option (List String)) (s t : Store Q)
    (ledger : Ledger Q) (centers : List (WorkCenter Q)) : Prop where
  listed : s.Listed ids centers
  rebuilt : s.availabilityLedger today = .ok ledger
  written : t = { s with workCenters := s.workCenters.map (rateRow (ratesOf ledger centers)) }
  numbers : ∀ wc ∈ centers, Quantity.isNaN (wc.availability ledger).rate = false

theorem exists_recalculated (keyed : Table.Keyed s.workCenters) {today : Date}
    {ids : Option (List String)} {answer : List (String × Q)}
    (h : s.recalculate today ids none = .ok (answer, t)) :
    ∃ ledger centers, Recalculated today ids s t ledger centers := by
  have hparts : ∃ centers ledger n, s.Listed ids centers ∧
      s.availabilityLedger today = .ok ledger ∧
      s.updateAvailabilityRates (ratesOf ledger centers) = .ok (t, n) := by
    cases ids with
    | none =>
      obtain ⟨centers, hcenters, h⟩ := bind_eq_ok_iff.mp h
      obtain ⟨ledger, hledger, h⟩ := bind_eq_ok_iff.mp h
      obtain ⟨⟨u, n⟩, hu, h⟩ := bind_eq_ok_iff.mp h
      cases h
      exact ⟨centers, ledger, n, listed_of_active keyed hcenters, hledger, hu⟩
    | some ids =>
      obtain ⟨centers, hcenters, h⟩ := bind_eq_ok_iff.mp h
      obtain ⟨ledger, hledger, h⟩ := bind_eq_ok_iff.mp h
      obtain ⟨⟨u, n⟩, hu, h⟩ := bind_eq_ok_iff.mp h
      cases h
      exact ⟨centers, ledger, n, listed_of_ids hcenters, hledger, hu⟩
  obtain ⟨centers, ledger, n, listed, hledger, hwritten⟩ := hparts
  obtain ⟨ht, hnumbers⟩ := updateAvailabilityRates_map hwritten
  refine ⟨ledger, centers, listed, hledger, ht, fun wc hwc => ?_⟩
  exact hnumbers _ (List.mem_map_of_mem hwc)
    (hasWorkCenter_of_findWorkCenter (listed.found wc hwc))

/-! ### Availability that is up to date -/

/-- The availability of the work center is the one that a rebuilt ledger gives. -/
def UpToDate (today : Date) (id : String) (s : Store Q) : Prop :=
  ∃ wc ledger, s.findWorkCenter id = .ok (some wc) ∧ s.availabilityLedger today = .ok ledger ∧
    Quantity.Equal wc.availabilityRate (wc.availability ledger).rate

namespace Recalculated

variable {today : Date} {ids : Option (List String)} {ledger : Ledger Q}
  {centers : List (WorkCenter Q)}

theorem availabilityLedger_eq (h : Recalculated today ids s t ledger centers) :
    t.availabilityLedger today = .ok ledger := by
  rw [h.written]
  exact h.rebuilt

theorem rowsWith_eq (h : Recalculated today ids s t ledger centers) (id : String) :
    rowsWith t.workCenters .workCenterId id =
      (rowsWith s.workCenters .workCenterId id).map (rateRow (ratesOf ledger centers)) := by
  rw [h.written]
  exact rowsWith_map (fun r => rateRow_same (ratesOf ledger centers) r (by decide)) _ _

/-- A work center that is listed has its new rate afterwards. -/
theorem found (h : Recalculated today ids s t ledger centers) (hwc : wc ∈ centers) :
    t.findWorkCenter wc.workCenterId = .ok (some { wc with
      availabilityRate := (wc.availability ledger).rate + Quantity.zero }) := by
  obtain ⟨r, rest, hrows, hread⟩ := findWorkCenter_eq_ok_iff.mp (h.listed.found wc hwc)
  obtain ⟨-, hid⟩ := mem_rowsWith.mp (hrows ▸ List.mem_cons_self)
  have hrate : rateRow (ratesOf ledger centers) r .availabilityRate =
      .ofQuantity (wc.availability ledger).rate := by
    refine rateRow_of_mem hid ⟨_, List.mem_map_of_mem hwc, rfl⟩ ?_
    rintro _ hp heq
    obtain ⟨wc', hwc', rfl⟩ := List.mem_map.mp hp
    -- one work center is found by the identifier
    have hfound := h.listed.found wc' hwc'
    rw [show wc'.workCenterId = wc.workCenterId from heq, h.listed.found wc hwc] at hfound
    cases hfound
    rfl
  refine findWorkCenter_eq_ok_iff.mpr ⟨_, _, (h.rowsWith_eq _).trans (congrArg _ hrows), ?_⟩
  exact hread.withRate (fun c hc => rateRow_same _ r hc) hrate (h.numbers wc hwc)

/-- A work center that is listed is up to date afterwards. -/
theorem upToDate [Quantity.Coherent Q] [Quantity.LawfulZero Q]
    (h : Recalculated today ids s t ledger centers) (hwc : wc ∈ centers) :
    t.UpToDate today wc.workCenterId :=
  ⟨_, ledger, h.found hwc, h.availabilityLedger_eq, Quantity.equal_add_zero (h.numbers wc hwc)⟩

/-- A work center that is not listed stays as it is. -/
theorem findWorkCenter_eq (h : Recalculated today ids s t ledger centers)
    (hid : ∀ wc ∈ centers, wc.workCenterId ≠ id) : t.findWorkCenter id = s.findWorkCenter id := by
  have hsame : ∀ r ∈ rowsWith s.workCenters .workCenterId id,
      rateRow (ratesOf ledger centers) r = r := by
    intro r hr
    refine rateRow_of_ne fun p hp heq => ?_
    obtain ⟨wc, hwc, rfl⟩ := List.mem_map.mp hp
    rw [(mem_rowsWith.mp hr).2] at heq
    exact hid wc hwc (Cell.text.inj heq).symm
  rw [findWorkCenter, findWorkCenter, h.rowsWith_eq, List.map_congr_left hsame, List.map_id']

theorem keyed (h : Recalculated today ids s t ledger centers)
    (keyed : Table.Keyed s.workCenters) : Table.Keyed t.workCenters := by
  rw [h.written]
  refine keyed.map [.availabilityRate] (by decide) fun r c hc => ?_
  exact rateRow_same _ r (by simpa using hc)

end Recalculated

omit [Quantity Q] in
theorem readOr_congr {α : Type} (h : t.settings = s.settings) (key : String)
    (read : String → Option α) (standard : α) :
    Settings.readOr t key read standard = Settings.readOr s key read standard := by
  rw [Settings.readOr, Settings.readOr, setting?, setting?, h]

omit [Quantity Q] in
theorem horizonDays_congr (h : t.settings = s.settings) :
    Settings.horizonDays t = Settings.horizonDays s := readOr_congr h _ _ _

theorem minOperationHours_congr (h : t.settings = s.settings) :
    Settings.minOperationHours t = Settings.minOperationHours s := by
  rw [Settings.minOperationHours, Settings.minOperationHours, readOr_congr h]

/-- What is booked over the horizon of the settings, row by row. -/
def bookings (s : Store Q) (today : Date) : List (Row Operation.Column Q) :=
  bookedRows today (today.addDaysClamped (Settings.horizonDays s)) s.operations

theorem availabilityLedger_congr {today : Date} (settings : t.settings = s.settings)
    (same : t.bookings today = s.bookings today) :
    t.availabilityLedger today = s.availabilityLedger today := by
  rw [bookings, bookings, horizonDays_congr settings] at same
  rw [availabilityLedger, availabilityLedger, horizonDays_congr settings,
    minOperationHours_congr settings, buildLedger_congr same]

/-- A work center stays up to date when its row, the settings and its bookings stay. -/
theorem UpToDate.of_same {today : Date} (h : s.UpToDate today id)
    (center : t.findWorkCenter id = s.findWorkCenter id) (settings : t.settings = s.settings)
    {m : Ledger Q} (rebuilt : t.availabilityLedger today = .ok m)
    (same : (t.bookings today).filter (isAt id) = (s.bookings today).filter (isAt id)) :
    t.UpToDate today id := by
  obtain ⟨wc, l, hfound, hl, hrate⟩ := h
  refine ⟨wc, m, center.trans hfound, rebuilt, ?_⟩
  rw [bookings, bookings, horizonDays_congr settings] at same
  rw [availabilityLedger, horizonDays_congr settings, minOperationHours_congr settings] at rebuilt
  have honly := only_of_booked hl rebuilt same
  rw [← workCenterId_of_findWorkCenter hfound] at honly
  rw [← wc.availability_only m, honly, wc.availability_only]
  exact hrate

end Store

end Workshop
