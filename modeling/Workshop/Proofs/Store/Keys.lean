/-
  Workshop/Proofs/Store/Keys.lean
  ===============================
  **Unique keys.**  Two rows of a table that keeps its unique keys are the same row when
  they hold the same text in a column that is a key by itself (`Table.Keyed.eq_of_isText`).
  A write that leaves the cells of all keys alone leaves the keys unique
  (`Table.Keyed.of_forall₂`).

  A list of rows is read as a whole: its result has one value for each row, in the same
  order (`mapM_eq_ok_iff`).
-/
import Workshop.Proofs.Execution.Calls
import Workshop.Store.Basic
import Mathlib.Data.List.Forall2
import Mathlib.Data.List.Pairwise

namespace Workshop

theorem mapM_eq_ok_iff {ε α β : Type} {f : α → Except ε β} {xs : List α} {ys : List β} :
    xs.mapM f = .ok ys ↔ List.Forall₂ (fun x y => f x = .ok y) xs ys := by
  induction xs generalizing ys with
  | nil =>
    rw [List.mapM_nil, List.forall₂_nil_left_iff]
    constructor
    · intro h
      cases h
      rfl
    · rintro rfl
      rfl
  | cons x xs ih =>
    rw [List.mapM_cons, List.forall₂_cons_left_iff, bind_eq_ok_iff]
    constructor
    · rintro ⟨y, hy, h⟩
      obtain ⟨zs, hzs, h⟩ := bind_eq_ok_iff.mp h
      cases h
      exact ⟨y, zs, hy, ih.mp hzs, rfl⟩
    · rintro ⟨y, zs, hy, hzs, rfl⟩
      exact ⟨y, hy, bind_eq_ok_iff.mpr ⟨zs, ih.mpr hzs, rfl⟩⟩

theorem forall₂_mem_left {α β : Type} {R : α → β → Prop} {xs : List α} {ys : List β}
    (h : List.Forall₂ R xs ys) {x : α} (hx : x ∈ xs) : ∃ y ∈ ys, R x y := by
  induction h with
  | nil => cases hx
  | cons hxy hrest ih =>
    rcases List.mem_cons.mp hx with rfl | hx
    · exact ⟨_, List.mem_cons_self, hxy⟩
    · obtain ⟨y, hy, hR⟩ := ih hx
      exact ⟨y, List.mem_cons_of_mem _ hy, hR⟩

theorem forall₂_mem_right {α β : Type} {R : α → β → Prop} {xs : List α} {ys : List β}
    (h : List.Forall₂ R xs ys) {y : β} (hy : y ∈ ys) : ∃ x ∈ xs, R x y :=
  forall₂_mem_left h.flip hy

theorem forall₂_trans {α β γ : Type} {R : α → β → Prop} {S : β → γ → Prop} {T : α → γ → Prop}
    (trans : ∀ x y z, R x y → S y z → T x z) {xs : List α} {ys : List β} {zs : List γ}
    (h : List.Forall₂ R xs ys) (h' : List.Forall₂ S ys zs) : List.Forall₂ T xs zs := by
  induction h generalizing zs with
  | nil =>
    cases h'
    exact .nil
  | cons hxy hrest ih =>
    cases h' with
    | cons hyz hrest' => exact .cons (trans _ _ _ hxy hyz) (ih hrest')

theorem forall₂_map_self {α : Type} {R : α → α → Prop} {f : α → α} {xs : List α}
    (h : ∀ x ∈ xs, R x (f x)) : List.Forall₂ R xs (xs.map f) := by
  rw [List.forall₂_map_right_iff, List.forall₂_same]
  exact h

theorem forall₂_mem {α β : Type} {R : α → β → Prop} {xs : List α} {ys : List β}
    (h : List.Forall₂ R xs ys) : List.Forall₂ (fun x y => R x y ∧ x ∈ xs ∧ y ∈ ys) xs ys := by
  induction h with
  | nil => exact .nil
  | cons hxy hrest ih =>
    refine .cons ⟨hxy, List.mem_cons_self, List.mem_cons_self⟩ (ih.imp ?_)
    rintro x y ⟨hR, hx, hy⟩
    exact ⟨hR, List.mem_cons_of_mem _ hx, List.mem_cons_of_mem _ hy⟩

theorem exists_forall₂ {α β : Type} {R : α → β → Prop} {xs : List α}
    (h : ∀ x ∈ xs, ∃ y, R x y) : ∃ ys, List.Forall₂ R xs ys := by
  induction xs with
  | nil => exact ⟨[], .nil⟩
  | cons x xs ih =>
    obtain ⟨y, hy⟩ := h x List.mem_cons_self
    obtain ⟨ys, hys⟩ := ih fun z hz => h z (List.mem_cons_of_mem x hz)
    exact ⟨y :: ys, .cons hy hys⟩

theorem exists_of_forall₂ {α β γ : Type} {R : α → γ → Prop} {S : γ → β → Prop} {xs : List α}
    {ys : List β} (h : List.Forall₂ (fun x y => ∃ z, R x z ∧ S z y) xs ys) :
    ∃ zs, List.Forall₂ R xs zs ∧ List.Forall₂ S zs ys := by
  induction h with
  | nil => exact ⟨[], .nil, .nil⟩
  | cons hxy hrest ih =>
    obtain ⟨z, hR, hS⟩ := hxy
    obtain ⟨zs, hRs, hSs⟩ := ih
    exact ⟨z :: zs, .cons hR hRs, .cons hS hSs⟩

theorem find?_of_forall₂ {α : Type} {R : α → α → Prop} {p : α → Bool} {xs ys : List α}
    (h : List.Forall₂ R xs ys) (same : ∀ x y, R x y → p x = p y) {y : α}
    (hy : ys.find? p = some y) : ∃ x, xs.find? p = some x ∧ R x y := by
  induction h with
  | nil => cases hy
  | @cons x z xs ys hxz hrest ih =>
    rw [List.find?_cons] at hy ⊢
    rw [same x z hxz]
    cases hz : p z with
    | true =>
      rw [hz] at hy
      cases hy
      exact ⟨x, rfl, hxz⟩
    | false =>
      rw [hz] at hy
      exact ih hy

/-- What holds between the members of a list holds between those of another one when the
    pairs carry it over. -/
theorem pairwise_of_forall₂ {α β : Type} {R : α → β → Prop} {S : α → α → Prop}
    {T : β → β → Prop} {xs : List α} {ys : List β} (h : List.Forall₂ R xs ys)
    (carry : ∀ {x y x' y'}, R x y → R x' y' → S x x' → T y y') (hxs : xs.Pairwise S) :
    ys.Pairwise T := by
  induction h with
  | nil => exact .nil
  | cons hxy hrest ih =>
    rw [List.pairwise_cons] at hxs ⊢
    refine ⟨?_, ih hxs.2⟩
    intro y' hy'
    obtain ⟨x', hx', hR⟩ := forall₂_mem_right hrest hy'
    exact carry hxy hR (hxs.1 x' hx')

variable {Q : Type}

theorem Cell.isText_iff {v : Cell Q} {s : String} : v.isText s = true ↔ v = .text s := by
  cases v <;> simp [isText]

theorem Cell.eq_of_agrees [Quantity Q] {a : String} {c : Cell Q} (h : agrees (.text a) c = true) :
    c = .text a := by
  rw [agrees, Bool.and_eq_true] at h
  obtain ⟨h, hca⟩ := h
  rw [Bool.and_eq_true] at h
  cases c with
  | null => exact absurd h.1 (by simp [isNull])
  | integer n => exact absurd h.2 (by simp [le, rank])
  | real x => exact absurd h.2 (by simp [le, rank])
  | text b => rw [String.le_antisymm (of_decide_eq_true hca) (of_decide_eq_true h.2)]

namespace Table

variable {C : Type} [DecidableEq C] [Table C] [Quantity Q]

/-- No two rows agree on a unique key. -/
def Keyed (rows : List (Row C Q)) : Prop :=
  ∀ key ∈ (uniqueKeys : List (List C)), rows.Pairwise fun r t => agreeOn key r t = false

variable {rows rows' : List (Row C Q)} {c : C}

theorem Keyed.pairwise (keyed : Keyed rows) (unique : [c] ∈ (uniqueKeys : List (List C))) :
    rows.Pairwise fun r t => ∀ s, ¬ (r c = .text s ∧ t c = .text s) := by
  refine (keyed [c] unique).imp ?_
  rintro r t h s ⟨hr, ht⟩
  have : Cell.agrees (Cell.text s : Cell Q) (.text s) = true := by
    simp [Cell.agrees, Cell.isNull, Cell.le]
  simp [agreeOn, hr, ht, this] at h

theorem Keyed.eq_of_isText (keyed : Keyed rows) (unique : [c] ∈ (uniqueKeys : List (List C)))
    {r t : Row C Q} (hr : r ∈ rows) (ht : t ∈ rows) {s : String} (hrs : r c = .text s)
    (hts : t c = .text s) : r = t := by
  by_contra hne
  have symmetric : Std.Symm fun r t : Row C Q => ∀ s, ¬ (r c = .text s ∧ t c = .text s) :=
    ⟨fun r t h s hs => h s hs.symm⟩
  exact (keyed.pairwise unique).forall hr ht hne s ⟨hrs, hts⟩

omit [Table C] in
theorem agreeOn_congr {key : List C} {r r' t t' : Row C Q} (hr : ∀ c ∈ key, r' c = r c)
    (ht : ∀ c ∈ key, t' c = t c) : agreeOn key r' t' = agreeOn key r t := by
  unfold agreeOn
  rw [Bool.eq_iff_iff, List.all_eq_true, List.all_eq_true]
  refine forall₂_congr fun c hc => ?_
  rw [hr c hc, ht c hc]

omit [Table C] in
theorem agreeOn_comm (key : List C) (r t : Row C Q) : agreeOn key r t = agreeOn key t r := by
  unfold agreeOn Cell.agrees
  congr 1
  funext c
  cases (r c).isNull <;> cases (t c).isNull <;> simp [Bool.and_comm]

theorem insert_eq_append {r : Row C Q} (h : Table.insert rows r = .ok rows') :
    rows' = rows ++ [r] := by
  unfold Table.insert at h
  split at h
  · cases h
  · cases h
    rfl

theorem insert_eq_ok {r : Row C Q} (h : violation? rows r = none) :
    Table.insert rows r = .ok (rows ++ [r]) := by
  unfold Table.insert
  rw [h]

theorem missing?_of_violation? {r : Row C Q} (h : violation? rows r = none) :
    missing? r = none := by
  unfold violation? at h
  split at h
  · cases h
  · assumption

theorem missing?_of_insert {r : Row C Q} (h : Table.insert rows r = .ok rows') :
    missing? r = none := by
  unfold Table.insert at h
  split at h
  · cases h
  · exact missing?_of_violation? ‹_›

theorem updateWhere_eq_ok_iff {picks : Row C Q → Bool} {change : Row C Q → Row C Q} :
    updateWhere picks change rows = .ok rows' ↔ updateViolation? picks change [] rows = none ∧
      rows' = rows.map fun r => if picks r then change r else r := by
  unfold updateWhere
  constructor
  · intro h
    split at h
    · cases h
    · cases h
      exact ⟨‹_›, rfl⟩
  · rintro ⟨h, rfl⟩
    rw [h]

/-- A row that is added agrees with no other one on a key. -/
theorem Keyed.insert (keyed : Keyed rows) {r : Row C Q} (h : Table.insert rows r = .ok rows') :
    Keyed rows' := by
  unfold Table.insert at h
  split at h
  · cases h
  · next hviolation =>
    cases h
    unfold violation? at hviolation
    split at hviolation
    · cases hviolation
    · rw [Option.map_eq_none_iff, List.find?_eq_none] at hviolation
      intro key hkey
      rw [List.pairwise_append]
      refine ⟨keyed key hkey, List.pairwise_singleton _ r, ?_⟩
      intro t ht t' ht'
      obtain rfl := List.mem_singleton.mp ht'
      have hnone := hviolation key hkey
      rw [List.any_eq_true] at hnone
      rw [agreeOn_comm, ← Bool.not_eq_true]
      exact fun hagree => hnone ⟨t, ht, hagree⟩

theorem Keyed.of_forall₂ (keyed : Keyed rows)
    (h : List.Forall₂ (fun r r' => ∀ key ∈ (uniqueKeys : List (List C)), ∀ c ∈ key, r' c = r c)
      rows rows') : Keyed rows' := by
  intro key hkey
  refine pairwise_of_forall₂ h ?_ (keyed key hkey)
  intro r r' t t' hr ht hrt
  rw [agreeOn_congr (hr key hkey) (ht key hkey)]
  exact hrt

/-- What writes other columns than those of the keys keeps the keys. -/
theorem Keyed.map (keyed : Keyed rows) {write : Row C Q → Row C Q} (columns : List C)
    (other : ∀ key ∈ (uniqueKeys : List (List C)), ∀ c ∈ key, c ∉ columns)
    (same : ∀ r, ∀ c ∉ columns, write r c = r c) : Keyed (rows.map write) := by
  refine keyed.of_forall₂ (forall₂_map_self fun r _ => ?_)
  intro key hkey c hc
  exact same r c (other key hkey c hc)

end Table

theorem Store.orFault_eq_ok_iff {α : Type} {x : Except Violation α} {a : α} :
    Store.orFault x = .ok a ↔ x = .ok a := by
  cases x <;> simp [Store.orFault]

/-- The orders and the operations of a store keep their unique keys. -/
structure Store.Keyed [Quantity Q] (s : Store Q) : Prop where
  orders : Table.Keyed s.orders
  operations : Table.Keyed s.operations

end Workshop
