/-
  Workshop/Proofs/Quantity/Summing.lean
  =====================================
  **Sums of hours are numbers.**  Hours that are not negative add up to hours that are not
  negative, though the sum may be infinite (`Quantity.Summing`).  So a compensated sum of
  such hours is a number (`Quantity.compensatedSum_number`), and on rationals, where
  nothing is lost to rounding, it is the plain sum (`Quantity.compensatedSum_rat`).
-/
import Workshop.Proofs.Quantity.BinaryAccumulation
import Mathlib.Algebra.BigOperators.Group.List.Basic

namespace Workshop

namespace Quantity

variable {Q : Type} [Quantity Q]

/-- What compares is a number, numbers compare one way or the other, and a sum is a number
    when a finite quantity is added to one, or two that are not negative are added. -/
class Summing (Q : Type) [Quantity Q] : Prop where
  number_of_le : ∀ {x y : Q}, x ≤ y → y ≤ y
  le_of_not_lt : ∀ {x y : Q}, x ≤ x → y ≤ y → ¬ x < y → y ≤ x
  number_add : ∀ {x h : Q}, x ≤ x → isFinite h = true → x + h ≤ x + h
  add_nonneg : ∀ {x y : Q}, zero ≤ x → zero ≤ y → zero ≤ x + y

theorem number_of_isFinite [Ordered Q] {x : Q} (h : isFinite x = true) : x ≤ x := by
  by_contra hx
  exact Ordered.lt_irrefl x (Ordered.lt_of_not_le h h hx)

theorem isNaN_eq_false {x : Q} (h : x ≤ x) : isNaN x = false := by simp [isNaN, h]

/-! ### Compensated sums -/

/-- The part of a sum that rounding loses. -/
def lostIn (total x : Q) : Q :=
  if magnitude x < magnitude total then (total - (total + x)) + x else (x - (total + x)) + total

/-- The total so far and what has been lost, after some more hours. -/
def gather (acc : Q × Q) (xs : List Q) : Q × Q :=
  xs.foldl (fun acc x => (acc.1 + x, acc.2 + lostIn acc.1 x)) acc

theorem compensatedSum_eq (xs : List Q) : compensatedSum xs =
    if isFinite (gather (zero, zero) xs).2 then
      (gather (zero, zero) xs).1 + (gather (zero, zero) xs).2
    else (gather (zero, zero) xs).1 := rfl

theorem zero_le_gather [Summing Q] {xs : List Q} (h : ∀ x ∈ xs, zero ≤ x) {acc : Q × Q}
    (hacc : zero ≤ acc.1) : zero ≤ (gather acc xs).1 := by
  induction xs generalizing acc with
  | nil => exact hacc
  | cons x xs ih =>
    have hx := h x List.mem_cons_self
    exact ih (fun y hy => h y (List.mem_cons_of_mem x hy)) (Summing.add_nonneg hacc hx)

/-- A compensated sum of hours that are not negative is a number, whatever rounding loses. -/
theorem compensatedSum_number [Ordered Q] [Summing Q] {xs : List Q} (h : ∀ x ∈ xs, zero ≤ x) :
    compensatedSum xs ≤ compensatedSum xs := by
  have hzero : zero ≤ (zero : Q) := number_of_isFinite Ordered.isFinite_zero
  have htotal : (gather (zero, zero) xs).1 ≤ (gather (zero, zero) xs).1 :=
    Summing.number_of_le (zero_le_gather h hzero)
  rw [compensatedSum_eq]
  split
  · next hlost => exact Summing.number_add htotal hlost
  · exact htotal

end Quantity

/-! ### Rationals -/

instance : Quantity.Summing Rat where
  number_of_le _ := le_refl _
  le_of_not_lt _ _ h := not_lt.mp h
  number_add _ _ := le_refl _
  add_nonneg hx hy := add_nonneg hx hy

namespace Quantity

theorem lostIn_rat (total x : Rat) : lostIn total x = 0 := by
  unfold lostIn
  split <;> ring

theorem gather_rat (total : Rat) (xs : List Rat) : gather (total, 0) xs = (total + xs.sum, 0) := by
  induction xs generalizing total with
  | nil => simp [gather]
  | cons x xs ih =>
    have hstep : gather (total, 0) (x :: xs) = gather (total + x, 0 + lostIn total x) xs := rfl
    rw [hstep, lostIn_rat, add_zero, ih, List.sum_cons, add_assoc]

theorem compensatedSum_rat (xs : List Rat) : compensatedSum xs = xs.sum := by
  have hgather : gather ((zero : Rat), (zero : Rat)) xs = (0 + xs.sum, 0) := gather_rat 0 xs
  rw [compensatedSum_eq, hgather, zero_add]
  split
  · exact add_zero _
  · rfl

end Quantity

/-! ### Doubles -/

namespace Binary

open Float.Model (UnpackedFloat Format)
open Float.Model.UnpackedFloat

theorem add_infinity_right {a : UnpackedFloat} {u : Int} (h : Counts a u) (s : Sign) :
    add Format.binary64 a (.infinity s) = .infinity s := by
  cases h <;> rfl

/-- A number or an infinity stays one when a number is added. -/
theorem exists_lies_add_counts {a b : UnpackedFloat} {p v : Int} (ha : Lies a p)
    (hb : Counts b v) : ∃ q, Lies (Float.Model.pack (add Format.binary64 a b)).unpack q := by
  cases ha with
  | top =>
    rw [add_infinity _ hb, unpack_infinity]
    exact ⟨_, .top⟩
  | bot =>
    rw [add_infinity _ hb, unpack_infinity]
    exact ⟨_, .bot⟩
  | number ha =>
    obtain ⟨r, hr, -⟩ := rounds_add ha hb
    exact ⟨_, lies_pack hr⟩

theorem exists_lies_add_nonneg {a b : UnpackedFloat} {p q : Int} (ha : Lies a p) (hb : Lies b q)
    (hp : 0 ≤ p) (hq : 0 ≤ q) :
    ∃ r, Lies (Float.Model.pack (add Format.binary64 a b)).unpack r ∧ 0 ≤ r := by
  have hpos := beyond_pos
  cases hb with
  | top =>
    refine ⟨beyond, ?_, hpos.le⟩
    cases ha with
    | top => exact .top
    | bot => omega
    | number ha =>
      rw [add_infinity_right ha, unpack_infinity]
      exact .top
  | bot => omega
  | number hb =>
    obtain ⟨r, hr, hle⟩ := exists_lies_add ha hb hq
    exact ⟨r, hr, hp.trans hle⟩

theorem zero_le_iff {x : Float} : Quantity.zero ≤ x ↔ ∃ p, Lies x.toModel.unpack p ∧ 0 ≤ p := by
  constructor
  · intro h
    obtain ⟨z, p, hz, hp, hle⟩ := exists_lies_of_le h
    rw [unpack_zero] at hz
    rw [hz.unique (lies_zero _)] at hle
    exact ⟨p, hp, hle⟩
  · rintro ⟨p, hp, hle⟩
    exact le_of_lies (unpack_zero ▸ lies_zero _) hp hle

end Binary

open Binary in
instance : Quantity.Summing Float where
  number_of_le h := by
    obtain ⟨-, q, -, hq, -⟩ := exists_lies_of_le h
    exact le_of_lies hq hq le_rfl
  le_of_not_lt {x y} hx hy h := by
    obtain ⟨p, -, hp, -, -⟩ := exists_lies_of_le hx
    obtain ⟨q, -, hq, -, -⟩ := exists_lies_of_le hy
    obtain ⟨o, ho⟩ := exists_compare hp.ne_notANumber hq.ne_notANumber
    rw [lt_iff, ho] at h
    rw [le_iff, compare_swap, ho]
    cases o <;> simp_all [Ordering.isLE]
  number_add {x h} hx hf := by
    obtain ⟨p, -, hp, -, -⟩ := exists_lies_of_le hx
    obtain ⟨v, hv, -⟩ := exists_counts_of_isFinite hf
    obtain ⟨q, hq⟩ := exists_lies_add_counts hp hv
    rw [← unpack_add] at hq
    exact le_of_lies hq hq le_rfl
  add_nonneg {x y} hx hy := by
    obtain ⟨p, hp, hzp⟩ := zero_le_iff.mp hx
    obtain ⟨q, hq, hzq⟩ := zero_le_iff.mp hy
    obtain ⟨r, hr, hzr⟩ := exists_lies_add_nonneg hp hq hzp hzq
    rw [← unpack_add] at hr
    exact zero_le_iff.mpr ⟨r, hr, hzr⟩

end Workshop
