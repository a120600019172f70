/-
  Workshop/Proofs/Quantity/Ordered.lean
  =====================================
  **The order of quantities.**  What execution and scheduling rely on when they compare
  quantities: no quantity is below itself, a quantity that is below another is not above
  it, and of two finite quantities one is at most the other (`Quantity.Ordered`).

  Doubles have no total order: nothing compares with what is no number.  Their laws are
  read off the comparison of their unpacked forms, which changes its verdict to the
  opposite one when the sides change (`Binary.compare_swap`).
-/
import Workshop.Quantity.Binary
import Workshop.Quantity.Exact

namespace Workshop

/-- The laws of comparison that hold although a quantity need not be a number. -/
class Quantity.Ordered (Q : Type) [Quantity Q] : Prop where
  lt_irrefl : ∀ x : Q, ¬ x < x
  le_of_lt : ∀ {x y : Q}, x < y → x ≤ y
  lt_of_not_le : ∀ {x y : Q}, Quantity.isFinite x = true → Quantity.isFinite y = true →
    ¬ x ≤ y → y < x
  isFinite_zero : Quantity.isFinite (Quantity.zero : Q) = true

namespace Quantity

variable {Q : Type} [Quantity Q] [Ordered Q]

theorem not_lt_of_not_le {x y : Q} (h : ¬ x ≤ y) : ¬ x < y := fun hlt => h (Ordered.le_of_lt hlt)

theorem pos_of_not_le_zero {x : Q} (hf : isFinite x = true) (h : ¬ x ≤ zero) : zero < x :=
  Ordered.lt_of_not_le hf Ordered.isFinite_zero h

end Quantity

/-! ### Doubles -/

namespace Binary

open Float.Model (UnpackedFloat)
open Float.Model.UnpackedFloat (Sign)

theorem compare_swap (a b : UnpackedFloat) : b.compare a = (a.compare b).map Ordering.swap := by
  cases a with
  | notANumber => cases b <;> rfl
  | infinity s =>
    cases b with
    | infinity t => cases s <;> cases t <;> rfl
    | notANumber => cases s <;> rfl
    | zero t => cases s <;> rfl
    | finite t n f k => cases s <;> cases t <;> rfl
  | zero s =>
    cases b with
    | infinity t => cases t <;> rfl
    | notANumber => rfl
    | zero t => rfl
    | finite t n f k => cases t <;> rfl
  | finite s m e h =>
    cases b with
    | infinity t => cases t <;> cases s <;> rfl
    | notANumber => cases s <;> rfl
    | zero t => cases s <;> rfl
    | finite t n f k =>
      have swap : ((compare e f).then (compare m n)).swap =
          (compare f e).then (compare n m) := by
        rw [Ordering.swap_then, Int.compare_swap, Nat.compare_swap]
      cases s with
      | positive =>
        cases t with
        | positive => exact congrArg some swap.symm
        | negative => rfl
      | negative =>
        cases t with
        | positive => rfl
        | negative => exact congrArg (some ·.swap) swap.symm

theorem exists_compare {a b : UnpackedFloat} (ha : a ≠ .notANumber) (hb : b ≠ .notANumber) :
    ∃ o, a.compare b = some o := by
  cases a with
  | notANumber => exact absurd rfl ha
  | infinity s =>
    cases b with
    | infinity t => cases s <;> cases t <;> exact ⟨_, rfl⟩
    | notANumber => exact absurd rfl hb
    | zero t => cases s <;> exact ⟨_, rfl⟩
    | finite t n f k => cases s <;> exact ⟨_, rfl⟩
  | zero s =>
    cases b with
    | infinity t => cases t <;> exact ⟨_, rfl⟩
    | notANumber => exact absurd rfl hb
    | zero t => exact ⟨_, rfl⟩
    | finite t n f k => cases t <;> exact ⟨_, rfl⟩
  | finite s m e h =>
    cases b with
    | infinity t => cases s <;> cases t <;> exact ⟨_, rfl⟩
    | notANumber => exact absurd rfl hb
    | zero t => cases s <;> exact ⟨_, rfl⟩
    | finite t n f k => cases s <;> cases t <;> exact ⟨_, rfl⟩

theorem lt_iff {x y : Float} : x < y ↔ x.toModel.unpack.compare y.toModel.unpack = some .lt := by
  change decide (x.toModel < y.toModel) = true ↔ _
  rw [decide_eq_true_iff]
  exact beq_iff_eq

theorem le_iff {x y : Float} :
    x ≤ y ↔ (x.toModel.unpack.compare y.toModel.unpack).any Ordering.isLE = true := by
  change decide (x.toModel ≤ y.toModel) = true ↔ _
  exact decide_eq_true_iff

/-- Not all bits of the exponent are set in a double with an exact value. -/
theorem unpackExponent_ne_last {x : Float} (h : Quantity.isFinite x = true) :
    ¬ @Float.Model.UnpackedFloat.unpackExponent Float.Model.Format.binary64
      x.toModel.toBits.toBitVec = -1#11 := by
  intro hexp
  have hbits : x.toBits.toNat / Nat.pow 2 52 % Nat.pow 2 11 = 2047 := by
    have := congrArg BitVec.toNat hexp
    change x.toModel.toBits.toNat / Nat.pow 2 52 % Nat.pow 2 11 = 2047
    simpa [Float.Model.UnpackedFloat.unpackExponent, Nat.shiftRight_eq_div_pow] using this
  change (fraction? x).isSome = true at h
  unfold fraction? parts? at h
  simp [hbits] at h

theorem unpack_ne_notANumber {x : Float} (h : Quantity.isFinite x = true) :
    x.toModel.unpack ≠ .notANumber := by
  intro hn
  unfold Float.Model.unpack Float.Model.UnpackedFloat.unpack at hn
  rw [if_neg (unpackExponent_ne_last h)] at hn
  by_cases hzero : @Float.Model.UnpackedFloat.unpackExponent Float.Model.Format.binary64
      x.toModel.toBits.toBitVec = 0#11
  · rw [if_pos hzero] at hn
    by_cases hmantissa : @Float.Model.UnpackedFloat.unpackMantissa Float.Model.Format.binary64
        x.toModel.toBits.toBitVec = 0#52
    · rw [dif_pos hmantissa] at hn
      cases hn
    · rw [dif_neg hmantissa] at hn
      cases hn
  · rw [if_neg hzero] at hn
    cases hn

end Binary

instance : Quantity.Ordered Float where
  lt_irrefl x h := by
    rw [Binary.lt_iff] at h
    have swapped := Binary.compare_swap x.toModel.unpack x.toModel.unpack
    rw [h] at swapped
    cases swapped
  le_of_lt h := by
    rw [Binary.lt_iff] at h
    rw [Binary.le_iff, h]
    rfl
  lt_of_not_le {x y} hx hy h := by
    obtain ⟨o, ho⟩ := Binary.exists_compare (Binary.unpack_ne_notANumber hx)
      (Binary.unpack_ne_notANumber hy)
    rw [Binary.le_iff, ho] at h
    rw [Binary.lt_iff, Binary.compare_swap, ho]
    cases o <;> simp_all [Ordering.isLE]
  isFinite_zero := by decide

/-! ### Rationals -/

instance : Quantity.Ordered Rat where
  lt_irrefl _ := Rat.lt_irrefl
  le_of_lt h := Rat.le_of_lt h
  lt_of_not_le _ _ h := Rat.not_le.mp h
  isFinite_zero := rfl

end Workshop
