/-
  Workshop/Proofs/Quantity/Zero.lean
  ==================================
  **Zeros with and without a sign.**  A quantity is kept as its sum with zero, and the sum
  is the quantity itself unless that is a zero: then only its sign can change
  (`Quantity.LawfulZero`).

  A double is taken apart into its sign, exponent and mantissa without loss
  (`Binary.pack_unpack`), and a sum with zero hands on the parts of the other side.
-/
import Workshop.Proofs.Quantity.Ordered
import Mathlib.Algebra.Group.Nat.Defs

namespace Workshop

namespace Quantity

variable {Q : Type} [Quantity Q]

/-- The quantity compares as zero does. -/
def IsZero (x : Q) : Prop := x ≤ zero ∧ zero ≤ x

/-- The same quantity, apart from the sign of a zero. -/
def Alike (x y : Q) : Prop := x = y ∨ IsZero x ∧ IsZero y

theorem Alike.refl (x : Q) : Alike x x := Or.inl rfl

/-- The law by which quantities are kept: adding zero changes at most the sign of a zero. -/
class LawfulZero (Q : Type) [Quantity Q] : Prop where
  add_zero_alike : ∀ x : Q, Alike (x + zero) x

/-- The laws by which reported numbers are checked: a quantity that is at most another one
    is not above it, and what compares as zero is finite. -/
class Checked (Q : Type) [Quantity Q] : Prop where
  not_lt_of_le : ∀ {x y : Q}, x ≤ y → ¬ y < x
  isFinite_of_isZero : ∀ {x : Q}, IsZero x → isFinite x = true

end Quantity

/-! ### Doubles -/

namespace Binary

open Float.Model (UnpackedFloat Format)
open Float.Model.UnpackedFloat

theorem toBitVec_ofBitVec (b : BitVec 1) : (Sign.ofBitVec b).toBitVec = b := by
  revert b
  decide

theorem packComponents_unpack (b : BitVec Format.binary64.numBits) :
    packComponents Format.binary64 (Sign.ofBitVec (unpackSign b)) (unpackExponent b)
      (unpackMantissa b) = b := by
  unfold packComponents
  rw [toBitVec_ofBitVec]
  change b.extractLsb' 63 1 ++ b.extractLsb' 52 11 ++ b.extractLsb' 0 52 = b
  have hhigh : b.extractLsb' 63 1 ++ b.extractLsb' 52 11 = b.extractLsb' 52 12 :=
    BitVec.extractLsb'_append_extractLsb'_eq_extractLsb' rfl
  have hall : b.extractLsb' 52 12 ++ b.extractLsb' 0 52 = b.extractLsb' 0 64 :=
    BitVec.extractLsb'_append_extractLsb'_eq_extractLsb' rfl
  rw [hhigh]
  exact hall.trans BitVec.extractLsb'_eq_self

theorem finite_congr {s t : Sign} {m n : Nat} {e f : Int} {hm : 0 < m} {hn : 0 < n}
    (hs : s = t) (h : m = n) (h' : e = f) :
    UnpackedFloat.finite s m e hm = .finite t n f hn := by
  subst hs h h'
  rfl

section Parts

variable {b : BitVec Format.binary64.numBits} {s : Sign}
  (hsign : Sign.ofBitVec (unpackSign b) = s)

include hsign

theorem unpack_first {m : Nat} (hm : 0 < m) (hfirst : unpackExponent b = 0#11)
    (hmantissa : (unpackMantissa b).toNat = m) :
    unpack Format.binary64 b = .finite s m (((0 : Nat) : Int) - 1074) hm := by
  have hlast : ¬ unpackExponent b = -1#11 := by
    rw [hfirst]
    decide
  have hne : ¬ unpackMantissa b = 0#52 := by
    intro h
    rw [h] at hmantissa
    change 0 = m at hmantissa
    omega
  unfold unpack
  dsimp only
  rw [if_neg hlast, if_pos hfirst, dif_neg hne]
  apply finite_congr hsign hmantissa
  rw [hfirst]
  rfl

theorem unpack_between {m k : Nat} (hm : 0 < m) (full : 2 ^ 52 ≤ m)
    (hexponent : (unpackExponent b).toNat = k + 1) (hk : k < 2046)
    (hmantissa : (unpackMantissa b).toNat = m - 2 ^ 52) :
    unpack Format.binary64 b = .finite s m ((k : Int) - 1074) hm := by
  have hlast : ¬ unpackExponent b = -1#11 := by
    intro h
    rw [h] at hexponent
    change 2047 = k + 1 at hexponent
    omega
  have hfirst : ¬ unpackExponent b = 0#11 := by
    intro h
    rw [h] at hexponent
    cases hexponent
  unfold unpack
  dsimp only
  rw [if_neg hlast, if_neg hfirst]
  apply finite_congr hsign
  · have hless : (unpackMantissa b).toNat < 2 ^ 52 := (unpackMantissa b).isLt
    rw [BitVec.toNat_append]
    exact (Nat.shiftLeft_add_eq_or_of_lt hless 1).symm.trans (by omega)
  · rw [hexponent]
    change ((k + 1 : Nat) : Int) - (1023 + 52) = _
    omega

end Parts

/-- A number is kept with its exponent counted from one, and becomes infinite when that is
    too great. -/
theorem pack_finite (s : Sign) {m : Nat} (k : Nat) (hm : 0 < m) :
    pack Format.binary64 (.finite s m ((k : Int) - 1074) hm) =
      if 2 ^ 11 ≤ k + 1 + 1 then packedInfinity Format.binary64 s
      else if m.log2 + 1 = 53 then
        packComponents Format.binary64 s (.ofNat 11 (k + 1)) (.ofNat 52 m)
      else packComponents Format.binary64 s 0#11 (.ofNat 52 m) := by
  have hbiased : ((k : Int) - 1074 + 1023 + 52).toNat = k + 1 := by omega
  rw [← hbiased]
  rfl

/-- Infinities and the undefined number have the last exponent. -/
theorem pack_unpack_last {b : BitVec Format.binary64.numBits} (valid : Format.binary64.Valid b)
    (hlast : unpackExponent b = -1#11) :
    pack Format.binary64 (unpack Format.binary64 b) = b := by
  have hparts := packComponents_unpack b
  unfold unpack
  dsimp only
  rw [if_pos hlast]
  by_cases hmantissa : unpackMantissa b = 0#52
  · rw [if_pos hmantissa]
    rw [hlast, hmantissa] at hparts
    exact hparts
  · rw [if_neg hmantissa]
    exact (valid.eq_packedNaN hlast hmantissa).symm

/-- Zeros, and numbers with a mantissa of fewer bits, have the first exponent. -/
theorem pack_unpack_first {b : BitVec Format.binary64.numBits}
    (hfirst : unpackExponent b = 0#11) :
    pack Format.binary64 (unpack Format.binary64 b) = b := by
  have hparts := packComponents_unpack b
  rw [hfirst] at hparts
  by_cases hmantissa : unpackMantissa b = 0#52
  · have hlast : ¬ unpackExponent b = -1#11 := by
      rw [hfirst]
      decide
    rw [hmantissa] at hparts
    unfold unpack
    dsimp only
    rw [if_neg hlast, if_pos hfirst, dif_pos hmantissa]
    exact hparts
  · have hne : (unpackMantissa b).toNat ≠ 0 := fun h => hmantissa (BitVec.eq_of_toNat_eq h)
    have hlog : (unpackMantissa b).toNat.log2 < 52 :=
      (Nat.log2_lt hne).mpr (unpackMantissa b).isLt
    rw [unpack_first rfl (Nat.pos_of_ne_zero hne) hfirst rfl, pack_finite, if_neg (by decide),
      if_neg (by omega), BitVec.ofNat_toNat, BitVec.setWidth_eq]
    exact hparts

/-- The leading bit of the mantissa of all other numbers is not stored. -/
theorem pack_unpack_between {b : BitVec Format.binary64.numBits}
    (hlast : ¬ unpackExponent b = -1#11) (hfirst : ¬ unpackExponent b = 0#11) :
    pack Format.binary64 (unpack Format.binary64 b) = b := by
  have hm : (unpackMantissa b).toNat < 2 ^ 52 := (unpackMantissa b).isLt
  have hlt : (unpackExponent b).toNat < 2 ^ 11 := (unpackExponent b).isLt
  have hzero : (unpackExponent b).toNat ≠ 0 := fun h => hfirst (BitVec.eq_of_toNat_eq h)
  have hne : (unpackExponent b).toNat ≠ 2047 := fun h => hlast (BitVec.eq_of_toNat_eq h)
  have hlog : (2 ^ 52 + (unpackMantissa b).toNat).log2 = 52 :=
    (Nat.log2_eq_iff (by omega)).mpr ⟨by omega, by omega⟩
  have hexponent : BitVec.ofNat 11 ((unpackExponent b).toNat - 1 + 1) = unpackExponent b := by
    refine BitVec.eq_of_toNat_eq ?_
    rw [BitVec.toNat_ofNat]
    omega
  have hmantissa : BitVec.ofNat 52 (2 ^ 52 + (unpackMantissa b).toNat) = unpackMantissa b := by
    refine BitVec.eq_of_toNat_eq ?_
    rw [BitVec.toNat_ofNat]
    omega
  have hpos : 0 < 2 ^ 52 + (unpackMantissa b).toNat := by omega
  rw [unpack_between (k := (unpackExponent b).toNat - 1) rfl hpos (by omega) (by omega)
    (by omega) (by omega), pack_finite, if_neg (by omega), hlog, if_pos rfl, hexponent, hmantissa]
  exact packComponents_unpack b

theorem pack_unpack_bits {b : BitVec Format.binary64.numBits} (valid : Format.binary64.Valid b) :
    pack Format.binary64 (unpack Format.binary64 b) = b := by
  by_cases hlast : unpackExponent b = -1#11
  · exact pack_unpack_last valid hlast
  · by_cases hfirst : unpackExponent b = 0#11
    · exact pack_unpack_first hfirst
    · exact pack_unpack_between hlast hfirst

/-- A double is found again from its parts. -/
theorem pack_unpack (x : Float.Model) : Float.Model.pack x.unpack = x := by
  obtain ⟨bits, valid⟩ := x
  unfold Float.Model.pack
  congr 1
  refine UInt64.eq_of_toBitVec_eq ?_
  exact pack_unpack_bits valid

theorem unpack_zero : (Quantity.zero : Float).toModel.unpack = .zero .positive := by rfl

theorem isZero_of_unpack {x : Float} {s : Sign} (h : x.toModel.unpack = .zero s) :
    Quantity.IsZero x := by
  constructor
  · rw [le_iff, h, unpack_zero]
    rfl
  · rw [le_iff, h, unpack_zero]
    rfl

theorem exists_unpack_of_isZero {x : Float} (h : Quantity.IsZero x) :
    ∃ s, x.toModel.unpack = .zero s := by
  obtain ⟨hle, hge⟩ := h
  rw [le_iff, unpack_zero] at hle hge
  revert hle hge
  cases x.toModel.unpack with
  | zero s => exact fun _ _ => ⟨s, rfl⟩
  | notANumber => exact fun hle _ => absurd hle (by decide)
  | infinity s =>
    cases s with
    | positive => exact fun hle _ => absurd hle (by decide)
    | negative => exact fun _ hge => absurd hge (by decide)
  | finite s m e hm =>
    cases s with
    | positive => exact fun hle _ => absurd hle Bool.false_ne_true
    | negative => exact fun _ hge => absurd hge Bool.false_ne_true

theorem isFinite_of_unpack {x : Float} {s : Sign} (h : x.toModel.unpack = .zero s) :
    Quantity.isFinite x = true := by
  have hlast : ¬ @unpackExponent Format.binary64 x.toModel.toBits.toBitVec = -1#11 := by
    intro hlast
    unfold Float.Model.unpack unpack at h
    dsimp only at h
    rw [if_pos hlast] at h
    split at h <;> cases h
  have hbits : ¬ x.toBits.toNat / Nat.pow 2 52 % Nat.pow 2 11 = 2047 := by
    intro hbits
    apply hlast
    refine BitVec.eq_of_toNat_eq ?_
    change x.toModel.toBits.toNat / Nat.pow 2 52 % Nat.pow 2 11 = 2047 at hbits
    simpa [unpackExponent, Nat.shiftRight_eq_div_pow] using hbits
  change (fraction? x).isSome = true
  unfold fraction? parts?
  dsimp only
  rw [if_neg hbits]
  split <;> rfl

theorem add_zero_toModel (x : Float) : (x + Quantity.zero).toModel =
    Float.Model.pack (add Format.binary64 x.toModel.unpack (.zero .positive)) := by
  rw [← unpack_zero]
  rfl

theorem add_zeros (s : Sign) :
    add Format.binary64 (.zero s) (.zero .positive) = .zero .positive := by
  cases s <;> rfl

theorem add_zero_of_unpack {x : Float}
    (h : add Format.binary64 x.toModel.unpack (.zero .positive) = x.toModel.unpack) :
    x + Quantity.zero = x := by
  have hmodel := add_zero_toModel x
  rw [h, pack_unpack] at hmodel
  exact congrArg Float.ofModel hmodel

end Binary

instance : Quantity.LawfulZero Float where
  add_zero_alike x := by
    have hmodel := Binary.add_zero_toModel x
    cases hx : x.toModel.unpack with
    | notANumber => exact Or.inl (Binary.add_zero_of_unpack (by rw [hx]; rfl))
    | infinity s => exact Or.inl (Binary.add_zero_of_unpack (by rw [hx]; rfl))
    | finite s m e h => exact Or.inl (Binary.add_zero_of_unpack (by rw [hx]; rfl))
    | zero s =>
      right
      rw [hx, Binary.add_zeros] at hmodel
      refine ⟨Binary.isZero_of_unpack (s := .positive) ?_, Binary.isZero_of_unpack hx⟩
      rw [hmodel]
      rfl

instance : Quantity.Checked Float where
  not_lt_of_le {x y} hle hlt := by
    rw [Binary.le_iff] at hle
    rw [Binary.lt_iff, Binary.compare_swap] at hlt
    revert hle hlt
    cases x.toModel.unpack.compare y.toModel.unpack with
    | none => simp
    | some o => cases o <;> simp [Ordering.isLE]
  isFinite_of_isZero h := by
    obtain ⟨s, hs⟩ := Binary.exists_unpack_of_isZero h
    exact Binary.isFinite_of_unpack hs

/-! ### Rationals -/

instance : Quantity.Checked Rat where
  not_lt_of_le h := Rat.not_lt.mpr h
  isFinite_of_isZero _ := rfl

instance : Quantity.LawfulZero Rat where
  add_zero_alike x := Or.inl (Rat.add_zero x)

end Workshop
