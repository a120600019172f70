/-
  Workshop/Proofs/Quantity/Places.lean
  ====================================
  **Doubles as points of a line.**  Doubles compare as their units do
  (`Binary.compare_of_counts`).  With the infinities next to all numbers, each double has a
  place that it compares by, except what is no number (`Binary.isLE_iff_of_lies`).

  A sum is packed before it is compared.  Packing keeps what is below the greatest double
  and makes an infinity of the rest, so a packed sum lies at its clipped number of units
  (`Binary.lies_pack`).
-/
import Workshop.Proofs.Quantity.Rounding

namespace Workshop

namespace Binary

open Float.Model (UnpackedFloat Format)
open Float.Model.UnpackedFloat

/-! ### Order -/

/-- The number with the greater exponent has a full mantissa and is greater. -/
theorem mantissa_lt {m n k i : Nat} (fits : m < 2 ^ 53) (full : 2 ^ 52 ≤ n ∨ i = 0) (h : k < i) :
    (m : Int) * 2 ^ k < n * 2 ^ i := by
  have hn : 2 ^ 52 ≤ n := by omega
  have hlow : m * 2 ^ k < 2 ^ 53 * 2 ^ k := Nat.mul_lt_mul_of_pos_right fits (Nat.two_pow_pos k)
  have hmid : 2 ^ 53 * 2 ^ k ≤ 2 ^ 52 * 2 ^ i := by
    rw [← pow_add, ← pow_add]
    exact Nat.pow_le_pow_right (by decide) (by omega)
  have hhigh : 2 ^ 52 * 2 ^ i ≤ n * 2 ^ i := Nat.mul_le_mul_right _ hn
  exact_mod_cast Nat.lt_of_lt_of_le hlow (Nat.le_trans hmid hhigh)

theorem compare_units {m n k i : Nat} (fits : m < 2 ^ 53) (full : 2 ^ 52 ≤ m ∨ k = 0)
    (fits' : n < 2 ^ 53) (full' : 2 ^ 52 ≤ n ∨ i = 0) :
    (compare ((k : Int) - 1074) ((i : Int) - 1074)).then (compare m n) =
      compare ((m : Int) * 2 ^ k) (n * 2 ^ i) := by
  rcases lt_trichotomy k i with h | rfl | h
  · rw [compare_lt_iff_lt.mpr (show (k : Int) - 1074 < i - 1074 by omega),
      compare_lt_iff_lt.mpr (mantissa_lt fits full' h)]
    rfl
  · have hpos : (0 : Int) < 2 ^ k := by positivity
    rw [compare_eq_iff_eq.mpr rfl]
    rcases lt_trichotomy m n with h | rfl | h
    · rw [compare_lt_iff_lt.mpr h, compare_lt_iff_lt.mpr
        (Int.mul_lt_mul_of_pos_right (Int.ofNat_lt.mpr h) hpos)]
      rfl
    · rw [compare_eq_iff_eq.mpr rfl, compare_eq_iff_eq.mpr rfl]
      rfl
    · rw [compare_gt_iff_gt.mpr h, compare_gt_iff_gt.mpr
        (Int.mul_lt_mul_of_pos_right (Int.ofNat_lt.mpr h) hpos)]
      rfl
  · rw [compare_gt_iff_gt.mpr (show (i : Int) - 1074 < k - 1074 by omega),
      compare_gt_iff_gt.mpr (mantissa_lt fits' full h)]
    rfl

theorem compare_neg_neg (a b : Int) : compare (-a) (-b) = compare b a := by
  rcases lt_trichotomy a b with h | rfl | h
  · rw [compare_gt_iff_gt.mpr h, compare_gt_iff_gt.mpr (Int.neg_lt_neg h)]
  · rw [compare_eq_iff_eq.mpr rfl, compare_eq_iff_eq.mpr rfl]
  · rw [compare_lt_iff_lt.mpr h, compare_lt_iff_lt.mpr (Int.neg_lt_neg h)]

theorem units_pos {m k : Nat} (hm : 0 < m) : (0 : Int) < m * 2 ^ k := by positivity

theorem compare_of_counts {a b : UnpackedFloat} {u v : Int} (ha : Counts a u)
    (hb : Counts b v) : a.compare b = some (compare u v) := by
  cases ha with
  | zero s =>
    cases hb with
    | zero t => rfl
    | @finite t n i hn fits full =>
      have hpos := units_pos (k := i) hn
      cases t with
      | positive => exact congrArg some (compare_lt_iff_lt.mpr hpos).symm
      | negative => exact congrArg some (compare_gt_iff_gt.mpr (Int.neg_neg_of_pos hpos)).symm
  | @finite s m k hm fits full =>
    have hpos := units_pos (k := k) hm
    cases hb with
    | zero t =>
      cases s with
      | positive => exact congrArg some (compare_gt_iff_gt.mpr hpos).symm
      | negative => exact congrArg some (compare_lt_iff_lt.mpr (Int.neg_neg_of_pos hpos)).symm
    | @finite t n i hn fits' full' =>
      have hpos' := units_pos (k := i) hn
      have hunits := compare_units fits full fits' full'
      cases s with
      | positive =>
        cases t with
        | positive => exact congrArg some hunits
        | negative =>
          have h : -(n * 2 ^ i) < (m : Int) * 2 ^ k := by omega
          exact congrArg some (compare_gt_iff_gt.mpr h).symm
      | negative =>
        cases t with
        | positive =>
          have h : -((m : Int) * 2 ^ k) < n * 2 ^ i := by omega
          exact congrArg some (compare_lt_iff_lt.mpr h).symm
        | negative =>
          have hswap : compare (-((m : Int) * 2 ^ k)) (-(n * 2 ^ i)) = ((compare ((k : Int) - 1074)
              ((i : Int) - 1074)).then (compare m n)).swap := by
            rw [hunits, Int.compare_swap, compare_neg_neg]
          exact congrArg some hswap.symm

/-! ### Packed numbers -/

theorem unpackSign_packComponents (s : Sign) (e : BitVec 11) (f : BitVec 52) :
    Sign.ofBitVec (unpackSign (packComponents Format.binary64 s e f)) = s := by
  have hbits : (s.toBitVec ++ e ++ f).extractLsb' 63 1 = s.toBitVec := by
    rw [BitVec.extractLsb'_append_eq_of_le (by omega),
      BitVec.extractLsb'_append_eq_of_le (by omega)]
    exact BitVec.extractLsb'_eq_self
  change Sign.ofBitVec ((s.toBitVec ++ e ++ f).extractLsb' 63 1) = s
  rw [hbits]
  cases s <;> rfl

theorem unpack_packedInfinity (s : Sign) :
    unpack Format.binary64 (packedInfinity Format.binary64 s) = .infinity s := by
  cases s <;> rfl

theorem unpack_pack_of_small (s : Sign) {m k : Nat} (hm : 0 < m) (fits : m < 2 ^ 53)
    (full : 2 ^ 52 ≤ m ∨ k = 0) (small : k < 2046) :
    unpack Format.binary64 (pack Format.binary64 (.finite s m ((k : Int) - 1074) hm)) =
      .finite s m ((k : Int) - 1074) hm := by
  rw [pack_finite, if_neg (by omega)]
  by_cases h : 2 ^ 52 ≤ m
  · have hlog : m.log2 = 52 := (Nat.log2_eq_iff hm.ne').mpr ⟨h, fits⟩
    rw [hlog, if_pos rfl]
    apply unpack_between (unpackSign_packComponents _ _ _) hm h _ small
    · rw [unpackMantissa_packComponents, BitVec.toNat_ofNat]
      change m % 2 ^ 52 = m - 2 ^ 52
      omega
    · rw [unpackExponent_packComponents, BitVec.toNat_ofNat]
      change (k + 1) % 2 ^ 11 = k + 1
      omega
  · have hlog : m.log2 < 52 := (Nat.log2_lt hm.ne').mpr (by omega)
    obtain rfl : k = 0 := by omega
    rw [if_neg (by omega)]
    apply unpack_first (unpackSign_packComponents _ _ _) hm
    · rw [unpackExponent_packComponents]
    · rw [unpackMantissa_packComponents, BitVec.toNat_ofNat]
      exact Nat.mod_eq_of_lt (Nat.lt_of_not_le h)

theorem unpack_pack_of_large (s : Sign) {m k : Nat} (hm : 0 < m) (large : 2046 ≤ k) :
    unpack Format.binary64 (pack Format.binary64 (.finite s m ((k : Int) - 1074) hm)) =
      .infinity s := by
  rw [pack_finite, if_pos (by omega)]
  exact unpack_packedInfinity s

/-! ### Places -/

/-- The least number of units that is beyond the greatest double. -/
def beyond : Int := ((2 ^ 52 : Nat) : Int) * 2 ^ 2046

theorem beyond_pos : 0 < beyond := by
  unfold beyond
  positivity

theorem lt_beyond {m k : Nat} (fits : m < 2 ^ 53) (hk : k < 2046) :
    (m : Int) * 2 ^ k < beyond :=
  mantissa_lt (n := 2 ^ 52) fits (Or.inl le_rfl) hk

theorem mul_pow_le {m n k i : Nat} (h : m ≤ n) (hk : k ≤ i) : (m : Int) * 2 ^ k ≤ n * 2 ^ i := by
  have hpow : 2 ^ k ≤ 2 ^ i := Nat.pow_le_pow_right (by decide) hk
  exact_mod_cast Nat.mul_le_mul h hpow

theorem beyond_le {m k : Nat} (full : 2 ^ 52 ≤ m) (hk : 2046 ≤ k) :
    beyond ≤ (m : Int) * 2 ^ k := mul_pow_le full hk

/-- Where a double stands: numbers at their units, and the infinities next to all numbers. -/
inductive Lies : UnpackedFloat → Int → Prop
  | top : Lies (.infinity .positive) beyond
  | bot : Lies (.infinity .negative) (-beyond)
  | number {a : UnpackedFloat} {u : Int} (h : Counts a u) (small : |u| < beyond) : Lies a u

theorem Lies.bounded {a : UnpackedFloat} {p : Int} (h : Lies a p) : -beyond ≤ p ∧ p ≤ beyond := by
  have hpos := beyond_pos
  cases h with
  | top => omega
  | bot => omega
  | number _ small =>
    rw [abs_lt] at small
    omega

theorem Lies.ne_notANumber {a : UnpackedFloat} {p : Int} (h : Lies a p) : a ≠ .notANumber := by
  rintro rfl
  cases h with
  | number h => cases h

/-- Doubles that are numbers or infinite compare as their places do. -/
theorem isLE_iff_of_lies {a b : UnpackedFloat} {p q : Int} (ha : Lies a p) (hb : Lies b q) :
    (a.compare b).any Ordering.isLE = true ↔ p ≤ q := by
  have hpos := beyond_pos
  cases ha with
  | top =>
    cases hb with
    | top => exact iff_of_true rfl le_rfl
    | bot => exact iff_of_false (by decide) (by omega)
    | number hb small =>
      have hcompare : (UnpackedFloat.infinity .positive).compare b = some .gt := by
        cases hb <;> rfl
      rw [hcompare]
      exact iff_of_false (by decide) (abs_lt.mp small).2.not_ge
  | bot =>
    cases hb with
    | top => exact iff_of_true rfl (by omega)
    | bot => exact iff_of_true rfl le_rfl
    | number hb small =>
      have hcompare : (UnpackedFloat.infinity .negative).compare b = some .lt := by
        cases hb <;> rfl
      rw [hcompare]
      exact iff_of_true rfl (abs_lt.mp small).1.le
  | number ha small =>
    cases hb with
    | top =>
      have hcompare : a.compare (.infinity .positive) = some .lt := by
        cases ha with
        | zero s => rfl
        | finite s => cases s <;> rfl
      rw [hcompare]
      exact iff_of_true rfl (abs_lt.mp small).2.le
    | bot =>
      have hcompare : a.compare (.infinity .negative) = some .gt := by
        cases ha with
        | zero s => rfl
        | finite s => cases s <;> rfl
      rw [hcompare]
      exact iff_of_false (by decide) (abs_lt.mp small).1.not_ge
    | number hb _ =>
      rw [compare_of_counts ha hb]
      exact Std.isLE_compare

theorem Lies.unique {a : UnpackedFloat} {p q : Int} (hp : Lies a p) (hq : Lies a q) : p = q := by
  have hself := (isLE_iff_of_lies hp hp).mpr le_rfl
  exact le_antisymm ((isLE_iff_of_lies hp hq).mp hself) ((isLE_iff_of_lies hq hp).mp hself)

/-! ### Places of packed numbers -/

/-- The place of a number of units when numbers beyond the greatest double are infinite. -/
def clip (u : Int) : Int :=
  if beyond ≤ u then beyond
  else if u ≤ -beyond then -beyond
  else u

theorem clip_mono {u v : Int} (h : u ≤ v) : clip u ≤ clip v := by
  have hpos := beyond_pos
  unfold clip
  by_cases hv : beyond ≤ v
  · rw [if_pos hv]
    split
    · exact le_rfl
    · split <;> omega
  · rw [if_neg hv, if_neg (show ¬ beyond ≤ u by omega)]
    by_cases hu : u ≤ -beyond
    · rw [if_pos hu]
      split <;> omega
    · rw [if_neg hu, if_neg (by omega)]
      exact h

theorem clip_of_small {u : Int} (h : |u| < beyond) : clip u = u := by
  rw [abs_lt] at h
  unfold clip
  rw [if_neg h.2.not_ge, if_neg h.1.not_ge]

theorem abs_apply (s : Sign) (a : Int) : |s.apply a| = |a| := by
  cases s with
  | positive => rfl
  | negative => exact abs_neg a

theorem abs_units_lt (s : Sign) {m k : Nat} (fits : m < 2 ^ 53) (hk : k < 2046) :
    |s.apply (m * 2 ^ k)| < beyond := by
  rw [abs_apply, abs_of_nonneg (by positivity)]
  exact lt_beyond fits hk

theorem lies_zero (s : Sign) : Lies (.zero s) 0 :=
  .number (.zero s) (by rw [abs_zero]; exact beyond_pos)

theorem lies_pack {a : UnpackedFloat} {u : Int} (h : Counts a u) :
    Lies (unpack Format.binary64 (pack Format.binary64 a)) (clip u) := by
  have hpos := beyond_pos
  cases h with
  | zero s =>
    rw [clip_of_small (by rwa [abs_zero])]
    cases s <;> exact lies_zero _
  | @finite s m k hm fits full =>
    by_cases hk : k < 2046
    · have hsmall := abs_units_lt s fits hk
      rw [unpack_pack_of_small s hm fits full hk, clip_of_small hsmall]
      exact .number (.finite s hm fits full) hsmall
    · have hlarge : beyond ≤ (m : Int) * 2 ^ k := beyond_le (by omega) (by omega)
      rw [unpack_pack_of_large s hm (by omega)]
      cases s with
      | positive =>
        have hclip : clip (Sign.positive.apply (m * 2 ^ k)) = beyond := if_pos hlarge
        rw [hclip]
        exact .top
      | negative =>
        have hclip : clip (Sign.negative.apply (m * 2 ^ k)) = -beyond := by
          change clip (-(m * 2 ^ k)) = -beyond
          unfold clip
          rw [if_neg (by omega), if_pos (by omega)]
        rw [hclip]
        exact .bot

/-- Unless all bits of its exponent are set, a double counts units. -/
theorem exists_counts {b : BitVec Format.binary64.numBits}
    (hlast : ¬ unpackExponent b = -1#11) :
    ∃ u, Counts (unpack Format.binary64 b) u ∧ |u| < beyond := by
  have hmantissa : (unpackMantissa b).toNat < 2 ^ 52 := (unpackMantissa b).isLt
  by_cases hfirst : unpackExponent b = 0#11
  · by_cases hzero : unpackMantissa b = 0#52
    · refine ⟨0, ?_, by rw [abs_zero]; exact beyond_pos⟩
      unfold unpack
      dsimp only
      rw [if_neg hlast, if_pos hfirst, dif_pos hzero]
      exact .zero _
    · have hpos : 0 < (unpackMantissa b).toNat := by
        apply Nat.pos_of_ne_zero
        intro h
        exact hzero (BitVec.eq_of_toNat_eq h)
      rw [unpack_first rfl hpos hfirst rfl]
      exact ⟨_, .finite _ hpos (by omega) (Or.inr rfl), abs_units_lt _ (by omega) (by omega)⟩
  · have hexponent : (unpackExponent b).toNat ≠ 0 := fun h => hfirst (BitVec.eq_of_toNat_eq h)
    have hless : (unpackExponent b).toNat ≠ 2047 := fun h => hlast (BitVec.eq_of_toNat_eq h)
    have hlt : (unpackExponent b).toNat < 2 ^ 11 := (unpackExponent b).isLt
    have hm : 0 < 2 ^ 52 + (unpackMantissa b).toNat := by omega
    rw [unpack_between (k := (unpackExponent b).toNat - 1) rfl hm (by omega) (by omega)
      (by omega) (by omega)]
    exact ⟨_, .finite _ hm (by omega) (Or.inl (by omega)), abs_units_lt _ (by omega) (by omega)⟩

theorem exists_lies {b : BitVec Format.binary64.numBits}
    (hnumber : unpack Format.binary64 b ≠ .notANumber) :
    ∃ p, Lies (unpack Format.binary64 b) p := by
  by_cases hlast : unpackExponent b = -1#11
  · by_cases hmantissa : unpackMantissa b = 0#52
    · have hinfinity : unpack Format.binary64 b = .infinity (Sign.ofBitVec (unpackSign b)) := by
        unfold unpack
        dsimp only
        rw [if_pos hlast, if_pos hmantissa]
      rw [hinfinity]
      cases Sign.ofBitVec (unpackSign b) with
      | positive => exact ⟨_, .top⟩
      | negative => exact ⟨_, .bot⟩
    · apply absurd _ hnumber
      unfold unpack
      dsimp only
      rw [if_pos hlast, if_neg hmantissa]
  · obtain ⟨u, hu, hsmall⟩ := exists_counts hlast
    exact ⟨u, .number hu hsmall⟩

/-! ### Floats -/

theorem exists_lies_of_le {x y : Float} (h : x ≤ y) :
    ∃ p q, Lies x.toModel.unpack p ∧ Lies y.toModel.unpack q ∧ p ≤ q := by
  rw [le_iff] at h
  have hx : x.toModel.unpack ≠ .notANumber := by
    intro hx
    rw [hx] at h
    cases h
  have hy : y.toModel.unpack ≠ .notANumber := by
    intro hy
    rw [compare_swap, hy] at h
    cases h
  obtain ⟨p, hp⟩ := exists_lies hx
  obtain ⟨q, hq⟩ := exists_lies hy
  exact ⟨p, q, hp, hq, (isLE_iff_of_lies hp hq).mp h⟩

theorem le_of_lies {x y : Float} {p q : Int} (hp : Lies x.toModel.unpack p)
    (hq : Lies y.toModel.unpack q) (h : p ≤ q) : x ≤ y :=
  le_iff.mpr ((isLE_iff_of_lies hp hq).mpr h)

theorem le_self_of_ne {x : Float} (h : x.toModel.unpack ≠ .notANumber) : x ≤ x := by
  obtain ⟨p, hp⟩ := exists_lies h
  exact le_of_lies hp hp le_rfl

theorem unpack_add (x y : Float) : (x + y).toModel.unpack =
    (Float.Model.pack (add Format.binary64 x.toModel.unpack y.toModel.unpack)).unpack := rfl

theorem unpack_sub (x y : Float) : (x - y).toModel.unpack =
    (Float.Model.pack (sub Format.binary64 x.toModel.unpack y.toModel.unpack)).unpack := rfl

theorem unpack_notANumber : (Float.Model.pack .notANumber).unpack = .notANumber := rfl

theorem sub_notANumber (a : UnpackedFloat) :
    sub Format.binary64 a .notANumber = .notANumber := by
  cases a <;> rfl

end Binary

end Workshop
