/-
  Workshop/Proofs/Quantity/Rounding.lean
  ======================================
  **Sums of doubles are rounded to the nearest double.**  A finite double counts whole
  units of `2 ^ (-1074)` (`Binary.Counts`).  The sum of two doubles counts the number of
  units next to the exact sum, of all that a mantissa of 53 bits can stand for
  (`Binary.rounds_add`), and so does the difference (`Binary.rounds_sub`).

  Rounding drops bits one at a time and keeps two of what it dropped.  The invariant of
  one drop is `Binary.Stands`: the mantissa and the two bits say between which half steps
  the number lies.
-/
import Workshop.Proofs.Quantity.Zero
import Mathlib.Algebra.Order.Ring.Int
import Mathlib.Tactic.Linarith
import Mathlib.Tactic.Ring

namespace Workshop

namespace Binary

open Float.Model (UnpackedFloat Format totalExponent)
open Float.Model.UnpackedFloat

/-! ### Mantissas with dropped bits -/

/-- The half steps that a mantissa counts with the first bit behind it. -/
def halves (em : ExtendedMantissa) : Nat := 2 * em.mantissa + em.roundBit.toNat

/-- The mantissa stands for `n` in steps of `p`, up to half a step. -/
def Stands (n p : Nat) (em : ExtendedMantissa) : Prop :=
  if em.stickyBit then halves em * p < 2 * n ∧ 2 * n < (halves em + 1) * p
  else 2 * n = halves em * p

theorem halves_shiftRightOne (em : ExtendedMantissa) :
    halves em.shiftRightOne = em.mantissa := by
  unfold halves ExtendedMantissa.shiftRightOne
  dsimp only
  rcases Nat.mod_two_eq_zero_or_one em.mantissa with h | h
  · rw [h]
    change 2 * (em.mantissa / 2) + 0 = em.mantissa
    omega
  · rw [h]
    change 2 * (em.mantissa / 2) + 1 = em.mantissa
    omega

/-- One more bit is dropped, and the steps become twice as long. -/
theorem Stands.shiftRightOne {n p : Nat} {em : ExtendedMantissa} (h : Stands n p em)
    (hp : 0 < p) : Stands n (2 * p) em.shiftRightOne := by
  have hsteps : ∀ k : Nat, (em.mantissa + k) * (2 * p) = (2 * em.mantissa + 2 * k) * p := by
    intro k
    ring
  have hwhole := hsteps 0
  have hnext := hsteps 1
  obtain ⟨m, round, sticky⟩ := em
  unfold Stands at h ⊢
  rw [halves_shiftRightOne]
  dsimp only [ExtendedMantissa.shiftRightOne, halves] at *
  cases round with
  | false =>
    cases sticky with
    | false =>
      simp only [Bool.or_self, Bool.false_eq_true, if_false, Bool.toNat_false] at h ⊢
      linarith
    | true =>
      simp only [Bool.or_true, if_true, Bool.toNat_false] at h ⊢
      constructor <;> linarith [h.1, h.2]
  | true =>
    cases sticky with
    | false =>
      simp only [Bool.or_false, Bool.false_eq_true, if_false, if_true, Bool.toNat_true] at h ⊢
      constructor <;> linarith
    | true =>
      simp only [Bool.or_true, if_true, Bool.toNat_true] at h ⊢
      constructor <;> linarith [h.1, h.2]

theorem stands_ofMantissa (n : Nat) :
    Stands n 1 (ExtendedMantissa.ofMantissaAndAccuracy n .exact) := by
  change 2 * n = (2 * n + 0) * 1
  omega

theorem stands_shiftRight (n k : Nat) :
    Stands n (2 ^ k) (ExtendedMantissa.ofMantissaAndAccuracy n .exact >>> k) := by
  induction k with
  | zero => exact stands_ofMantissa n
  | succ k ih =>
    rw [pow_succ, Nat.mul_comm]
    exact ih.shiftRightOne (Nat.two_pow_pos k)

/-- A rounded mantissa is off by half a step at most. -/
theorem Stands.roundedMantissa {n p : Nat} {em : ExtendedMantissa} (h : Stands n p em) :
    2 * (em.roundedMantissa * p) ≤ 2 * n + p ∧ 2 * n ≤ 2 * (em.roundedMantissa * p) + p := by
  obtain ⟨m, round, sticky⟩ := em
  unfold Stands halves at h
  cases round with
  | false =>
    cases sticky with
    | false =>
      change 2 * n = (2 * m + 0) * p at h
      change 2 * (m * p) ≤ 2 * n + p ∧ 2 * n ≤ 2 * (m * p) + p
      constructor <;> linarith
    | true =>
      change (2 * m + 0) * p < 2 * n ∧ 2 * n < (2 * m + 0 + 1) * p at h
      change 2 * (m * p) ≤ 2 * n + p ∧ 2 * n ≤ 2 * (m * p) + p
      constructor <;> linarith [h.1, h.2]
  | true =>
    cases sticky with
    | false =>
      change 2 * n = (2 * m + 1) * p at h
      change 2 * ((m + m % 2) * p) ≤ 2 * n + p ∧ 2 * n ≤ 2 * ((m + m % 2) * p) + p
      rcases Nat.mod_two_eq_zero_or_one m with hm | hm
      · rw [hm]
        constructor <;> linarith
      · rw [hm]
        constructor <;> linarith
    | true =>
      change (2 * m + 1) * p < 2 * n ∧ 2 * n < (2 * m + 1 + 1) * p at h
      change 2 * ((m + 1) * p) ≤ 2 * n + p ∧ 2 * n ≤ 2 * ((m + 1) * p) + p
      constructor <;> linarith [h.1, h.2]

/-! ### Units -/

/-- The double is a number of this many units of `2 ^ (-1074)`, which no double
    subdivides.  The mantissa has all its bits unless the exponent is the least. -/
inductive Counts : UnpackedFloat → Int → Prop
  | zero (s : Sign) : Counts (.zero s) 0
  | finite (s : Sign) {m k : Nat} (hm : 0 < m) (fits : m < 2 ^ 53) (full : 2 ^ 52 ≤ m ∨ k = 0) :
    Counts (.finite s m ((k : Int) - 1074) hm) (s.apply (m * 2 ^ k))

/-- Numbers of units with a mantissa that fits. -/
def Representable (v : Int) : Prop := ∃ n k : Nat, n < 2 ^ 53 ∧ v.natAbs = n * 2 ^ k

/-- The double counts the representable number of units next to `u`. -/
def Rounds (u : Int) (a : UnpackedFloat) : Prop :=
  ∃ v, Counts a v ∧ ∀ w, Representable w → |v - u| ≤ |w - u|

theorem Rounds.of_counts {a : UnpackedFloat} {u : Int} (h : Counts a u) : Rounds u a :=
  ⟨u, h, fun w _ => by simp⟩

theorem target_eq (m j : Nat) :
    Format.binary64.targetExponent (totalExponent m ((j : Int) - 1074)) =
      ((m.log2 + j - 52 : Nat) : Int) - 1074 := by
  have hmin : Format.binary64.minExponent = -1074 := by decide
  have hbits : (Format.binary64.mantissaBits : Int) = 53 := by decide
  unfold Format.targetExponent totalExponent
  rw [hmin, hbits]
  omega

theorem shiftToTargetExponent_eq (m j : Nat) :
    shiftToTargetExponent Format.binary64 m ((j : Int) - 1074) .exact =
      (ExtendedMantissa.ofMantissaAndAccuracy m .exact >>> (m.log2 + j - 52 - j),
        ((j + (m.log2 + j - 52 - j) : Nat) : Int) - 1074) := by
  unfold shiftToTargetExponent shiftToExponent
  dsimp only
  rw [target_eq]
  have hshift : (((m.log2 + j - 52 : Nat) : Int) - 1074 - ((j : Int) - 1074)).toNat =
      m.log2 + j - 52 - j := by omega
  rw [hshift]
  congr 1
  omega

/-- Of the multiples of `p`, none is nearer than one that is off by half of it. -/
theorem nearest_multiple {r a p n : Int} (low : 2 * (r * p) ≤ 2 * n + p)
    (high : 2 * n ≤ 2 * (r * p) + p) (hp : 0 < p) : |r * p - n| ≤ |a * p - n| := by
  rcases lt_trichotomy a r with h | rfl | h
  · have hstep : a * p ≤ (r - 1) * p := Int.mul_le_mul_of_nonneg_right (by omega) hp.le
    have hless : |a * p - n| = n - a * p := by
      rw [abs_sub_comm]
      exact abs_of_nonneg (by linarith)
    rw [hless, abs_le]
    constructor <;> linarith
  · exact le_refl _
  · have hstep : (r + 1) * p ≤ a * p := Int.mul_le_mul_of_nonneg_right (by omega) hp.le
    have hmore : |a * p - n| = a * p - n := abs_of_nonneg (by linarith)
    rw [hmore, abs_le]
    constructor <;> linarith

/-! ### Rounding -/

section Rounding

variable {m j k : Nat} (hm : m ≠ 0) (hk : m.log2 + j - 52 = j + k)

/-- The mantissa after `k` bits have been dropped. -/
def dropped (m k : Nat) : Nat :=
  (ExtendedMantissa.ofMantissaAndAccuracy m .exact >>> k).roundedMantissa

theorem dropped_spec (m k : Nat) :
    2 * (dropped m k * 2 ^ k) ≤ 2 * m + 2 ^ k ∧ 2 * m ≤ 2 * (dropped m k * 2 ^ k) + 2 ^ k :=
  (stands_shiftRight m k).roundedMantissa

include hk in
theorem dropped_le : dropped m k ≤ 2 ^ 53 := by
  have hlog : m < 2 ^ (53 + k) := by
    apply Nat.lt_of_lt_of_le Nat.lt_log2_self
    exact Nat.pow_le_pow_right (by decide) (by omega)
  rw [pow_add] at hlog
  have hstep := (dropped_spec m k).1
  have hpos := Nat.two_pow_pos k
  by_contra h
  have hmul : (2 ^ 53 + 1) * 2 ^ k ≤ dropped m k * 2 ^ k := Nat.mul_le_mul_right _ (by omega)
  linarith

include hm hk in
theorem le_dropped : 2 ^ 52 ≤ dropped m k ∨ j + k = 0 := by
  rcases Nat.eq_zero_or_pos (j + k) with h | h
  · exact Or.inr h
  · left
    have hlog : 2 ^ (52 + k) ≤ m := by
      apply Nat.le_trans _ (Nat.log2_self_le hm)
      exact Nat.pow_le_pow_right (by decide) (by omega)
    rw [pow_add] at hlog
    have hstep := (dropped_spec m k).2
    have hpos := Nat.two_pow_pos k
    by_contra hless
    have hmul : (dropped m k + 1) * 2 ^ k ≤ 2 ^ 52 * 2 ^ k := Nat.mul_le_mul_right _ (by omega)
    linarith

include hm hk in
theorem full_le : (2 : Int) ^ 52 * 2 ^ (j + k) ≤ m * 2 ^ j ∨ j + k = 0 := by
  rcases Nat.eq_zero_or_pos (j + k) with h | h
  · exact Or.inr h
  · left
    have hlog : 2 ^ (52 + k) ≤ m := by
      apply Nat.le_trans _ (Nat.log2_self_le hm)
      exact Nat.pow_le_pow_right (by decide) (by omega)
    have hmul := Nat.mul_le_mul_right (2 ^ j) hlog
    rw [← pow_add] at hmul
    rw [← pow_add, show 52 + (j + k) = 52 + k + j by omega]
    exact_mod_cast hmul

/-- Of the numbers with as many bits dropped, the rounded one is nearest. -/
theorem dropped_nearest_multiple (m j k : Nat) (a : Int) :
    |(dropped m k : Int) * 2 ^ (j + k) - m * 2 ^ j| ≤ |a * 2 ^ (j + k) - m * 2 ^ j| := by
  have hpos : (0 : Int) < 2 ^ j := by positivity
  obtain ⟨hlow, hhigh⟩ := dropped_spec m k
  zify at hlow hhigh
  apply nearest_multiple
  · have h := Int.mul_le_mul_of_nonneg_right hlow hpos.le
    rw [pow_add]
    linarith
  · have h := Int.mul_le_mul_of_nonneg_right hhigh hpos.le
    rw [pow_add]
    linarith
  · positivity

/-- Numbers with a smaller exponent do not exceed the least full mantissa. -/
theorem le_full {w : Int} {n i e : Nat} (hn : n < 2 ^ 53) (habs : w.natAbs = n * 2 ^ i)
    (hi : i < e) : w ≤ 2 ^ 52 * 2 ^ e := by
  have hsmall : n * 2 ^ i ≤ 2 ^ 53 * 2 ^ i := Nat.mul_le_mul_right _ hn.le
  have hnext : 2 ^ 53 * 2 ^ i ≤ 2 ^ 52 * 2 ^ e := by
    rw [← pow_add, ← pow_add]
    exact Nat.pow_le_pow_right (by decide) (by omega)
  have hall := Nat.le_trans hsmall hnext
  rw [← habs] at hall
  zify at hall
  exact (le_abs_self w).trans hall

include hm hk in
/-- No mantissa that fits comes nearer than the rounded one. -/
theorem dropped_nearest {w : Int} (hw : Representable w) :
    |(dropped m k : Int) * 2 ^ (j + k) - m * 2 ^ j| ≤ |w - m * 2 ^ j| := by
  obtain ⟨n, i, hn, habs⟩ := hw
  by_cases hi : j + k ≤ i
  · obtain ⟨d, rfl⟩ := Nat.exists_eq_add_of_le hi
    have hw : w = (w.sign * n * 2 ^ d) * 2 ^ (j + k) := by
      conv_lhs => rw [← Int.sign_mul_natAbs w, habs]
      push_cast
      ring
    rw [hw]
    exact dropped_nearest_multiple m j k _
  · -- numbers between the multiples lie below the least full mantissa
    have hw := le_full hn habs (Nat.lt_of_not_le hi)
    rcases full_le hm hk with hfull | h
    · apply (dropped_nearest_multiple m j k (2 ^ 52)).trans
      rw [abs_sub_comm, abs_of_nonneg (by linarith), abs_sub_comm, abs_of_nonneg (by linarith)]
      linarith
    · omega

end Rounding

theorem shift_of_fits {m : Nat} (j : Nat) (h : m < 2 ^ 53) :
    shiftToTargetExponent Format.binary64 m ((j : Int) - 1074) .exact =
      (⟨m, false, false⟩, (j : Int) - 1074) := by
  have hlog : m.log2 ≤ 52 := by
    rcases Nat.eq_zero_or_pos m with rfl | hm
    · decide
    · have := (Nat.log2_lt (Nat.pos_iff_ne_zero.mp hm)).mpr h
      omega
  have hnone : m.log2 + j - 52 - j = 0 := by omega
  rw [shiftToTargetExponent_eq, hnone]
  rfl

theorem shift_of_carry (j : Nat) :
    shiftToTargetExponent Format.binary64 (2 ^ 53) ((j : Int) - 1074) .exact =
      (⟨2 ^ 52, false, false⟩, ((j + 1 : Nat) : Int) - 1074) := by
  have hone : (2 ^ 53 : Nat).log2 + j - 52 - j = 1 := by
    rw [Nat.log2_two_pow]
    omega
  rw [shiftToTargetExponent_eq, hone]
  rfl

theorem counts_roundWithAccuracy (s : Sign) {m j k : Nat} (hm : m ≠ 0)
    (hk : m.log2 + j - 52 = j + k) :
    Counts (roundWithAccuracy Format.binary64 s m ((j : Int) - 1074) .exact)
      (s.apply (dropped m k * 2 ^ (j + k))) := by
  have hfirst := shiftToTargetExponent_eq m j
  have hshift : m.log2 + j - 52 - j = k := by omega
  rw [hshift] at hfirst
  have hle := dropped_le hk
  have hfull := le_dropped hm hk
  have hdropped : dropped m k =
    (ExtendedMantissa.ofMantissaAndAccuracy m .exact >>> k).roundedMantissa := rfl
  unfold roundWithAccuracy
  rw [hfirst]
  dsimp only
  rw [← hdropped]
  generalize dropped m k = r at *
  by_cases hfits : r < 2 ^ 53
  · rw [shift_of_fits _ hfits]
    dsimp only
    by_cases hr : r = 0
    · rw [dif_pos hr, hr]
      have hzero : s.apply (((0 : Nat) : Int) * 2 ^ (j + k)) = 0 := by cases s <;> simp [Sign.apply]
      rw [hzero]
      exact .zero s
    · rw [dif_neg hr]
      exact .finite s (Nat.pos_of_ne_zero hr) hfits hfull
  · -- rounding up to a further bit
    obtain rfl : r = 2 ^ 53 := by omega
    rw [shift_of_carry]
    dsimp only
    rw [dif_neg (by decide)]
    have hvalue :
        ((2 ^ 53 : Nat) : Int) * 2 ^ (j + k) = ((2 ^ 52 : Nat) : Int) * 2 ^ (j + k + 1) := by
      rw [pow_succ (2 : Int) (j + k)]
      push_cast
      ring
    rw [hvalue]
    exact .finite s (by decide) (by decide) (Or.inl (by decide))

theorem apply_sub_apply (s : Sign) (a b : Int) : |s.apply a - s.apply b| = |a - b| := by
  cases s with
  | positive => rfl
  | negative =>
    change |-a - -b| = |a - b|
    rw [neg_sub_neg, abs_sub_comm]

theorem representable_apply (s : Sign) {w : Int} (h : Representable w) :
    Representable (s.apply w) := by
  obtain ⟨n, k, hn, habs⟩ := h
  cases s with
  | positive => exact ⟨n, k, hn, habs⟩
  | negative => exact ⟨n, k, hn, by rw [← habs]; exact Int.natAbs_neg w⟩

theorem log2_shiftLeft {m : Nat} (hm : m ≠ 0) (d : Nat) : (m <<< d).log2 = m.log2 + d := by
  rw [Nat.shiftLeft_eq]
  have hne : m * 2 ^ d ≠ 0 := Nat.mul_ne_zero hm (Nat.two_pow_pos d).ne'
  rw [Nat.log2_eq_iff hne, pow_add, Nat.add_right_comm, pow_add]
  constructor
  · exact Nat.mul_le_mul_right _ (Nat.log2_self_le hm)
  · exact Nat.mul_lt_mul_of_pos_right Nat.lt_log2_self (Nat.two_pow_pos d)

theorem rounds_round (s : Sign) {m : Nat} (hm : m ≠ 0) (j : Nat) :
    Rounds (s.apply (m * 2 ^ j)) (UnpackedFloat.round Format.binary64 s m ((j : Int) - 1074)) := by
  -- bits are added first when the mantissa has fewer than fit
  obtain ⟨d, hd⟩ : ∃ d, d = j - (m.log2 + j - 52) := ⟨_, rfl⟩
  obtain ⟨i, hi⟩ : ∃ i, j = i + d := ⟨j - d, by omega⟩
  have hround : UnpackedFloat.round Format.binary64 s m ((j : Int) - 1074) =
      roundWithAccuracy Format.binary64 s (m <<< d) ((i : Int) - 1074) .exact := by
    unfold UnpackedFloat.round decreaseExponent
    dsimp only
    rw [target_eq]
    have hshift : ((j : Int) - 1074 - (((m.log2 + j - 52 : Nat) : Int) - 1074)).toNat = d := by
      omega
    rw [hshift]
    congr 1
    omega
  have hm' : m <<< d ≠ 0 := by
    rw [Nat.shiftLeft_eq]
    exact Nat.mul_ne_zero hm (Nat.two_pow_pos d).ne'
  obtain ⟨k, hk⟩ : ∃ k, (m <<< d).log2 + i - 52 = i + k := by
    rw [log2_shiftLeft hm]
    exact ⟨m.log2 + d + i - 52 - i, by omega⟩
  have hvalue : ((m <<< d : Nat) : Int) * 2 ^ i = m * 2 ^ j := by
    rw [Nat.shiftLeft_eq, hi, pow_add]
    push_cast
    ring
  rw [hround]
  refine ⟨_, counts_roundWithAccuracy s hm' hk, ?_⟩
  intro w hw
  have hnearest := dropped_nearest hm' hk (representable_apply s hw)
  rw [hvalue] at hnearest
  rw [apply_sub_apply]
  apply hnearest.trans
  rw [← apply_sub_apply s]
  have hback : s.apply (s.apply w) = w := by cases s <;> simp [Sign.apply]
  rw [hback]

theorem rounds_normalize (z : Int) (j : Nat) (zeroSign : Sign) :
    Rounds (z * 2 ^ j) (UnpackedFloat.normalize Format.binary64 z ((j : Int) - 1074) zeroSign) := by
  unfold UnpackedFloat.normalize
  rcases lt_trichotomy z 0 with h | rfl | h
  · rw [compare_lt_iff_lt.mpr h]
    have hround := rounds_round .negative (m := (-z).toNat) (by omega) j
    have hvalue : Sign.negative.apply (((-z).toNat : Int) * 2 ^ j) = z * 2 ^ j := by
      rw [Int.toNat_of_nonneg (by omega)]
      change -(-z * 2 ^ j) = z * 2 ^ j
      ring
    rwa [hvalue] at hround
  · rw [zero_mul]
    exact .of_counts (.zero zeroSign)
  · rw [compare_gt_iff_gt.mpr h]
    have hround := rounds_round .positive (m := z.toNat) (by omega) j
    have hvalue : Sign.positive.apply ((z.toNat : Int) * 2 ^ j) = z * 2 ^ j := by
      rw [Int.toNat_of_nonneg (by omega)]
      rfl
    rwa [hvalue] at hround

/-! ### Sums and differences -/

theorem apply_mul (s : Sign) (a b : Int) : s.apply (a * b) = s.apply a * b := by
  cases s with
  | positive => rfl
  | negative => exact Int.neg_mul_eq_neg_mul a b

theorem min_exponent (k i : Nat) :
    min ((k : Int) - 1074) ((i : Int) - 1074) = ((min k i : Nat) : Int) - 1074 := by
  omega

theorem decreaseExponent_eq (m : Nat) {k i : Nat} (h : i ≤ k) :
    decreaseExponent m ((k : Int) - 1074) ((i : Int) - 1074) =
      (m <<< (k - i), (i : Int) - 1074) := by
  unfold decreaseExponent
  have hshift : ((k : Int) - 1074 - ((i : Int) - 1074)).toNat = k - i := by omega
  dsimp only
  rw [hshift]
  congr 1
  omega

theorem shifted_value (m : Nat) {k i : Nat} (h : i ≤ k) :
    ((m <<< (k - i) : Nat) : Int) * 2 ^ i = m * 2 ^ k := by
  rw [Nat.shiftLeft_eq]
  push_cast
  rw [mul_assoc, ← pow_add, Nat.sub_add_cancel h]

theorem rounds_add {a b : UnpackedFloat} {u v : Int} (ha : Counts a u) (hb : Counts b v) :
    Rounds (u + v) (add Format.binary64 a b) := by
  cases ha with
  | zero s =>
    rw [zero_add]
    cases hb with
    | zero t => cases s <;> cases t <;> exact .of_counts (.zero _)
    | finite t hn fits full => exact .of_counts (.finite t hn fits full)
  | @finite s m k hm fits full =>
    cases hb with
    | zero t =>
      rw [add_zero]
      exact .of_counts (.finite s hm fits full)
    | @finite t n i hn fits' full' =>
      unfold add
      dsimp only
      rw [min_exponent, decreaseExponent_eq m (min_le_left k i),
        decreaseExponent_eq n (min_le_right k i)]
      have hvalue : s.apply (m * 2 ^ k) + t.apply (n * 2 ^ i) =
          (s.apply ((m <<< (k - min k i) : Nat) : Int) +
            t.apply ((n <<< (i - min k i) : Nat) : Int)) * 2 ^ (min k i) := by
        rw [Int.add_mul, ← apply_mul, ← apply_mul, shifted_value m (min_le_left k i),
          shifted_value n (min_le_right k i)]
      rw [hvalue]
      exact rounds_normalize _ _ _

theorem apply_neg (s : Sign) (a : Int) : (-s).apply a = -s.apply a := by
  cases s with
  | positive => rfl
  | negative => exact (Int.neg_neg a).symm

theorem Counts.neg {a : UnpackedFloat} {u : Int} (h : Counts a u) : Counts a.neg (-u) := by
  cases h with
  | zero s =>
    rw [neg_zero]
    exact .zero (-s)
  | finite s hm fits full =>
    rw [← apply_neg]
    exact .finite (-s) hm fits full

/-- A difference of numbers is the sum with the opposite number. -/
theorem sub_eq_add_neg_of_counts {a b : UnpackedFloat} {u v : Int} (ha : Counts a u)
    (hb : Counts b v) : sub Format.binary64 a b = add Format.binary64 a b.neg := by
  cases ha with
  | zero s =>
    cases hb with
    | zero t => rfl
    | finite t hn fits full => rfl
  | @finite s m k hm fits full =>
    cases hb with
    | zero t => rfl
    | @finite t n i hn fits' full' =>
      unfold sub add UnpackedFloat.neg
      dsimp only
      rw [apply_neg, ← Int.sub_eq_add_neg]

theorem rounds_sub {a b : UnpackedFloat} {u v : Int} (ha : Counts a u) (hb : Counts b v) :
    Rounds (u - v) (sub Format.binary64 a b) := by
  rw [sub_eq_add_neg_of_counts ha hb, sub_eq_add_neg]
  exact rounds_add ha hb.neg

end Binary

end Workshop
