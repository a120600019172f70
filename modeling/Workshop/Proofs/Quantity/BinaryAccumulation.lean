/-
  Workshop/Proofs/Quantity/BinaryAccumulation.lean
  ================================================
  **Hours in doubles add up.**  Doubles obey the laws of `Quantity.Coherent` and
  `Quantity.Accumulating`, although no sum of them is exact: rounding does not cross a
  number that need not be rounded (`Binary.Rounds.le_of_le`), and of two numbers the
  greater one is not rounded to the smaller place (`Binary.nearest_mono`).
-/
import Workshop.Proofs.Quantity.Accumulation
import Workshop.Proofs.Quantity.Places

namespace Workshop

namespace Binary

open Float.Model (UnpackedFloat Format)
open Float.Model.UnpackedFloat

/-! ### Nearest numbers -/

theorem representable_of_counts {a : UnpackedFloat} {u : Int} (h : Counts a u) :
    Representable u := by
  cases h with
  | zero s => exact ⟨0, 0, by decide, rfl⟩
  | @finite s m k hm fits full =>
    apply representable_apply
    refine ⟨m, k, fits, ?_⟩
    rw [Int.natAbs_mul, Int.natAbs_pow]
    rfl

/-- A rounded number stays on its side of every number that need not be rounded. -/
theorem Rounds.le_of_le {a : UnpackedFloat} {u w : Int} (h : Rounds u a) (hw : Representable w)
    (hle : w ≤ u) : ∃ r, Counts a r ∧ w ≤ r := by
  obtain ⟨r, hr, hnearest⟩ := h
  refine ⟨r, hr, ?_⟩
  have := hnearest w hw
  rcases abs_cases (r - u) with h | h <;> rcases abs_cases (w - u) with h' | h' <;> omega

theorem nearest_mono {t t' r r' : Int} (h : t < t') (hr : |r - t| ≤ |r' - t|)
    (hr' : |r' - t'| ≤ |r - t'|) : r ≤ r' := by
  by_contra hless
  rcases abs_cases (r - t) with h1 | h1 <;> rcases abs_cases (r' - t) with h2 | h2 <;>
    rcases abs_cases (r' - t') with h3 | h3 <;> rcases abs_cases (r - t') with h4 | h4 <;> omega

theorem mantissa_eq {m n k i : Nat} (fits : m < 2 ^ 53) (full : 2 ^ 52 ≤ m ∨ k = 0)
    (fits' : n < 2 ^ 53) (full' : 2 ^ 52 ≤ n ∨ i = 0) (h : (m : Int) * 2 ^ k = n * 2 ^ i) :
    m = n ∧ k = i := by
  have hk : k = i := by
    rcases lt_trichotomy k i with hlt | heq | hlt
    · exact absurd h (mantissa_lt fits full' hlt).ne
    · exact heq
    · exact absurd h (mantissa_lt fits' full hlt).ne'
  subst hk
  refine ⟨?_, rfl⟩
  exact_mod_cast Int.eq_of_mul_eq_mul_right (by positivity) h

/-- Doubles that count the same units are the same, but for the sign of a zero. -/
theorem Counts.eq_or_zeros {a b : UnpackedFloat} {u v : Int} (ha : Counts a u)
    (hb : Counts b v) (h : u = v) : a = b ∨ ∃ s t, a = .zero s ∧ b = .zero t := by
  cases ha with
  | zero s =>
    cases hb with
    | zero t => exact Or.inr ⟨s, t, rfl, rfl⟩
    | @finite t n i hn fits full =>
      have hpos := units_pos (k := i) hn
      cases t with
      | positive => exact absurd h hpos.ne
      | negative => exact absurd h (Int.neg_neg_of_pos hpos).ne'
  | @finite s m k hm fits full =>
    left
    have hpos := units_pos (k := k) hm
    cases hb with
    | zero t =>
      cases s with
      | positive => exact absurd h hpos.ne'
      | negative => exact absurd h (Int.neg_neg_of_pos hpos).ne
    | @finite t n i hn fits' full' =>
      have hpos' := units_pos (k := i) hn
      have hsame : s = t ∧ (m : Int) * 2 ^ k = n * 2 ^ i := by
        cases s <;> cases t <;> dsimp only [Sign.apply] at h
        · exact ⟨rfl, Int.neg_inj.mp h⟩
        · omega
        · omega
        · exact ⟨rfl, h⟩
      obtain ⟨rfl, rfl⟩ := mantissa_eq fits full fits' full' hsame.2
      rw [hsame.1]

theorem counts_sub_zero {a : UnpackedFloat} {u : Int} (h : Counts a u) (t : Sign) :
    Counts (sub Format.binary64 a (.zero t)) u := by
  cases h with
  | zero s => cases s <;> cases t <;> exact .zero _
  | finite s hm fits full => exact .finite s hm fits full

theorem add_infinity (s : Sign) {b : UnpackedFloat} {v : Int} (h : Counts b v) :
    add Format.binary64 (.infinity s) b = .infinity s := by
  cases h <;> rfl

theorem sub_infinity {a : UnpackedFloat} {u : Int} (h : Counts a u) (s : Sign) :
    sub Format.binary64 a (.infinity s) = .infinity (-s) := by
  cases h <;> rfl

theorem unpack_infinity (s : Sign) : (Float.Model.pack (.infinity s)).unpack = .infinity s :=
  unpack_packedInfinity s

theorem exists_counts_of_isFinite {x : Float} (h : Quantity.isFinite x = true) :
    ∃ u, Counts x.toModel.unpack u ∧ |u| < beyond := exists_counts (unpackExponent_ne_last h)

theorem exists_lies_add {a b : UnpackedFloat} {p v : Int} (ha : Lies a p) (hb : Counts b v)
    (h : 0 ≤ v) :
    ∃ q, Lies (Float.Model.pack (add Format.binary64 a b)).unpack q ∧ p ≤ q := by
  cases ha with
  | top =>
    rw [add_infinity _ hb, unpack_infinity]
    exact ⟨_, .top, le_rfl⟩
  | bot =>
    rw [add_infinity _ hb, unpack_infinity]
    exact ⟨_, .bot, le_rfl⟩
  | number ha small =>
    obtain ⟨r, hr, hle⟩ := (rounds_add ha hb).le_of_le (representable_of_counts ha) (by omega)
    have hclip := clip_mono hle
    rw [clip_of_small small] at hclip
    exact ⟨_, lies_pack hr, hclip⟩

theorem le_add_of_nonneg {x h : Float} (hx : x ≤ x) (hf : Quantity.isFinite h = true)
    (hpos : Quantity.zero ≤ h) : x ≤ x + h := by
  obtain ⟨v, hv, hsmall⟩ := exists_counts_of_isFinite hf
  rw [le_iff, unpack_zero, isLE_iff_of_lies (lies_zero _) (.number hv hsmall)] at hpos
  obtain ⟨p, -, hp, -, -⟩ := exists_lies_of_le hx
  obtain ⟨q, hq, hpq⟩ := exists_lies_add hp hv hpos
  rw [← unpack_add] at hq
  exact le_of_lies hp hq hpq

/-- What is subtracted from a number leaves a number or an infinity. -/
theorem exists_lies_sub {a b : UnpackedFloat} {c p : Int} (ha : Counts a c) (hb : Lies b p) :
    ∃ q, Lies (Float.Model.pack (sub Format.binary64 a b)).unpack q := by
  cases hb with
  | top =>
    rw [sub_infinity ha, unpack_infinity]
    exact ⟨_, .bot⟩
  | bot =>
    rw [sub_infinity ha, unpack_infinity]
    exact ⟨_, .top⟩
  | number hb =>
    obtain ⟨r, hr, -⟩ := rounds_sub ha hb
    exact ⟨_, lies_pack hr⟩

/-- Of numbers, the greater one leaves no more. -/
theorem sub_le_sub_of_counts {a b d : UnpackedFloat} {c u v : Int} (ha : Counts a c)
    (hb : Counts b u) (hd : Counts d v) (h : u ≤ v) :
    ∃ r r', Counts (sub Format.binary64 a d) r ∧ Counts (sub Format.binary64 a b) r' ∧ r ≤ r' := by
  rcases Int.lt_or_eq_of_le h with hlt | heq
  · obtain ⟨r, hr, hnearest⟩ := rounds_sub ha hd
    obtain ⟨r', hr', hnearest'⟩ := rounds_sub ha hb
    refine ⟨r, r', hr, hr', ?_⟩
    exact nearest_mono (show c - v < c - u by omega)
      (hnearest r' (representable_of_counts hr')) (hnearest' r (representable_of_counts hr))
  · -- equal numbers leave the same, whatever the signs of zeros
    rcases hb.eq_or_zeros hd heq with rfl | ⟨s, t, rfl, rfl⟩
    · obtain ⟨r, hr, -⟩ := rounds_sub ha hb
      exact ⟨r, r, hr, hr, le_rfl⟩
    · exact ⟨c, c, counts_sub_zero ha t, counts_sub_zero ha s, le_rfl⟩

theorem exists_lies_sub_le {a b d : UnpackedFloat} {c p q : Int} (ha : Counts a c)
    (hb : Lies b p) (hd : Lies d q) (h : p ≤ q) :
    ∃ p' q', Lies (Float.Model.pack (sub Format.binary64 a d)).unpack p' ∧
      Lies (Float.Model.pack (sub Format.binary64 a b)).unpack q' ∧ p' ≤ q' := by
  have hpos := beyond_pos
  obtain ⟨p', hp'⟩ := exists_lies_sub ha hd
  obtain ⟨q', hq'⟩ := exists_lies_sub ha hb
  cases hd with
  | top =>
    refine ⟨-beyond, q', ?_, hq', hq'.bounded.1⟩
    rw [sub_infinity ha, unpack_infinity]
    exact .bot
  | bot =>
    cases hb with
    | top => omega
    | bot => exact ⟨p', p', hp', hp', le_rfl⟩
    | number _ small => exact absurd h (abs_lt.mp small).1.not_ge
  | number hd small =>
    cases hb with
    | top => exact absurd h (abs_lt.mp small).2.not_ge
    | bot =>
      refine ⟨p', beyond, hp', ?_, hp'.bounded.2⟩
      rw [sub_infinity ha, unpack_infinity]
      exact .top
    | number hb =>
      obtain ⟨r, r', hr, hr', hle⟩ := sub_le_sub_of_counts ha hb hd h
      exact ⟨_, _, lies_pack hr, lies_pack hr', clip_mono hle⟩

theorem sub_le_sub_of_le {a x y : Float} (ha : Quantity.isFinite a = true) (h : x ≤ y) :
    a - y ≤ a - x := by
  obtain ⟨c, hc, -⟩ := exists_counts_of_isFinite ha
  obtain ⟨p, q, hp, hq, hpq⟩ := exists_lies_of_le h
  obtain ⟨p', q', hp', hq', hle⟩ := exists_lies_sub_le hc hp hq hpq
  rw [← unpack_sub] at hp' hq'
  exact le_of_lies hp' hq' hle

end Binary

open Binary in
instance : Quantity.Coherent Float where
  le_trans hxy hyz := by
    obtain ⟨p, q, hp, hq, hpq⟩ := exists_lies_of_le hxy
    obtain ⟨q', r, hq', hr, hqr⟩ := exists_lies_of_le hyz
    rw [hq.unique hq'] at hpq
    exact le_of_lies hp hr (hpq.trans hqr)
  number_of_add {x y z} h := by
    apply le_self_of_ne
    intro hy
    obtain ⟨p, q, -, hq, -⟩ := exists_lies_of_le h
    apply hq.ne_notANumber
    rw [unpack_add, hy]
    exact unpack_notANumber
  number_of_sub {x y z} h := by
    apply le_self_of_ne
    intro hz
    obtain ⟨p, q, -, hq, -⟩ := exists_lies_of_le h
    apply hq.ne_notANumber
    rw [unpack_sub, hz, sub_notANumber]
    exact unpack_notANumber

instance : Quantity.Accumulating Float where
  le_add := Binary.le_add_of_nonneg
  sub_le_sub := Binary.sub_le_sub_of_le

end Workshop
