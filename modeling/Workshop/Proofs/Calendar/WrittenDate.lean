/-
  Workshop/Proofs/Calendar/WrittenDate.lean
  =========================================
  **Dates are read as they were written** (`DateText.read_write`), whatever their year.

  Written dates are compared as texts.  Texts of four-digit years come in the order of the
  calendar (`DateText.write_lt_write_iff`), and all others before them, because a sign comes
  before every digit (`DateText.write_lt_of_signed`).  A window that begins in such a year is
  the same for texts and dates if it ends in one (`DateText.orderedWithin_iff`).
-/
import Workshop.Proofs.Calendar.WrittenInstant
import Mathlib.Data.String.Basic

namespace Workshop

namespace DateText

/-! ### Numbers of more digits than the width -/

theorem padded_eq_of_le {w n : Nat} (hw : 0 < w) (h : 10 ^ w ≤ n) :
    padded w n = padded (w + 1) n := by
  have hlong : w < (Nat.repr n).length := by
    rw [← Nat.not_le, Nat.length_repr_le_iff hw]
    exact Nat.not_lt.mpr h
  have hnone : w - (Nat.repr n).length = 0 := by omega
  have hnone' : w + 1 - (Nat.repr n).length = 0 := by omega
  unfold padded
  dsimp only
  rw [hnone, hnone']

/-- A number is written with as many digits as it needs. -/
theorem exists_padded_eq {w n k : Nat} (hw : 0 < w) (h : n < 10 ^ (w + k)) :
    ∃ v, w ≤ v ∧ n < 10 ^ v ∧ padded w n = padded v n := by
  induction k generalizing w with
  | zero => exact ⟨w, Nat.le_refl w, h, rfl⟩
  | succ k ih =>
    by_cases hn : n < 10 ^ w
    · exact ⟨w, Nat.le_refl w, hn, rfl⟩
    · obtain ⟨v, hv, hlt, heq⟩ := ih w.succ_pos (by rwa [Nat.succ_add])
      exact ⟨v, by omega, hlt, (padded_eq_of_le hw (by omega)).trans heq⟩

theorem exists_padded_cons {w n : Nat} (hw : 0 < w) (hn : n < 10 ^ w) :
    ∃ d cs, d < 10 ∧ (padded w n).toList = Nat.digitChar d :: cs := by
  induction w, hw using Nat.le_induction generalizing n with
  | base => exact ⟨n, [], by omega, padded_one (by omega)⟩
  | succ w hw ih =>
    obtain ⟨d, cs, hd, hcs⟩ := ih (n := n / 10) (by rw [Nat.pow_succ] at hn; omega)
    refine ⟨d, cs ++ [Nat.digitChar (n % 10)], hd, ?_⟩
    rw [padded_succ hw hn, hcs]
    rfl

/-! ### Reading a written date -/

theorem digit?_dash : digit? '-' = none := by decide

theorem isBlank_digitChar {d : Nat} (h : d < 10) : Text.isBlank (Nat.digitChar d) = false := by
  revert d
  decide

theorem dropBlanks_padded {w n : Nat} (hw : 0 < w) (hn : n < 10 ^ w) (rest : List Char) :
    Text.dropBlanks ((padded w n).toList ++ rest) = (padded w n).toList ++ rest := by
  obtain ⟨d, cs, hd, hcs⟩ := exists_padded_cons hw hn
  rw [hcs, Text.dropBlanks, List.cons_append, List.dropWhile_cons_of_neg]
  rw [isBlank_digitChar hd]
  exact Bool.false_ne_true

variable {cs rest : List Char} {n : Nat}

theorem year_of_digits {d : Nat} (h : d < 10)
    (hn : number 1 4 (Nat.digitChar d :: cs) = .ok (n, rest)) (hlimit : n ≤ 9999) :
    year (Nat.digitChar d :: cs) = .ok ((n : Int), rest) := by
  have hsign : ∀ d < 10, Nat.digitChar d ≠ '-' ∧ Nat.digitChar d ≠ '+' := by decide
  unfold year
  dsimp only
  split
  · next heq => exact absurd (List.cons.inj heq).1 (hsign d h).1
  · next heq => exact absurd (List.cons.inj heq).1 (hsign d h).2
  · refine bind_eq_ok_iff.mpr ⟨_, hn, ?_⟩
    dsimp only
    rw [if_neg (by omega), Int.one_mul]

theorem year_of_minus (hn : number 1 cs.length cs = .ok (n, rest)) (hlimit : n ≤ 999999) :
    year ('-' :: cs) = .ok (-(n : Int), rest) := by
  refine bind_eq_ok_iff.mpr ⟨_, hn, ?_⟩
  dsimp only
  rw [if_neg (by omega), Int.neg_mul, Int.one_mul]

theorem year_of_plus (hn : number 1 cs.length cs = .ok (n, rest)) (hlimit : n ≤ 999999) :
    year ('+' :: cs) = .ok ((n : Int), rest) := by
  refine bind_eq_ok_iff.mpr ⟨_, hn, ?_⟩
  dsimp only
  rw [if_neg (by omega), Int.one_mul]

/-- The digits of a year behind a sign are all read. -/
theorem number_signed (hn : n < 10 ^ 6) :
    number 1 ((padded 4 n).toList ++ '-' :: rest).length ((padded 4 n).toList ++ '-' :: rest) =
      .ok (n, '-' :: rest) := by
  obtain ⟨w, hw, hlt, heq⟩ := exists_padded_eq (w := 4) (k := 2) (by decide) hn
  have hpos : 0 < w := by omega
  rw [heq, List.length_append, length_padded hpos hlt]
  apply number_padded hpos (by omega) hlt
  · unfold numberLimit
    omega
  · exact Or.inr ⟨_, _, rfl, digit?_dash⟩

theorem writeYear_minus {y : Int} (h : y < 0) :
    (writeYear y).toList = '-' :: (padded 4 y.natAbs).toList := by
  unfold writeYear
  rw [if_neg (by omega), if_pos h, String.toList_append]
  rfl

theorem writeYear_plus {y : Int} (h : 9999 < y) :
    (writeYear y).toList = '+' :: (padded 4 y.toNat).toList := by
  unfold writeYear
  rw [if_neg (by omega), if_neg (by omega), String.toList_append]
  rfl

theorem writeYear_unsigned {y : Int} (h : 0 ≤ y ∧ y ≤ 9999) :
    writeYear y = padded 4 y.toNat := if_pos h

theorem year_writeYear {y : Int} (h : y.natAbs < 10 ^ 6) :
    year ((writeYear y).toList ++ '-' :: rest) = .ok (y, '-' :: rest) := by
  by_cases hminus : y < 0
  · have hvalue : -((y.natAbs : Nat) : Int) = y := by omega
    rw [writeYear_minus hminus, List.cons_append, year_of_minus (number_signed h) (by omega),
      hvalue]
  · have hvalue : ((y.toNat : Nat) : Int) = y := Int.toNat_of_nonneg (by omega)
    by_cases hplus : 9999 < y
    · have hlt : y.toNat < 10 ^ 6 := by omega
      rw [writeYear_plus hplus, List.cons_append, year_of_plus (number_signed hlt) (by omega),
        hvalue]
    · have hlt : y.toNat < 10 ^ 4 := by omega
      have hlimit : y.toNat ≤ numberLimit := by
        unfold numberLimit
        omega
      have hnumber : number 1 (4 + 0) ((padded 4 y.toNat).toList ++ '-' :: rest) = _ :=
        number_padded (by decide) (by decide) hlt hlimit (Or.inl rfl)
      obtain ⟨d, cs, hd, hcs⟩ := exists_padded_cons (by decide) hlt
      rw [writeYear_unsigned (by omega), hcs, List.cons_append]
      rw [hcs, List.cons_append] at hnumber
      rw [year_of_digits hd hnumber (by omega), hvalue]

theorem dropBlanks_writeYear (y : Int) (rest : List Char) :
    Text.dropBlanks ((writeYear y).toList ++ rest) = (writeYear y).toList ++ rest := by
  by_cases hminus : y < 0
  · rw [writeYear_minus hminus]
    rfl
  · by_cases hplus : 9999 < y
    · rw [writeYear_plus hplus]
      rfl
    · rw [writeYear_unsigned (by omega), dropBlanks_padded (by decide) (by omega)]

theorem bounded_padded {low high : Nat} (hlow : low ≤ n) (hhigh : n ≤ high)
    (hn : n < 10 ^ 2) (rest : List Char) :
    bounded 1 2 low high ((padded 2 n).toList ++ rest) = .ok (n, rest) := by
  have hlimit : n ≤ numberLimit := by
    unfold numberLimit
    omega
  have hnumber : number 1 (2 + 0) ((padded 2 n).toList ++ rest) = .ok (n, rest) :=
    number_padded (by decide) (by decide) hn hlimit (Or.inl rfl)
  refine bind_eq_ok_iff.mpr ⟨_, hnumber, ?_⟩
  dsimp only
  rw [if_pos ⟨hlow, hhigh⟩]

end DateText

namespace Date

/-- Years have at most six digits. -/
theorem natAbs_year (d : Date) : d.civil.year.natAbs < 10 ^ 6 := by
  have hfirst := d.first_le
  have hlast := d.le_last
  have hera : (Civil.yearOfEraDay (d.day % 146097).toNat) < 400 :=
    (Civil.yearOfEraDay_spec (by omega)).1
  unfold civil Civil.ofDay
  dsimp only
  split <;> omega

end Date

namespace DateText

/-- The written form, part by part. -/
theorem toList_write {d : Date} {year : Int} {month day : Nat} (h : d.civil = ⟨year, month, day⟩) :
    (write d).toList = (writeYear year).toList ++ '-' :: ((padded 2 month).toList ++
      '-' :: (padded 2 day).toList) := by
  have hdash : "-".toList = ['-'] := rfl
  unfold write
  rw [h]
  simp only [String.toList_append, List.append_assoc, hdash, List.cons_append, List.nil_append]

/-- A date is read as it was written. -/
theorem read_write (d : Date) : read (write d) = .ok d := by
  obtain ⟨year, month, day, hcivil⟩ : ∃ year month day, d.civil = ⟨year, month, day⟩ :=
    ⟨_, _, _, rfl⟩
  have hyear : year.natAbs < 10 ^ 6 := by
    have := d.natAbs_year
    rwa [hcivil] at this
  have hvalid : (Civil.mk year month day).Valid := hcivil ▸ Civil.ofDay_valid d.day
  have hdate : (Civil.mk year month day).toDate? = some d := hcivil ▸ d.toDate?_civil
  obtain ⟨hmonth, hmonth', hday, hday'⟩ := hvalid
  have hmonths := Civil.daysInMonth_le year month
  dsimp only at hmonth hmonth' hday hday'
  unfold read
  rw [toList_write hcivil, dropBlanks_writeYear]
  refine bind_eq_ok_iff.mpr ⟨_, year_writeYear hyear, ?_⟩
  refine bind_eq_ok_iff.mpr ⟨_, rfl, ?_⟩
  dsimp only
  rw [dropBlanks_padded (by decide) (by omega)]
  refine bind_eq_ok_iff.mpr ⟨_, bounded_padded hmonth hmonth' (by omega) _, ?_⟩
  refine bind_eq_ok_iff.mpr ⟨_, rfl, ?_⟩
  have hlast := bounded_padded hday (show day ≤ 31 by omega) (by omega) []
  rw [List.append_nil] at hlast
  have hnone := dropBlanks_padded (w := 2) (n := day) (by decide) (by omega) []
  rw [List.append_nil] at hnone
  dsimp only
  rw [hnone]
  refine bind_eq_ok_iff.mpr ⟨_, hlast, ?_⟩
  dsimp only
  rw [if_neg (by simp), hdate]

theorem write_injective {a b : Date} (h : write a = write b) : a = b := by
  have hread := read_write a
  rw [h, read_write b] at hread
  exact (Except.ok.inj hread).symm

end DateText

/-! ### The order of the calendar -/

namespace Civil

/-- The number of a month, counted from March of year 0. -/
def monthNumber (c : Civil) : Int := c.marchYear * 12 + marchMonth c.month

/-- The day number of the first day of a month. -/
def firstOfMonth (i : Int) : Int :=
  i / 12 / 400 * 146097 + daysBeforeYear (i / 12 % 400).toNat + daysBeforeMonth (i % 12).toNat

theorem marchMonth_lt (month : Nat) : marchMonth month < 12 := Nat.mod_lt _ (by decide)

theorem dayNumber_eq (c : Civil) : c.dayNumber = firstOfMonth c.monthNumber + c.day - 1 := by
  have hm := marchMonth_lt c.month
  have hyear : c.monthNumber / 12 = c.marchYear := by
    unfold monthNumber
    omega
  have hmonth : (c.monthNumber % 12).toNat = marchMonth c.month := by
    unfold monthNumber
    omega
  unfold dayNumber firstOfMonth
  rw [hyear, hmonth]

theorem monthNumber_eq {c : Civil} (h : c.Valid) : c.monthNumber = c.year * 12 + c.month - 3 := by
  obtain ⟨h1, h12, -⟩ := h
  unfold monthNumber marchYear marchMonth
  split <;> omega

theorem firstOfMonth_le_succ (i : Int) : firstOfMonth i ≤ firstOfMonth (i + 1) := by
  unfold firstOfMonth daysBeforeYear daysBeforeMonth
  omega

theorem firstOfMonth_mono {i j : Int} (h : i ≤ j) : firstOfMonth i ≤ firstOfMonth j :=
  monotone_int_of_le_succ firstOfMonth_le_succ h

theorem firstOfMonth_of_parts {y : Int} {m : Nat} (h : m < 12) :
    firstOfMonth (y * 12 + m) =
      y / 400 * 146097 + daysBeforeYear (y % 400).toNat + daysBeforeMonth m := by
  have hyear : (y * 12 + m) / 12 = y := by omega
  have hmonth : ((y * 12 + m) % 12).toNat = m := by omega
  unfold firstOfMonth
  rw [hyear, hmonth]

/-- A year, counted from March, ends with the February of the next one. -/
theorem firstOfMonth_february (y : Int) :
    firstOfMonth (y * 12 + 11) + daysInMonth (y + 1) 2 = firstOfMonth ((y + 1) * 12) := by
  have hfebruary := firstOfMonth_of_parts (y := y) (m := 11) (by decide)
  have hmarch := firstOfMonth_of_parts (y := y + 1) (m := 0) (by decide)
  have hleap : isLeapYear (y + 1) = true ↔
      (y + 1) % 4 = 0 ∧ ((y + 1) % 100 ≠ 0 ∨ (y + 1) % 400 = 0) := by
    simp [isLeapYear]
  rw [Int.natCast_zero, Int.add_zero] at hmarch
  rw [show (11 : Int) = ((11 : Nat) : Int) from rfl, hfebruary, hmarch]
  unfold daysInMonth daysBeforeYear daysBeforeMonth
  rw [if_pos rfl]
  by_cases hl : isLeapYear (y + 1) = true
  · have := hleap.mp hl
    rw [if_pos hl]
    omega
  · have := mt hleap.mpr hl
    rw [if_neg hl]
    omega

/-- The days of a month come before the first day of the next one. -/
theorem firstOfMonth_add_daysInMonth {c : Civil} (h : c.Valid) :
    firstOfMonth c.monthNumber + daysInMonth c.year c.month = firstOfMonth (c.monthNumber + 1) := by
  have hm := marchMonth_lt c.month
  have hmonth : calendarMonth (marchMonth c.month) = c.month := by
    have hbounds := And.intro h.1 h.2.1
    unfold calendarMonth marchMonth
    split <;> omega
  unfold monthNumber
  by_cases hlast : marchMonth c.month = 11
  · rw [hlast] at hmonth ⊢
    have hyear : c.year = c.marchYear + 1 := by
      unfold marchYear
      rw [if_pos (by rw [← hmonth]; decide), Int.sub_add_cancel]
    have hnext : c.marchYear * 12 + ((11 : Nat) : Int) + 1 = (c.marchYear + 1) * 12 := by omega
    rw [hnext, ← hmonth, hyear]
    exact firstOfMonth_february c.marchYear
  · have hdays := daysInMonth_calendarMonth (show marchMonth c.month ≤ 10 by omega) c.year
    have hmono :
        daysBeforeMonth (marchMonth c.month) ≤ daysBeforeMonth (marchMonth c.month + 1) := by
      unfold daysBeforeMonth
      omega
    have hnext : c.marchYear * 12 + (marchMonth c.month : Int) + 1 =
        c.marchYear * 12 + ((marchMonth c.month + 1 : Nat) : Int) := by omega
    rw [hmonth] at hdays
    rw [hnext, firstOfMonth_of_parts hm, firstOfMonth_of_parts (by omega), hdays]
    omega

theorem dayNumber_lt_of_monthNumber_lt {c c' : Civil} (h : c.Valid) (h' : c'.Valid)
    (hlt : c.monthNumber < c'.monthNumber) : c.dayNumber < c'.dayNumber := by
  have hnext := firstOfMonth_add_daysInMonth h
  have hmono := firstOfMonth_mono (show c.monthNumber + 1 ≤ c'.monthNumber by omega)
  obtain ⟨-, -, -, hday⟩ := h
  obtain ⟨-, -, hday', -⟩ := h'
  rw [dayNumber_eq, dayNumber_eq]
  omega

/-- Day numbers come in the order of years, months and days. -/
theorem dayNumber_lt_iff {c c' : Civil} (h : c.Valid) (h' : c'.Valid) :
    c.dayNumber < c'.dayNumber ↔ c.year < c'.year ∨
      c.year = c'.year ∧ (c.month < c'.month ∨ c.month = c'.month ∧ c.day < c'.day) := by
  have hm := monthNumber_eq h
  have hm' := monthNumber_eq h'
  have hbounds := And.intro h.1 h.2.1
  have hbounds' := And.intro h'.1 h'.2.1
  rcases Int.lt_trichotomy c.monthNumber c'.monthNumber with hlt | heq | hgt
  · have := dayNumber_lt_of_monthNumber_lt h h' hlt
    omega
  · rw [dayNumber_eq, dayNumber_eq, heq]
    omega
  · have := dayNumber_lt_of_monthNumber_lt h' h hgt
    omega

end Civil

namespace Date

theorem dayNumber_civil (d : Date) : d.civil.dayNumber = d.day := Civil.dayNumber_ofDay d.day

/-- The year is written with four digits and no sign. -/
def FourDigitYear (d : Date) : Prop := 0 ≤ d.civil.year ∧ d.civil.year ≤ 9999

theorem year_mono {a b : Date} (h : a ≤ b) : a.civil.year ≤ b.civil.year := by
  have hlt := Civil.dayNumber_lt_iff (Civil.ofDay_valid b.day) (Civil.ofDay_valid a.day)
  rw [le_iff, ← dayNumber_civil a, ← dayNumber_civil b] at h
  unfold civil at h ⊢
  omega

theorem le_addDaysClamped (d : Date) (n : Nat) : d ≤ d.addDaysClamped n := by
  have hlast := d.le_last
  rw [le_iff]
  unfold addDaysClamped addDays?
  split
  · simp only [Option.getD_some]
    omega
  · simp only [Option.getD_none, last, lastDay]
    omega

end Date

/-! ### The order of texts -/

theorem append_lt_append_iff {xs ys as bs : List Char} (h : xs.length = ys.length) :
    xs ++ as < ys ++ bs ↔ xs < ys ∨ xs = ys ∧ as < bs := by
  induction xs generalizing ys with
  | nil =>
    obtain rfl : ys = [] := List.length_eq_zero_iff.mp h.symm
    simp
  | cons x xs ih =>
    cases ys with
    | nil => cases h
    | cons y ys =>
      rw [List.cons_append, List.cons_append, List.cons_lt_cons_iff, List.cons_lt_cons_iff,
        ih (Nat.succ.inj h), List.cons.injEq]
      tauto

namespace DateText

theorem digitChar_lt_iff {m n : Nat} (hm : m < 10) (hn : n < 10) :
    Nat.digitChar m < Nat.digitChar n ↔ m < n := by
  have h : ∀ m < 10, ∀ n < 10, Nat.digitChar m < Nat.digitChar n ↔ m < n := by decide
  exact h m hm n hn

/-- Numbers of one width come in their order. -/
theorem padded_lt_padded_iff {w m n : Nat} (hw : 0 < w) (hm : m < 10 ^ w) (hn : n < 10 ^ w) :
    (padded w m).toList < (padded w n).toList ↔ m < n := by
  induction w, hw using Nat.le_induction generalizing m n with
  | base =>
    rw [padded_one (by omega), padded_one (by omega), List.cons_lt_cons_iff,
      digitChar_lt_iff (by omega) (by omega)]
    simp
  | succ w hw ih =>
    have hmw : m / 10 < 10 ^ w := by rw [Nat.pow_succ] at hm; omega
    have hnw : n / 10 < 10 ^ w := by rw [Nat.pow_succ] at hn; omega
    have hlength : (padded w (m / 10)).toList.length = (padded w (n / 10)).toList.length := by
      rw [length_padded hw hmw, length_padded hw hnw]
    have hdigit := digitChar_lt_iff (Nat.mod_lt m (by decide)) (Nat.mod_lt n (by decide))
    rw [padded_succ hw hm, padded_succ hw hn, append_lt_append_iff hlength, ih hmw hnw,
      List.cons_lt_cons_iff, hdigit]
    rcases Nat.lt_trichotomy (m / 10) (n / 10) with hlt | heq | hgt
    · simp only [hlt, true_or, true_iff]
      omega
    · rw [heq]
      simp only [Nat.lt_irrefl, false_or, true_and, List.not_lt_nil, and_false, or_false]
      omega
    · have hne : (padded w (m / 10)).toList ≠ (padded w (n / 10)).toList := by
        intro h
        have hback := (ih hnw hmw).mpr hgt
        rw [h] at hback
        exact List.lt_irrefl _ hback
      simp only [hne, false_and, or_false]
      omega

theorem padded_eq_padded_iff {w m n : Nat} (hw : 0 < w) (hm : m < 10 ^ w) (hn : n < 10 ^ w) :
    (padded w m).toList = (padded w n).toList ↔ m = n := by
  have hlt := padded_lt_padded_iff hw hm hn
  have hgt := padded_lt_padded_iff hw hn hm
  constructor
  · intro h
    rw [h] at hlt hgt
    have hle := mt hlt.mpr (List.lt_irrefl _)
    have hge := mt hgt.mpr (List.lt_irrefl _)
    omega
  · rintro rfl
    rfl

/-- Dates of four-digit years are written in the order of the calendar. -/
theorem write_lt_write_iff {a b : Date} (ha : a.FourDigitYear) (hb : b.FourDigitYear) :
    write a < write b ↔ a < b := by
  obtain ⟨year, month, day, hcivil⟩ : ∃ year month day, a.civil = ⟨year, month, day⟩ :=
    ⟨_, _, _, rfl⟩
  obtain ⟨year', month', day', hcivil'⟩ : ∃ year month day, b.civil = ⟨year, month, day⟩ :=
    ⟨_, _, _, rfl⟩
  have hvalid : (Civil.mk year month day).Valid := hcivil ▸ Civil.ofDay_valid a.day
  have hvalid' : (Civil.mk year' month' day').Valid := hcivil' ▸ Civil.ofDay_valid b.day
  have hday := Civil.daysInMonth_le year month
  have hday' := Civil.daysInMonth_le year' month'
  have horder := Civil.dayNumber_lt_iff hvalid hvalid'
  rw [← hcivil, ← hcivil', Date.dayNumber_civil, Date.dayNumber_civil, hcivil, hcivil'] at horder
  unfold Date.FourDigitYear at ha hb
  rw [hcivil] at ha
  rw [hcivil'] at hb
  unfold Civil.Valid at hvalid hvalid'
  dsimp only at ha hb hvalid hvalid' horder
  have hy : year.toNat < 10 ^ 4 := by omega
  have hy' : year'.toNat < 10 ^ 4 := by omega
  have hm : month < 10 ^ 2 := by omega
  have hm' : month' < 10 ^ 2 := by omega
  have hd : day < 10 ^ 2 := by omega
  have hd' : day' < 10 ^ 2 := by omega
  rw [String.lt_iff_toList_lt, toList_write hcivil, toList_write hcivil', writeYear_unsigned ha,
    writeYear_unsigned hb, append_lt_append_iff, List.cons_lt_cons_iff, append_lt_append_iff,
    List.cons_lt_cons_iff, padded_lt_padded_iff (by decide) hy hy',
    padded_lt_padded_iff (by decide) hm hm', padded_lt_padded_iff (by decide) hd hd',
    padded_eq_padded_iff (by decide) hy hy', padded_eq_padded_iff (by decide) hm hm', Date.lt_iff,
    horder]
  · simp only [Char.lt_irrefl, false_or, true_and]
    omega
  · rw [length_padded (by decide) hm, length_padded (by decide) hm']
  · rw [length_padded (by decide) hy, length_padded (by decide) hy']

theorem write_le_write_iff {a b : Date} (ha : a.FourDigitYear) (hb : b.FourDigitYear) :
    write a ≤ write b ↔ a ≤ b := by
  rw [← String.not_lt, write_lt_write_iff hb ha, Date.lt_iff, Date.le_iff, Int.not_lt]

/-- A date with a signed year is written as an earlier text than every other one. -/
theorem write_lt_of_signed {a d : Date} (ha : a.FourDigitYear) (hd : ¬ d.FourDigitYear) :
    write d < write a := by
  obtain ⟨year, month, day, hcivil⟩ : ∃ year month day, a.civil = ⟨year, month, day⟩ :=
    ⟨_, _, _, rfl⟩
  obtain ⟨year', month', day', hcivil'⟩ : ∃ year month day, d.civil = ⟨year, month, day⟩ :=
    ⟨_, _, _, rfl⟩
  unfold Date.FourDigitYear at ha hd
  rw [hcivil] at ha
  rw [hcivil'] at hd
  dsimp only at ha hd
  obtain ⟨k, cs, hk, hcs⟩ := exists_padded_cons (w := 4) (n := year.toNat) (by decide) (by omega)
  have hsign : ∀ k < 10, '-' < Nat.digitChar k ∧ '+' < Nat.digitChar k := by decide
  rw [String.lt_iff_toList_lt, toList_write hcivil, toList_write hcivil', writeYear_unsigned ha,
    hcs]
  by_cases hminus : year' < 0
  · rw [writeYear_minus hminus]
    exact List.cons_lt_cons_iff.mpr (Or.inl (hsign k hk).1)
  · rw [writeYear_plus (by omega)]
    exact List.cons_lt_cons_iff.mpr (Or.inl (hsign k hk).2)

/-- Between two dates the texts are those of the dates between. -/
def OrderedWithin (a b : Date) : Prop :=
  ∀ d, write a ≤ write d ∧ write d ≤ write b ↔ a ≤ d ∧ d ≤ b

/-- A window that begins in a year of four digits has its dates in order when, and only
    when, it ends in such a year. -/
theorem orderedWithin_iff {a b : Date} (ha : a.FourDigitYear) (hab : a ≤ b) :
    OrderedWithin a b ↔ b.civil.year ≤ 9999 := by
  constructor
  · intro h
    by_contra hyear
    have hb : ¬ b.FourDigitYear := fun h => hyear h.2
    have hself := (h a).mpr ⟨Int.le_refl _, hab⟩
    exact String.not_le.mpr (write_lt_of_signed ha hb) hself.2
  · intro hyear d
    have hb : b.FourDigitYear := ⟨Int.le_trans ha.1 (Date.year_mono hab), hyear⟩
    by_cases hd : d.FourDigitYear
    · rw [write_le_write_iff ha hd, write_le_write_iff hd hb]
    · have hbefore : ¬ write a ≤ write d := String.not_le.mpr (write_lt_of_signed ha hd)
      constructor
      · intro h
        exact absurd h.1 hbefore
      · intro h
        exact absurd
          ⟨Int.le_trans ha.1 (Date.year_mono h.1), Int.le_trans (Date.year_mono h.2) hyear⟩ hd

end DateText

end Workshop
