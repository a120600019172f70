/-
  Workshop/Proofs/Calendar/WrittenInstant.lean
  ============================================
  **Instants are read as they were written** (`Instant.read_write`), if their year has four
  digits; of a longer or negative year the reader takes the wrong digits or none.

  A number with leading zeros is read digit by digit (`DateText.number_padded`), and every
  day of the calendar has a civil date that exists (`Civil.ofDay_valid`).
-/
import Workshop.Calendar.Instant
import Workshop.Proofs.Execution.Calls
import Mathlib.Data.Nat.Init
import Mathlib.Tactic.IntervalCases

namespace Workshop

/-! ### The civil date of a day -/

namespace Civil

/-- The 366th day of a year of an era is a leap day: that of the next year. -/
theorem leap_of_lastDay {k : Nat} (h : k < 146097)
    (hlast : k - daysBeforeYear (yearOfEraDay k) = 365) :
    (yearOfEraDay k + 1) % 4 = 0 ∧
      ((yearOfEraDay k + 1) % 100 ≠ 0 ∨ yearOfEraDay k = 399) := by
  obtain ⟨c, f, s, r, hy, hd, hk, hparts⟩ := yearOfEraDay_parts h
  rw [hd] at hlast
  rw [hy]
  omega

/-- Only February depends on the year. -/
theorem daysInMonth_calendarMonth {m : Nat} (h : m ≤ 10) (year : Int) :
    daysInMonth year (calendarMonth m) = daysBeforeMonth (m + 1) - daysBeforeMonth m := by
  interval_cases m <;> rfl

theorem daysInMonth_february {year : Int} {y : Nat} (hyear : year % 400 = (y + 1) % 400)
    (hleap : (y + 1) % 4 = 0 ∧ ((y + 1) % 100 ≠ 0 ∨ y = 399)) : daysInMonth year 2 = 29 := by
  have hleap : isLeapYear year = true := by
    simp only [isLeapYear, Bool.and_eq_true, Bool.or_eq_true, beq_iff_eq, bne_iff_ne]
    omega
  simp [daysInMonth, hleap]

theorem daysInMonth_le (year : Int) (month : Nat) : daysInMonth year month ≤ 31 := by
  unfold daysInMonth
  split
  · split <;> omega
  · split <;> omega

/-- The civil date of a day number is in the calendar. -/
theorem ofDay_valid (n : Int) : (ofDay n).Valid := by
  obtain ⟨k, hk⟩ : ∃ k : Nat, k = (n % 146097).toNat := ⟨_, rfl⟩
  have hlt : k < 146097 := by omega
  have hy := yearOfEraDay_spec hlt
  have hlast := leap_of_lastDay hlt
  unfold ofDay Valid
  simp only [← hk]
  generalize yearOfEraDay k = y at *
  generalize k - daysBeforeYear y = d at *
  have hm := monthOfYearDay_spec hy.2.2
  have hd : monthOfYearDay d = (5 * d + 2) / 153 := rfl
  generalize monthOfYearDay d = m at *
  have hmonth : 1 ≤ calendarMonth m ∧ calendarMonth m ≤ 12 := by
    unfold calendarMonth
    split <;> omega
  refine ⟨hmonth.1, hmonth.2, Nat.le_add_left 1 _, ?_⟩
  rcases Nat.lt_or_eq_of_le hm.1 with h | rfl
  · have hnext : d < daysBeforeMonth (m + 1) := by
      unfold daysBeforeMonth
      omega
    rw [daysInMonth_calendarMonth (by omega)]
    omega
  · -- the last month of the year of counting is February
    change d - 337 + 1 ≤ daysInMonth (n / 146097 * 400 + (y : Int) + 1) 2
    by_cases h : d = 365
    · rw [daysInMonth_february (y := y) (by omega) (hlast h)]
      omega
    · have hshort : 28 ≤ daysInMonth (n / 146097 * 400 + (y : Int) + 1) 2 := by
        unfold daysInMonth
        split <;> split <;> omega
      omega

end Civil

namespace Date

theorem toDate?_civil (d : Date) : d.civil.toDate? = some d := by
  unfold civil Civil.toDate?
  rw [if_pos (Civil.ofDay_valid d.day), Civil.dayNumber_ofDay, ofDay?,
    dif_pos ⟨d.first_le, d.le_last⟩]

end Date

namespace DateText

/-! ### Numbers with leading zeros -/

theorem padded_succ {w n : Nat} (hw : 0 < w) (h : n < 10 ^ (w + 1)) :
    (padded (w + 1) n).toList = (padded w (n / 10)).toList ++ [Nat.digitChar (n % 10)] := by
  unfold padded
  rw [String.toList_append, String.toList_append, String.toList_ofList, String.toList_ofList,
    ← String.length_toList, ← String.length_toList, Nat.toList_repr, Nat.toList_repr]
  by_cases hn : n < 10
  · have hzero : n / 10 = 0 := by omega
    obtain ⟨v, rfl⟩ : ∃ v, w = v + 1 := ⟨w - 1, by omega⟩
    rw [Nat.toDigits_of_lt_base hn, hzero, Nat.toDigits_zero, Nat.mod_eq_of_lt hn]
    simp only [List.length_singleton, Nat.add_sub_cancel]
    rw [List.replicate_succ']
  · rw [Nat.toDigits_of_base_le (by decide) (by omega), List.length_append,
      List.length_singleton, Nat.add_sub_add_right, List.append_assoc]

theorem padded_one {n : Nat} (h : n < 10) : (padded 1 n).toList = [Nat.digitChar n] := by
  unfold padded
  rw [String.toList_append, String.toList_ofList, ← String.length_toList, Nat.toList_repr,
    Nat.toDigits_of_lt_base h]
  rfl

theorem digit?_digitChar {d : Nat} (h : d < 10) : digit? (Nat.digitChar d) = some d := by
  revert d
  decide

theorem digits_cons {need room acc d : Nat} {cs : List Char} (hd : d < 10)
    (hlimit : acc * 10 + d ≤ numberLimit) :
    digits need (room + 1) acc (Nat.digitChar d :: cs) =
      digits (need - 1) room (acc * 10 + d) cs := by
  rw [digits, digit?_digitChar hd]
  dsimp only
  rw [if_neg (by omega)]

/-- A padded number is read digit by digit onto what was read before it. -/
theorem digits_padded {w : Nat} (hw : 0 < w) {need room acc n : Nat} {rest : List Char}
    (hn : n < 10 ^ w) (hlimit : acc * 10 ^ w + n ≤ numberLimit) :
    digits need (w + room) acc ((padded w n).toList ++ rest) =
      digits (need - w) room (acc * 10 ^ w + n) rest := by
  induction w, hw using Nat.le_induction generalizing n room rest with
  | base =>
    rw [padded_one (by omega)]
    rw [show 1 + room = room + 1 by omega]
    exact digits_cons (by omega) (by omega)
  | succ w hw ih =>
    have hdiv : n / 10 < 10 ^ w := by
      rw [Nat.pow_succ] at hn
      omega
    have hvalue : (acc * 10 ^ w + n / 10) * 10 + n % 10 = acc * 10 ^ (w + 1) + n := by
      rw [Nat.pow_succ, ← Nat.mul_assoc]
      omega
    rw [padded_succ hw hn, List.append_assoc, show w + 1 + room = w + (room + 1) by omega,
      ih hdiv (by omega)]
    rw [List.singleton_append, digits_cons (Nat.mod_lt n (by decide)) (by omega), hvalue]
    rw [Nat.sub_sub]

theorem length_padded {w n : Nat} (hw : 0 < w) (hn : n < 10 ^ w) :
    (padded w n).toList.length = w := by
  induction w, hw using Nat.le_induction generalizing n with
  | base => rw [padded_one (by omega)]; rfl
  | succ w hw ih =>
    rw [padded_succ hw hn, List.length_append, ih (by rw [Nat.pow_succ] at hn; omega)]
    rfl

theorem length_le_utf8ByteSize (cs : List Char) : cs.length ≤ (String.ofList cs).utf8ByteSize := by
  induction cs with
  | nil => simp
  | cons c cs ih =>
    rw [String.ofList_cons, String.utf8ByteSize_append, String.utf8ByteSize_singleton]
    have := c.utf8Size_pos
    simp only [List.length_cons]
    omega

/-- What stops the reading of a number. -/
def Stops (room : Nat) (rest : List Char) : Prop :=
  room = 0 ∨ ∃ c cs, rest = c :: cs ∧ digit? c = none

theorem digits_stops {room acc : Nat} {rest : List Char} (h : Stops room rest) :
    digits 0 room acc rest = .ok (acc, rest) := by
  rcases h with rfl | ⟨c, cs, rfl, hc⟩
  · rw [digits]
  · cases room with
    | zero => rw [digits]
    | succ room => rw [digits, hc]; rfl

theorem number_padded {w : Nat} (hw : 0 < w) {need room n : Nat} {rest : List Char}
    (hneed : need ≤ w) (hn : n < 10 ^ w) (hlimit : n ≤ numberLimit) (hrest : Stops room rest) :
    number need (w + room) ((padded w n).toList ++ rest) = .ok (n, rest) := by
  have hlong : ¬ (String.ofList ((padded w n).toList ++ rest)).utf8ByteSize < need := by
    have := length_le_utf8ByteSize ((padded w n).toList ++ rest)
    rw [List.length_append, length_padded hw hn] at this
    omega
  rw [number, if_neg hlong, digits_padded hw hn (by omega), Nat.zero_mul, Nat.zero_add,
    Nat.sub_eq_zero_of_le hneed, digits_stops hrest]

end DateText

namespace Instant

open DateText

/-- The year is written with four digits. -/
def FourDigitYear (t : Instant) : Prop := 0 ≤ t.date.civil.year ∧ t.date.civil.year ≤ 9999

theorem digit?_plus : digit? '+' = none := by decide

/-- The digits of a fraction are read as its nanoseconds. -/
theorem fraction_padded {w n nano : Nat} (hw : 0 < w) (hw9 : w ≤ 9) (hn : n < 10 ^ w)
    (hvalue : n * 10 ^ (9 - w) = nano) (h : nano < 1000000000) (rest : List Char) :
    fraction ((padded w n).toList ++ '+' :: rest) = .ok (nano, '+' :: rest) := by
  have hlimit : n ≤ numberLimit := by
    have : n ≤ nano := by
      rw [← hvalue]
      exact Nat.le_mul_of_pos_right n (Nat.pow_pos (by decide))
    unfold numberLimit
    omega
  have hnumber : number 1 (w + (9 - w)) ((padded w n).toList ++ '+' :: rest) = _ :=
    number_padded hw (by omega) hn hlimit (Or.inr ⟨_, _, rfl, digit?_plus⟩)
  rw [Nat.add_sub_cancel' hw9] at hnumber
  refine bind_eq_ok_iff.mpr ⟨_, hnumber, ?_⟩
  have hlength : ((padded w n).toList ++ '+' :: rest).length - ('+' :: rest).length = w := by
    rw [List.length_append, length_padded hw hn]
    omega
  dsimp only
  rw [hlength]
  change Except.ok (n * 10 ^ (9 - w), List.dropWhile _ ('+' :: rest)) = _
  rw [hvalue]
  rfl

/-- A fraction is left out or stands after a point; either way it is read. -/
theorem writeFraction_cases {nano : Nat} (h : nano < 1000000000) (rest : List Char) :
    (nano = 0 ∧ (writeFraction nano).toList = []) ∨
      ∃ digits, (writeFraction nano).toList = '.' :: digits ∧
        fraction (digits ++ '+' :: rest) = .ok (nano, '+' :: rest) := by
  unfold writeFraction
  split
  · rename_i hzero
    exact Or.inl ⟨hzero, rfl⟩
  · right
    have hpoint : ∀ w n, ("." ++ padded w n).toList = '.' :: (padded w n).toList := by
      intro w n
      rw [String.toList_append]
      rfl
    split
    · exact ⟨_, hpoint _ _, fraction_padded (by decide) (by decide) (by omega) (by omega) h rest⟩
    · split
      · exact ⟨_, hpoint _ _, fraction_padded (by decide) (by decide) (by omega) (by omega) h rest⟩
      · exact ⟨_, hpoint _ _, fraction_padded (by decide) (by decide) (by omega) (by omega) h rest⟩

theorem ofLocal?_self (t : Instant) : ofLocal? t.date t.second t.nano 0 = some t := by
  have hsecond := t.second_lt
  have hdate : Date.ofDay? (t.date.day + ((t.second : Int) - 0 * 60) / 86400) = some t.date := by
    have hzero : t.date.day + ((t.second : Int) - 0 * 60) / 86400 = t.date.day := by omega
    rw [hzero, Date.ofDay?, dif_pos ⟨t.date.first_le, t.date.le_last⟩]
  have hmod : (((t.second : Int) - 0 * 60) % 86400).toNat = t.second := by omega
  unfold ofLocal?
  dsimp only
  rw [hdate]
  dsimp only
  rw [dif_pos ⟨t.nano_lt, by rw [hmod]; exact t.leap_last⟩]
  simp only [hmod]

/-- A leap second is shown as second 60. -/
theorem shown (t : Instant) : ∃ second nano leap : Nat, second ≤ 60 ∧ nano < 1000000000 ∧
    leap = (if second = 60 then 1 else 0) ∧
    t.second / 3600 * 3600 + t.second / 60 % 60 * 60 + second - leap = t.second ∧
    nano + leap * 1000000000 = t.nano ∧
    t.write = DateText.write t.date ++ "T" ++ padded 2 (t.second / 3600) ++ ":" ++
      padded 2 (t.second / 60 % 60) ++ ":" ++ padded 2 second ++ writeFraction nano ++
      "+00:00" := by
  have hsecond := t.second_lt
  have hnano := t.nano_lt
  have hlast := t.leap_last
  by_cases hleap : 1000000000 ≤ t.nano
  · refine ⟨t.second % 60 + 1, t.nano - 1000000000, 1, by omega, by omega, ?_, by omega,
      by omega, ?_⟩
    · rw [if_pos (by omega)]
    · unfold write writeLocal
      simp only [if_pos hleap]
  · refine ⟨t.second % 60, t.nano, 0, by omega, by omega, ?_, by omega, by omega, ?_⟩
    · rw [if_neg (by omega)]
    · unfold write writeLocal
      simp only [if_neg hleap, Nat.add_zero]

/-- The written form, part by part. -/
theorem write_toList {t : Instant} {year : Int} {month day second nano : Nat}
    (hcivil : t.date.civil = ⟨year, month, day⟩) (h : 0 ≤ year ∧ year ≤ 9999)
    (hwrite : t.write = DateText.write t.date ++ "T" ++ padded 2 (t.second / 3600) ++ ":" ++
      padded 2 (t.second / 60 % 60) ++ ":" ++ padded 2 second ++ writeFraction nano ++
      "+00:00") :
    t.write.toList = (padded 4 year.toNat).toList ++ '-' :: ((padded 2 month).toList ++
      '-' :: ((padded 2 day).toList ++ 'T' :: ((padded 2 (t.second / 3600)).toList ++
        ':' :: ((padded 2 (t.second / 60 % 60)).toList ++ ':' :: ((padded 2 second).toList ++
          ((writeFraction nano).toList ++ ['+', '0', '0', ':', '0', '0'])))))) := by
  have hdash : "-".toList = ['-'] := rfl
  have hletter : "T".toList = ['T'] := rfl
  have hcolon : ":".toList = [':'] := rfl
  have hoffset : "+00:00".toList = ['+', '0', '0', ':', '0', '0'] := rfl
  rw [hwrite]
  unfold DateText.write writeYear
  rw [hcivil]
  dsimp only
  rw [if_pos h]
  simp only [String.toList_append, List.append_assoc, hdash, hletter, hcolon, hoffset,
    List.cons_append, List.nil_append]

theorem number_exact {w n : Nat} {rest : List Char} (hw : 0 < w) (hw4 : w ≤ 4)
    (hn : n < 10 ^ w) : number w w ((padded w n).toList ++ rest) = .ok (n, rest) := by
  have hpow : 10 ^ w ≤ 10 ^ 4 := Nat.pow_le_pow_right (by decide) hw4
  have hlimit : n ≤ numberLimit := by
    unfold numberLimit
    omega
  exact number_padded hw (Nat.le_refl w) hn hlimit (Or.inl rfl)

/-- An instant in a year with four digits is read as it was written. -/
theorem read_write {t : Instant} (h : t.FourDigitYear) : read t.write = .ok t := by
  obtain ⟨second, nano, leap, hsecond, hnano, hleap, hclock, hfraction, hwrite⟩ := t.shown
  obtain ⟨year, month, day, hcivil⟩ : ∃ year month day, t.date.civil = ⟨year, month, day⟩ :=
    ⟨_, _, _, rfl⟩
  have hvalid : (Civil.mk year month day).Valid := hcivil ▸ Civil.ofDay_valid t.date.day
  have hdate : (Civil.mk year month day).toDate? = some t.date := hcivil ▸ t.date.toDate?_civil
  obtain ⟨-, hmonth, -, hday⟩ := hvalid
  have hmonths := Civil.daysInMonth_le year month
  dsimp only at hmonth hday
  have hyear : 0 ≤ year ∧ year ≤ 9999 := by
    unfold FourDigitYear at h
    rwa [hcivil] at h
  have hhour : t.second / 3600 < 24 := by
    have := t.second_lt
    omega
  have hlist := write_toList hcivil hyear hwrite
  have hlong : ¬ t.write.utf8ByteSize < shortest := by
    have hbytes := length_le_utf8ByteSize t.write.toList
    rw [String.ofList_toList, hlist] at hbytes
    simp only [List.length_append, List.length_cons, List.length_nil] at hbytes
    rw [length_padded (by decide) (by omega), length_padded (by decide) (by omega),
      length_padded (by decide) (by omega), length_padded (by decide) (by omega),
      length_padded (by decide) (by omega), length_padded (by decide) (by omega)] at hbytes
    unfold shortest
    omega
  unfold read
  rw [if_neg hlong, hlist]
  refine bind_eq_ok_iff.mpr ⟨_, number_exact (by decide) (by decide) (by omega), ?_⟩
  refine bind_eq_ok_iff.mpr ⟨_, rfl, ?_⟩
  refine bind_eq_ok_iff.mpr ⟨_, number_exact (by decide) (by decide) (by omega), ?_⟩
  refine bind_eq_ok_iff.mpr ⟨_, rfl, ?_⟩
  refine bind_eq_ok_iff.mpr ⟨_, number_exact (by decide) (by decide) (by omega), ?_⟩
  dsimp only
  rw [Int.toNat_of_nonneg hyear.1, hdate]
  dsimp only
  refine bind_eq_ok_iff.mpr ⟨_, rfl, ?_⟩
  refine bind_eq_ok_iff.mpr ⟨_, number_exact (by decide) (by decide) (by omega), ?_⟩
  refine bind_eq_ok_iff.mpr ⟨_, rfl, ?_⟩
  refine bind_eq_ok_iff.mpr ⟨_, number_exact (by decide) (by decide) (by omega), ?_⟩
  refine bind_eq_ok_iff.mpr ⟨_, rfl, ?_⟩
  refine bind_eq_ok_iff.mpr ⟨_, number_exact (by decide) (by decide) (by omega), ?_⟩
  dsimp only
  rcases writeFraction_cases hnano ['0', '0', ':', '0', '0'] with
    ⟨rfl, hnone⟩ | ⟨digits, hsome, hread⟩
  case' inl => rw [hnone]; refine bind_eq_ok_iff.mpr ⟨_, rfl, ?_⟩
  case' inr => rw [hsome]; refine bind_eq_ok_iff.mpr ⟨_, hread, ?_⟩
  all_goals
    dsimp only
    rw [if_neg (by omega)]
    refine bind_eq_ok_iff.mpr ⟨(0, []), rfl, ?_⟩
    dsimp only
    rw [if_neg (by simp), if_neg (by decide), ← hleap, hclock, hfraction, ofLocal?_self]

end Instant

end Workshop
