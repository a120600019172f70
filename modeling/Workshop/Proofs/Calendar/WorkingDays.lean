/-
  Workshop/Proofs/Calendar/WorkingDays.lean
  =========================================
  **Moving forward by working days and counting them.**  Both are reckoned in whole weeks,
  and both do what a walk from day to day does.  The first working day is looked for on the
  next day when a date is none (`firstBusinessDay_of_not_isBusinessDay`), one more working
  day ahead is the first one after the day reached (`nthBusinessDay_succ`), and a count
  steps past one day at a time (`businessDaysBetween_next`) until no day follows
  (`businessDaysBetween_last`).

  The two undo each other (`nthBusinessDay_counts`).  Both are compared with the set of
  working days between two dates: its size is the count, but for the last date of the
  calendar (`ncard_workingDays`), and it gains one member with each step forward
  (`workingDays_laterBusinessDay`).
-/
import Workshop.Calendar.BusinessDay
import Mathlib.Data.Set.Card

namespace Workshop.Date

instance : Finite Date := by
  refine Finite.of_injective
    (fun d : Date => (⟨(d.day - firstDay).toNat, ?_⟩ : Fin (lastDay - firstDay + 1).toNat)) ?_
  · have h1 := d.first_le
    have h2 := d.le_last
    simp only [firstDay, lastDay]
    omega
  · intro a b h
    have ha := a.first_le
    have hb := b.first_le
    have hab := congrArg Fin.val h
    simp only [firstDay] at hab
    apply ext_day
    omega

/-- The working days from one date to another, both included. -/
def workingDays (start stop : Date) : Set Date :=
  {d | start ≤ d ∧ d ≤ stop ∧ d.isBusinessDay = true}

/-- The first working day after a date. -/
def laterBusinessDay (d : Date) : Option Date := d.next?.bind firstBusinessDay

/-- What holds of the last date, and of a date when it holds of the day after it, holds of
    every date. -/
theorem walk_induction {P : Date → Prop} (of_last : P last)
    (of_next : ∀ {d e : Date}, d.next? = some e → P e → P d) (d : Date) : P d := by
  induction hn : d.daysLeft using Nat.strong_induction_on generalizing d with
  | _ n ih =>
    cases hnext : d.next? with
    | none =>
      rw [next?_eq_none_iff.mp hnext]
      exact of_last
    | some e => exact of_next hnext (ih e.daysLeft (hn ▸ daysLeft_next hnext) e rfl)

theorem isBusinessDay_iff {d : Date} : d.isBusinessDay = true ↔ d.weekday < 5 := by
  simp [isBusinessDay]

theorem addDays?_zero (d : Date) : d.addDays? 0 = some d :=
  addDays?_eq_some_iff.mpr (by simp)

theorem addDays?_add (d : Date) (m n : Nat) :
    d.addDays? (m + n) = (d.addDays? m).bind fun e => e.addDays? n := by
  unfold addDays?
  by_cases hm : d.day + m ≤ 95745704
  · have hsum : d.day + (m + n : Nat) = d.day + m + n := by omega
    simp only [hm, hsum, dif_pos, Option.bind_some]
  · have hmn : ¬ d.day + (m + n : Nat) ≤ 95745704 := by omega
    rw [dif_neg hm, dif_neg hmn, Option.bind_none]

/-! ### Moving forward, one day at a time -/

theorem firstBusinessDay_of_isBusinessDay {d : Date} (h : d.isBusinessDay = true) :
    d.firstBusinessDay = some d :=
  if_pos h

/-- On a weekend the search goes on with the next day. -/
theorem firstBusinessDay_of_not_isBusinessDay {d : Date} (h : ¬ d.isBusinessDay = true) :
    d.firstBusinessDay = d.laterBusinessDay := by
  have hlt := d.weekday_lt
  have hw : ¬ d.weekday < 5 := fun hd => h (isBusinessDay_iff.mpr hd)
  have hsplit : 7 - d.weekday = 1 + (6 - d.weekday) := by omega
  rw [firstBusinessDay, if_neg h, laterBusinessDay, hsplit, addDays?_add, ← next?]
  cases hnext : d.next? with
  | none => rfl
  | some e =>
    have he := weekday_addDays hnext
    simp only [Option.bind_some]
    rcases (by omega : d.weekday = 5 ∨ d.weekday = 6) with hd | hd
    · have hsunday : e.weekday = 6 := by omega
      simp [firstBusinessDay, isBusinessDay, hd, hsunday]
    · have hmonday : e.weekday = 0 := by omega
      simp [firstBusinessDay, isBusinessDay, hd, hmonday, addDays?_zero]

/-- After a Friday comes a Monday, and after any other working day the next day. -/
theorem laterBusinessDay_of_isBusinessDay {d : Date} (h : d.isBusinessDay = true) :
    d.laterBusinessDay = d.addDays? (if d.weekday = 4 then 3 else 1) := by
  have hw := isBusinessDay_iff.mp h
  by_cases hfriday : d.weekday = 4
  · rw [if_pos hfriday, laterBusinessDay, addDays?_add d 1 2, ← next?]
    cases hnext : d.next? with
    | none => rfl
    | some e =>
      have hsaturday : e.weekday = 5 := by
        have := weekday_addDays hnext
        omega
      simp [firstBusinessDay, isBusinessDay, hsaturday]
  · rw [if_neg hfriday, laterBusinessDay, ← next?]
    cases hnext : d.next? with
    | none => rfl
    | some e =>
      have he : e.isBusinessDay = true := by
        have := weekday_addDays hnext
        rw [isBusinessDay_iff]
        omega
      exact firstBusinessDay_of_isBusinessDay he

theorem daysToLaterBusinessDay_succ (d : Date) (k : Nat) :
    d.daysToLaterBusinessDay (k + 1) =
      d.daysToLaterBusinessDay k + if (d.weekday + k) % 5 = 4 then 3 else 1 := by
  simp only [daysToLaterBusinessDay]
  split <;> omega

theorem weekday_add_daysToLaterBusinessDay (d : Date) (k : Nat) :
    (d.weekday + d.daysToLaterBusinessDay k) % 7 = (d.weekday + k) % 5 := by
  simp only [daysToLaterBusinessDay]
  omega

theorem nthBusinessDay_max (s : Date) (n : Nat) :
    s.nthBusinessDay (max n 1) = s.nthBusinessDay n := by
  rw [nthBusinessDay, nthBusinessDay, Nat.max_eq_left (Nat.le_max_right n 1)]

theorem nthBusinessDay_one (s : Date) : s.nthBusinessDay 1 = s.firstBusinessDay := by
  unfold nthBusinessDay
  cases hfirst : s.firstBusinessDay with
  | none => rfl
  | some d =>
    have hw := isBusinessDay_iff.mp (firstBusinessDay_isBusinessDay hfirst)
    have hzero : d.daysToLaterBusinessDay 0 = 0 := by
      simp only [daysToLaterBusinessDay]
      omega
    simp [hzero, addDays?_zero]

/-- One more working day ahead is the first one after the day reached so far. -/
theorem nthBusinessDay_succ (s : Date) {n : Nat} (hn : 1 ≤ n) :
    s.nthBusinessDay (n + 1) = (s.nthBusinessDay n).bind laterBusinessDay := by
  obtain ⟨k, rfl⟩ : ∃ k, n = k + 1 := ⟨n - 1, by omega⟩
  have hmax (m : Nat) : max (m + 1) 1 - 1 = m := by omega
  simp only [nthBusinessDay, hmax, Option.bind_assoc]
  cases hfirst : s.firstBusinessDay with
  | none => rfl
  | some d =>
    have hw := isBusinessDay_iff.mp (firstBusinessDay_isBusinessDay hfirst)
    simp only [Option.bind_some]
    rw [daysToLaterBusinessDay_succ, addDays?_add]
    cases hreached : d.addDays? (d.daysToLaterBusinessDay k) with
    | none => rfl
    | some e =>
      have he : e.weekday = (d.weekday + k) % 5 := by
        rw [weekday_addDays hreached, weekday_add_daysToLaterBusinessDay]
      have hwork : e.isBusinessDay = true := by
        rw [isBusinessDay_iff]
        omega
      simp only [Option.bind_some]
      rw [laterBusinessDay_of_isBusinessDay hwork, he]

/-! ### Counting, one day at a time -/

theorem businessDaysBefore_mono {m n : Int} (h : m ≤ n) :
    businessDaysBefore m ≤ businessDaysBefore n := by
  unfold businessDaysBefore
  omega

theorem businessDaysBefore_next (d : Date) :
    businessDaysBefore (d.day + 1) =
      businessDaysBefore d.day + if d.isBusinessDay then 1 else 0 := by
  simp only [isBusinessDay_iff, weekday, businessDaysBefore]
  split <;> omega

theorem businessDaysBetween_of_lt {start stop : Date} (h : stop < start) :
    start.businessDaysBetween stop = 0 := by
  rw [lt_iff] at h
  have := businessDaysBefore_mono (m := min (stop.day + 1) lastDay) (n := start.day) (by omega)
  unfold businessDaysBetween
  omega

theorem businessDaysBetween_last (stop : Date) : last.businessDaysBetween stop = 0 := by
  have := businessDaysBefore_mono (m := min (stop.day + 1) lastDay) (n := last.day)
    (Int.min_le_right _ _)
  unfold businessDaysBetween
  omega

theorem businessDaysBetween_next {start stop d : Date} (hnext : start.next? = some d)
    (h : start ≤ stop) :
    start.businessDaysBetween stop =
      (if start.isBusinessDay then 1 else 0) + d.businessDaysBetween stop := by
  have hday := next?_eq_some_iff.mp hnext
  have hlast := d.le_last
  rw [le_iff] at h
  have hstep := businessDaysBefore_next start
  have := businessDaysBefore_mono (m := start.day + 1) (n := min (stop.day + 1) lastDay)
    (by unfold lastDay; omega)
  unfold businessDaysBetween
  rw [hday]
  by_cases hb : start.isBusinessDay = true
  · rw [if_pos hb] at hstep ⊢
    omega
  · rw [if_neg hb] at hstep ⊢
    omega

/-! ### The days counted -/

theorem workingDays_of_lt {start stop : Date} (h : stop < start) :
    workingDays start stop = ∅ := by
  rw [Set.eq_empty_iff_forall_notMem]
  rintro x ⟨hx, hxs, -⟩
  rw [le_iff] at hx hxs
  rw [lt_iff] at h
  omega

theorem workingDays_self {d : Date} (h : d.isBusinessDay = true) : workingDays d d = {d} := by
  ext x
  simp only [workingDays, Set.mem_ofPred_eq, Set.mem_singleton_iff]
  constructor
  · rintro ⟨hdx, hxd, -⟩
    exact ext_day (Int.le_antisymm hxd hdx)
  · rintro rfl
    exact ⟨Int.le_refl _, Int.le_refl _, h⟩

theorem le_iff_of_next {d e x : Date} (hnext : d.next? = some e) : d ≤ x ↔ x = d ∨ e ≤ x := by
  have hday := next?_eq_some_iff.mp hnext
  rw [le_iff, le_iff]
  constructor
  · intro h
    by_cases hxd : x.day = d.day
    · exact Or.inl (ext_day hxd)
    · exact Or.inr (by omega)
  · rintro (rfl | h)
    · exact Int.le_refl _
    · omega

theorem mem_workingDays_next {d e stop x : Date} (hnext : d.next? = some e) (h : d ≤ stop) :
    x ∈ workingDays d stop ↔ x = d ∧ d.isBusinessDay = true ∨ x ∈ workingDays e stop := by
  have hself : (x = d ∧ x ≤ stop ∧ x.isBusinessDay = true) ↔
      x = d ∧ d.isBusinessDay = true := by
    constructor
    · rintro ⟨rfl, -, hb⟩
      exact ⟨rfl, hb⟩
    · rintro ⟨rfl, hb⟩
      exact ⟨rfl, h, hb⟩
  simp only [workingDays, Set.mem_ofPred_eq, le_iff_of_next hnext, or_and_right, hself]

theorem ncard_workingDays_next {d e stop : Date} (hnext : d.next? = some e) (h : d ≤ stop) :
    (workingDays d stop).ncard =
      (if d.isBusinessDay then 1 else 0) + (workingDays e stop).ncard := by
  by_cases hb : d.isBusinessDay = true
  · have hd : d ∉ workingDays e stop := by
      have hday := next?_eq_some_iff.mp hnext
      simp only [workingDays, le_iff, Set.mem_ofPred_eq]
      omega
    have : workingDays d stop = insert d (workingDays e stop) := by
      ext x
      rw [mem_workingDays_next hnext h]
      simp [hb]
    rw [this, Set.ncard_insert_of_notMem hd, if_pos hb, Nat.add_comm]
  · have : workingDays d stop = workingDays e stop := by
      ext x
      rw [mem_workingDays_next hnext h]
      simp [hb]
    rw [this, if_neg hb, Nat.zero_add]

/-- The count is the number of working days, but the last date of the calendar, which is
    one of them, is left out. -/
theorem ncard_workingDays (start stop : Date) :
    (workingDays start stop).ncard =
      start.businessDaysBetween stop + if stop = last then 1 else 0 := by
  induction start using walk_induction with
  | of_last =>
    rw [businessDaysBetween_last, Nat.zero_add]
    by_cases hstop : stop = last
    · rw [hstop, workingDays_self (by decide), Set.ncard_singleton, if_pos rfl]
    · have hlt : stop < last := by
        have hne : stop.day ≠ last.day := fun h => hstop (ext_day h)
        exact Int.lt_iff_le_and_ne.mpr ⟨stop.le_last, hne⟩
      rw [workingDays_of_lt hlt, Set.ncard_empty, if_neg hstop]
  | @of_next d e hnext ih =>
    by_cases hle : d ≤ stop
    · rw [ncard_workingDays_next hnext hle, businessDaysBetween_next hnext hle, ih]
      omega
    · have hlt : stop < d := Int.not_le.mp hle
      have hstop : stop ≠ last := by
        rintro rfl
        exact hle d.le_last
      rw [workingDays_of_lt hlt, businessDaysBetween_of_lt hlt, Set.ncard_empty, if_neg hstop]

/-! ### The days up to the one reached -/

/-- The first working day from a date on is the only one up to it. -/
theorem workingDays_firstBusinessDay {start d : Date} (h : start.firstBusinessDay = some d) :
    start ≤ d ∧ workingDays start d = {d} := by
  induction start using walk_induction with
  | of_last =>
    rw [firstBusinessDay_of_isBusinessDay (by decide)] at h
    cases h
    exact ⟨Int.le_refl _, workingDays_self (by decide)⟩
  | @of_next s e hnext ih =>
    by_cases hs : s.isBusinessDay = true
    · rw [firstBusinessDay_of_isBusinessDay hs] at h
      cases h
      exact ⟨Int.le_refl _, workingDays_self hs⟩
    · rw [firstBusinessDay_of_not_isBusinessDay hs, laterBusinessDay, hnext,
        Option.bind_some] at h
      obtain ⟨hle, hdays⟩ := ih h
      have hday := next?_eq_some_iff.mp hnext
      have hsd : s ≤ d := by
        rw [le_iff] at hle ⊢
        omega
      refine ⟨hsd, ?_⟩
      ext x
      rw [mem_workingDays_next hnext hsd, hdays]
      simp [hs]

/-- The last date is a working day, so every search for one ends. -/
theorem exists_firstBusinessDay (start : Date) : ∃ d, start.firstBusinessDay = some d := by
  induction start using walk_induction with
  | of_last => exact ⟨last, firstBusinessDay_of_isBusinessDay (by decide)⟩
  | @of_next s e hnext ih =>
    by_cases hs : s.isBusinessDay = true
    · exact ⟨s, firstBusinessDay_of_isBusinessDay hs⟩
    · rw [firstBusinessDay_of_not_isBusinessDay hs, laterBusinessDay, hnext]
      exact ih

/-- No working day comes after the last date only. -/
theorem laterBusinessDay_eq_none_iff {d : Date} : d.laterBusinessDay = none ↔ d = last := by
  rw [← next?_eq_none_iff, laterBusinessDay]
  cases hnext : d.next? with
  | none => simp
  | some e =>
    obtain ⟨x, hx⟩ := exists_firstBusinessDay e
    simp [hx]

/-- The first working day after a date is one more than there were up to it. -/
theorem workingDays_laterBusinessDay {start d e : Date} (hle : start ≤ d)
    (h : d.laterBusinessDay = some e) :
    d < e ∧ workingDays start e = insert e (workingDays start d) := by
  obtain ⟨t, hnext, hfirst⟩ := Option.bind_eq_some_iff.mp h
  obtain ⟨hte, hdays⟩ := workingDays_firstBusinessDay hfirst
  have hday := next?_eq_some_iff.mp hnext
  have hde : d < e := by
    rw [le_iff] at hte
    rw [lt_iff]
    omega
  refine ⟨hde, ?_⟩
  ext x
  have hx : x ∈ workingDays t e ↔ x = e := by rw [hdays, Set.mem_singleton_iff]
  rw [Set.mem_insert_iff, ← hx]
  simp only [workingDays, le_iff, lt_iff, Set.mem_ofPred_eq] at hle hde ⊢
  constructor
  · rintro ⟨hsx, hxe, hb⟩
    by_cases hxd : x.day ≤ d.day
    · exact Or.inr ⟨hsx, hxd, hb⟩
    · exact Or.inl ⟨by omega, hxe, hb⟩
  · rintro (⟨htx, hxe, hb⟩ | ⟨hsx, hxd, hb⟩)
    · exact ⟨by omega, hxe, hb⟩
    · exact ⟨hsx, by omega, hb⟩

theorem ncard_workingDays_nthBusinessDay {start : Date} {n : Nat} (hn : 1 ≤ n) :
    ∀ {d : Date}, start.nthBusinessDay n = some d →
      d.isBusinessDay = true ∧ start ≤ d ∧ (workingDays start d).ncard = n := by
  induction n, hn using Nat.le_induction with
  | base =>
    intro d h
    rw [nthBusinessDay_one] at h
    obtain ⟨hle, hdays⟩ := workingDays_firstBusinessDay h
    exact ⟨firstBusinessDay_isBusinessDay h, hle, by rw [hdays, Set.ncard_singleton]⟩
  | succ n hn ih =>
    intro e h
    rw [nthBusinessDay_succ start hn] at h
    obtain ⟨d, hd, hlater⟩ := Option.bind_eq_some_iff.mp h
    obtain ⟨-, hle, hcard⟩ := ih hd
    obtain ⟨hlt, hdays⟩ := workingDays_laterBusinessDay hle hlater
    obtain ⟨t, -, hfirst⟩ := Option.bind_eq_some_iff.mp hlater
    have hnew : e ∉ workingDays start d := fun h => Int.not_le.mpr hlt h.2.1
    have hse : start ≤ e := Int.le_of_lt (Int.lt_of_le_of_lt hle hlt)
    refine ⟨firstBusinessDay_isBusinessDay hfirst, hse, ?_⟩
    rw [hdays, Set.ncard_insert_of_notMem hnew, hcard]

theorem ncard_workingDays_last {start : Date} {n : Nat} (hn : 1 ≤ n)
    (h : start.nthBusinessDay n = none) : (workingDays start last).ncard < n := by
  induction n, hn using Nat.le_induction with
  | base =>
    rw [nthBusinessDay_one] at h
    obtain ⟨d, hd⟩ := exists_firstBusinessDay start
    rw [hd] at h
    cases h
  | succ n hn ih =>
    rw [nthBusinessDay_succ start hn] at h
    cases hd : start.nthBusinessDay n with
    | none => exact Nat.lt_succ_of_lt (ih hd)
    | some d =>
      rw [hd, Option.bind_some, laterBusinessDay_eq_none_iff] at h
      obtain ⟨-, -, hcard⟩ := ncard_workingDays_nthBusinessDay hn hd
      rw [← h, hcard]
      exact Nat.lt_succ_self n

theorem workingDays_mono (start : Date) {d e : Date} (h : d ≤ e) :
    workingDays start d ⊆ workingDays start e :=
  fun _ hx => ⟨hx.1, Int.le_trans hx.2.1 h, hx.2.2⟩

theorem ncard_workingDays_le_last (start d : Date) :
    (workingDays start d).ncard ≤ (workingDays start last).ncard :=
  Set.ncard_le_ncard (workingDays_mono start d.le_last)

/-- A later working day has more working days up to it. -/
theorem ncard_workingDays_lt {start d e : Date} (hle : start ≤ e) (hlt : d < e)
    (he : e.isBusinessDay = true) :
    (workingDays start d).ncard < (workingDays start e).ncard := by
  refine Set.ncard_lt_ncard ⟨workingDays_mono start (Int.le_of_lt hlt), fun h => ?_⟩
    (Set.toFinite _)
  have hed : e ∈ workingDays start d := h ⟨hle, Int.le_refl _, he⟩
  exact Int.not_le.mpr hlt hed.2.1

theorem eq_of_ncard_workingDays {start d e : Date} (hd : d.isBusinessDay = true)
    (he : e.isBusinessDay = true) (hsd : start ≤ d) (hse : start ≤ e)
    (h : (workingDays start d).ncard = (workingDays start e).ncard) : d = e := by
  rcases Int.lt_trichotomy d.day e.day with hlt | heq | hgt
  · exact absurd h (Nat.ne_of_lt (ncard_workingDays_lt hse hlt he))
  · exact ext_day heq
  · exact absurd h.symm (Nat.ne_of_lt (ncard_workingDays_lt hsd hgt hd))

/-- The `n`-th working day is missing exactly when the calendar has fewer from there on. -/
theorem nthBusinessDay_eq_none_iff {start : Date} {n : Nat} :
    start.nthBusinessDay n = none ↔ (workingDays start last).ncard < max n 1 := by
  rw [← nthBusinessDay_max]
  constructor
  · exact ncard_workingDays_last (Nat.le_max_right n 1)
  · intro hfew
    cases h : start.nthBusinessDay (max n 1) with
    | none => rfl
    | some d =>
      obtain ⟨-, -, hcard⟩ := ncard_workingDays_nthBusinessDay (Nat.le_max_right n 1) h
      have := ncard_workingDays_le_last start d
      omega

/-- The `n`-th working day is the working day with `n` of them up to it. -/
theorem nthBusinessDay_eq_some_iff {start d : Date} {n : Nat} :
    start.nthBusinessDay n = some d ↔
      d.isBusinessDay = true ∧ start ≤ d ∧ (workingDays start d).ncard = max n 1 := by
  constructor
  · intro h
    rw [← nthBusinessDay_max] at h
    exact ncard_workingDays_nthBusinessDay (Nat.le_max_right n 1) h
  · rintro ⟨hd, hle, hcard⟩
    cases h : start.nthBusinessDay n with
    | none =>
      have hfew := nthBusinessDay_eq_none_iff.mp h
      have := ncard_workingDays_le_last start d
      omega
    | some e =>
      rw [← nthBusinessDay_max] at h
      obtain ⟨he, hse, hn⟩ := ncard_workingDays_nthBusinessDay (Nat.le_max_right n 1) h
      rw [eq_of_ncard_workingDays hd he hle hse (hcard.trans hn.symm)]

theorem le_nthBusinessDay {d e : Date} {n : Nat} (h : d.nthBusinessDay n = some e) : d ≤ e :=
  (nthBusinessDay_eq_some_iff.mp h).2.1

/-- Working days ahead add up, the day reached first being counted twice. -/
theorem nthBusinessDay_bind (start : Date) (a b : Nat) :
    ((start.nthBusinessDay (a + 1)).bind fun d => d.nthBusinessDay (b + 1)) =
      start.nthBusinessDay (a + 1 + b) := by
  induction b with
  | zero =>
    cases h : start.nthBusinessDay (a + 1) with
    | none => rfl
    | some d =>
      obtain ⟨hd, -⟩ := nthBusinessDay_eq_some_iff.mp h
      rw [Option.bind_some, nthBusinessDay_one, firstBusinessDay_of_isBusinessDay hd]
  | succ b ih =>
    have hstep (d : Date) : d.nthBusinessDay (b + 1 + 1) =
        (d.nthBusinessDay (b + 1)).bind laterBusinessDay :=
      nthBusinessDay_succ d (Nat.le_add_left 1 b)
    simp only [hstep]
    rw [← Option.bind_assoc, ih, ← Nat.add_assoc, nthBusinessDay_succ start (by omega)]

/-- Moving forward by working days and counting them undo each other.  The count never
    takes in the last date of the calendar, which is a working day. -/
theorem nthBusinessDay_counts (start : Date) (n : Nat) :
    (start.nthBusinessDay n = none ↔ (workingDays start last).ncard < max n 1) ∧
    (∀ d, start.nthBusinessDay n = some d ↔
      d.isBusinessDay = true ∧ start ≤ d ∧ (workingDays start d).ncard = max n 1) ∧
    (∀ d, start.nthBusinessDay n = some d →
      start.businessDaysBetween d = if d = last then max n 1 - 1 else max n 1) ∧
    (∀ d, start ≤ d → d.isBusinessDay = true → d ≠ last →
      start.nthBusinessDay (start.businessDaysBetween d) = some d) ∧
    ∀ a b, 1 ≤ a → 1 ≤ b →
      ((start.nthBusinessDay a).bind fun d => d.nthBusinessDay b) =
        start.nthBusinessDay (a + b - 1) := by
  refine ⟨nthBusinessDay_eq_none_iff, fun d => nthBusinessDay_eq_some_iff, ?_, ?_, ?_⟩
  · intro d h
    obtain ⟨-, -, hcard⟩ := nthBusinessDay_eq_some_iff.mp h
    have hcount := ncard_workingDays start d
    by_cases hlast : d = last
    · rw [if_pos hlast] at hcount ⊢
      omega
    · rw [if_neg hlast] at hcount ⊢
      omega
  · intro d hle hd hlast
    have hcount := ncard_workingDays start d
    rw [if_neg hlast] at hcount
    have hpos : 0 < (workingDays start d).ncard :=
      (Set.ncard_pos).mpr ⟨d, hle, Int.le_refl _, hd⟩
    rw [nthBusinessDay_eq_some_iff]
    exact ⟨hd, hle, by omega⟩
  · intro a b ha hb
    obtain ⟨a, rfl⟩ := Nat.exists_eq_add_of_le' ha
    obtain ⟨b, rfl⟩ := Nat.exists_eq_add_of_le' hb
    rw [nthBusinessDay_bind]
    rfl

/-- The last Friday of the calendar, which ends on the Monday after it. -/
def lastFriday : Date := ⟨95745701, by decide, by decide⟩

theorem nthBusinessDay_counts_lastFriday :
    lastFriday.nthBusinessDay 2 = some last ∧ (workingDays lastFriday last).ncard = 2 ∧
      lastFriday.businessDaysBetween last = 1 ∧ lastFriday.nthBusinessDay 3 = none ∧
      last.nthBusinessDay 2 = none ∧
      lastFriday.nthBusinessDay (lastFriday.businessDaysBetween lastFriday) =
        some lastFriday := by
  obtain ⟨-, reached, counted, undone, added⟩ := nthBusinessDay_counts lastFriday 2
  have hsecond : lastFriday.nthBusinessDay 2 = some last := by decide
  have hcard : (workingDays lastFriday last).ncard = 2 := ((reached last).mp hsecond).2.2
  have hthird : lastFriday.nthBusinessDay 3 = none := by
    refine (nthBusinessDay_counts lastFriday 3).1.mpr ?_
    rw [hcard]
    decide
  have hbeyond : last.nthBusinessDay 2 = none := by
    have hsum := added 2 2 (by decide) (by decide)
    rw [hsecond, Option.bind_some] at hsum
    exact hsum.trans hthird
  exact ⟨hsecond, hcard, counted last hsecond, hthird, hbeyond,
    undone lastFriday (Int.le_refl _) (by decide) (by decide)⟩

end Workshop.Date
