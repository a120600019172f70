/-
  Workshop/Proofs/Schedule/Search.lean
  ====================================
  **The search for a start date.**  The search walks from one day to the next.  The date
  that it finds is the first fit one of its range (`Date.IsFirst`), and it has counted
  the weekend days before that date (`searchFrom_eq_some`).  It finds nothing when its
  range has no fit date (`searchFrom_eq_none_iff`).

  Both are carried by one induction over the walk: the first fit date from the next day on
  is the first fit date from a day that is not fit, and that day adds one to the count when
  it is no working day.
-/
import Workshop.Schedule.FirstFit
import Workshop.Proofs.Calendar.WorkingDays

namespace Workshop.Date

/-- The first date of a range that is fit. -/
structure IsFirst (fit : Date → Prop) (start stop d : Date) : Prop where
  start_le : start ≤ d
  le_stop : d ≤ stop
  is_fit : fit d
  least : ∀ e, start ≤ e → e < d → ¬ fit e

/-- The weekend days from a date up to another one, which is not among them. -/
def weekendDays (start stop : Date) : Set Date :=
  {d | start ≤ d ∧ d < stop ∧ d.isBusinessDay = false}

theorem IsFirst.of_next {fit : Date → Prop} {d e stop found : Date} (hnext : d.next? = some e)
    (hd : ¬ fit d) (h : IsFirst fit e stop found) : IsFirst fit d stop found where
  start_le := by
    have hday := next?_eq_some_iff.mp hnext
    have hle := le_iff.mp h.start_le
    rw [le_iff]
    omega
  le_stop := h.le_stop
  is_fit := h.is_fit
  least := by
    intro x hx hlt
    have hday := next?_eq_some_iff.mp hnext
    rw [le_iff] at hx
    by_cases hxd : x.day = d.day
    · rw [ext_day hxd]
      exact hd
    · exact h.least x (by rw [le_iff]; omega) hlt

theorem weekendDays_self (d : Date) : weekendDays d d = ∅ := by
  ext x
  simp only [weekendDays, le_iff, lt_iff, Set.mem_ofPred_eq, Set.mem_empty_iff_false, iff_false]
  omega

theorem mem_weekendDays_next {d e stop x : Date} (hnext : d.next? = some e) (h : e ≤ stop) :
    x ∈ weekendDays d stop ↔ x = d ∧ d.isBusinessDay = false ∨ x ∈ weekendDays e stop := by
  have hday := next?_eq_some_iff.mp hnext
  simp only [weekendDays, le_iff, lt_iff, Set.mem_ofPred_eq] at h ⊢
  constructor
  · rintro ⟨hdx, hxs, hx⟩
    by_cases hxd : x.day = d.day
    · have := ext_day hxd
      subst this
      exact Or.inl ⟨rfl, hx⟩
    · exact Or.inr ⟨by omega, hxs, hx⟩
  · rintro (⟨rfl, hx⟩ | ⟨hex, hxs, hx⟩)
    · exact ⟨by omega, by omega, hx⟩
    · exact ⟨by omega, hxs, hx⟩

theorem ncard_weekendDays_next {d e stop : Date} (hnext : d.next? = some e) (h : e ≤ stop) :
    (weekendDays d stop).ncard =
      (if d.isBusinessDay then 0 else 1) + (weekendDays e stop).ncard := by
  have hday := next?_eq_some_iff.mp hnext
  by_cases hb : d.isBusinessDay = true
  · have : weekendDays d stop = weekendDays e stop := by
      ext x
      rw [mem_weekendDays_next hnext h]
      simp [hb]
    rw [this, if_pos hb, Nat.zero_add]
  · have hd : d ∉ weekendDays e stop := by
      simp only [weekendDays, le_iff, Set.mem_ofPred_eq]
      omega
    have : weekendDays d stop = insert d (weekendDays e stop) := by
      ext x
      rw [mem_weekendDays_next hnext h]
      simp [hb]
    rw [this, Set.ncard_insert_of_notMem hd, if_neg hb, Nat.add_comm]

/-- The search finds the first fit working day, and it counts the weekend days before it. -/
theorem searchFrom_eq_some {passes : Date → Bool} {stop d found : Date} {skipped n : Nat}
    (h : searchFrom passes stop d skipped = some (found, n)) :
    IsFirst (fun e => e.isBusinessDay = true ∧ passes e = true) d stop found ∧
      n = skipped + (weekendDays d found).ncard := by
  fun_induction searchFrom passes stop d skipped with
  | case1 d skipped hle hfit =>
    obtain ⟨rfl, rfl⟩ := Prod.mk.inj (Option.some.inj h)
    constructor
    · refine ⟨Int.le_refl _, hle, by simpa using hfit, fun e he hlt => ?_⟩
      rw [le_iff] at he
      rw [lt_iff] at hlt
      omega
    · simp [weekendDays_self]
  | case2 d skipped hle hfit count e hnext ih =>
    obtain ⟨hfirst, hn⟩ := ih h
    refine ⟨hfirst.of_next hnext (by simpa using hfit), ?_⟩
    rw [hn, ncard_weekendDays_next hnext hfirst.start_le]
    simp only [count]
    split <;> omega
  | case3 d skipped hle hfit hnext => cases h
  | case4 d skipped hle => cases h

/-- The search finds nothing when no date of its range is a fit working day, and only then. -/
theorem searchFrom_eq_none_iff {passes : Date → Bool} {stop d : Date} {skipped : Nat} :
    searchFrom passes stop d skipped = none ↔
      ∀ x, d ≤ x → x ≤ stop → ¬ (x.isBusinessDay = true ∧ passes x = true) := by
  fun_induction searchFrom passes stop d skipped with
  | case1 d skipped hle hfit =>
    rw [Bool.and_eq_true] at hfit
    constructor
    · intro h
      cases h
    · intro h
      exact absurd hfit (h d (Int.le_refl _) hle)
  | case2 d skipped hle hfit count e hnext ih =>
    have hday := next?_eq_some_iff.mp hnext
    rw [Bool.and_eq_true] at hfit
    rw [ih]
    constructor
    · intro h x hdx hx
      rw [le_iff] at hdx
      by_cases hxd : x.day = d.day
      · rw [ext_day hxd]
        exact hfit
      · apply h x _ hx
        rw [le_iff]
        omega
    · intro h x hex hx
      apply h x _ hx
      rw [le_iff] at hex ⊢
      omega
  | case3 d skipped hle hfit hnext =>
    rw [Bool.and_eq_true] at hfit
    have hlast := next?_eq_none_iff.mp hnext
    simp only [true_iff]
    intro x hdx _
    have hx := x.le_last
    rw [le_iff, hlast] at hdx
    have hxd : x = d := by
      rw [hlast]
      exact ext_day (Int.le_antisymm hx hdx)
    rw [hxd]
    exact hfit
  | case4 d skipped hle =>
    simp only [true_iff]
    intro x hdx hx
    rw [le_iff] at hdx hx hle
    omega
end Workshop.Date
