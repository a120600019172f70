/-
  Workshop/Proofs/Execution/Transactions.lean
  ===========================================
  **Requests step by step.**  A request goes on from the store that its part before left
  behind, and ends with the first refusal; what was written stays (`Transaction.run_bind`).

  What an answered request went through is read off part by part (`run_bind_eq_ok_iff`).

  `ScheduleRan` lists the ways in which a scheduling run can end, with the store that each
  leaves behind.
-/
import Workshop.Execution.Production

namespace Workshop

variable {Q : Type}

namespace Transaction

variable {α β : Type} {s t : Store Q}

theorem run_bind (x : Transaction Q α) (f : α → Transaction Q β) (s : Store Q) :
    (x >>= f).run s = match x.run s with
      | (.ok a, t) => (f a).run t
      | (.error e, t) => (.error e, t) := by
  unfold ExceptT.run
  simp only [bind, ExceptT.bind, ExceptT.mk, StateT.bind, ExceptT.bindCont]
  cases x s with
  | mk result t => cases result <;> rfl

theorem run_pure (a : α) (s : Store Q) : (pure a : Transaction Q α).run s = (.ok a, s) := rfl

theorem run_current (s : Store Q) : (current : Transaction Q (Store Q)).run s = (.ok s, s) := rfl

theorem run_refuse (e : ExecutionFault) (s : Store Q) :
    (refuse e : Transaction Q α).run s = (.error e, s) := rfl

theorem run_read_ok {f : Store Q → Except StoreFault α} {s : Store Q} {a : α}
    (h : f s = .ok a) : (read f).run s = (.ok a, s) := by
  unfold read ExceptT.run ExceptT.mk
  dsimp only
  rw [h]

theorem run_read_error {f : Store Q → Except StoreFault α} {s : Store Q} {e : StoreFault}
    (h : f s = .error e) : (read f).run s = (.error (.ofStore e), s) := by
  unfold read ExceptT.run ExceptT.mk
  dsimp only
  rw [h]

theorem run_write_ok {f : Store Q → Except StoreFault (α × Store Q)} {s t : Store Q} {a : α}
    (h : f s = .ok (a, t)) : (write f).run s = (.ok a, t) := by
  unfold write ExceptT.run ExceptT.mk
  dsimp only
  rw [h]

theorem run_write_error {f : Store Q → Except StoreFault (α × Store Q)} {s : Store Q}
    {e : StoreFault} (h : f s = .error e) : (write f).run s = (.error (.ofStore e), s) := by
  unfold write ExceptT.run ExceptT.mk
  dsimp only
  rw [h]

theorem run_bind_eq_ok_iff {x : Transaction Q α} {f : α → Transaction Q β} {b : β} :
    (x >>= f).run s = (.ok b, t) ↔ ∃ a u, x.run s = (.ok a, u) ∧ (f a).run u = (.ok b, t) := by
  rw [run_bind]
  constructor
  · intro h
    split at h
    · rename_i a u hx
      exact ⟨a, u, hx, h⟩
    · cases h
  · rintro ⟨a, u, hx, h⟩
    rw [hx]
    exact h

theorem run_read_eq_ok_iff {f : Store Q → Except StoreFault α} {a : α} :
    (read f).run s = (.ok a, t) ↔ f s = .ok a ∧ t = s := by
  constructor
  · intro h
    cases hf : f s with
    | error e =>
      rw [run_read_error hf] at h
      cases h
    | ok b =>
      rw [run_read_ok hf] at h
      cases h
      exact ⟨rfl, rfl⟩
  · rintro ⟨h, rfl⟩
    exact run_read_ok h

theorem run_write_eq_ok_iff {f : Store Q → Except StoreFault (α × Store Q)} {a : α} :
    (write f).run s = (.ok a, t) ↔ f s = .ok (a, t) := by
  constructor
  · intro h
    cases hf : f s with
    | error e =>
      rw [run_write_error hf] at h
      cases h
    | ok b =>
      rw [run_write_ok hf] at h
      cases h
      rfl
  · exact run_write_ok

/-- A read that fails ends a request; otherwise it goes on from the same store. -/
theorem run_read_bind (f : Store Q → Except StoreFault α) (g : α → Transaction Q β)
    (s : Store Q) : (∃ e, (read f >>= g).run s = (.error e, s)) ∨
      ∃ a, f s = .ok a ∧ (read f >>= g).run s = (g a).run s := by
  rw [run_bind]
  cases h : f s with
  | error e =>
    rw [run_read_error h]
    exact Or.inl ⟨_, rfl⟩
  | ok a =>
    rw [run_read_ok h]
    exact Or.inr ⟨a, rfl, rfl⟩

/-- A write that fails ends a request; otherwise it goes on from the store that is written. -/
theorem run_write_bind (f : Store Q → Except StoreFault (α × Store Q))
    (g : α → Transaction Q β) (s : Store Q) :
    (∃ e, f s = .error e ∧ (write f >>= g).run s = (.error (.ofStore e), s)) ∨
      ∃ a t, f s = .ok (a, t) ∧ (write f >>= g).run s = (g a).run t := by
  rw [run_bind]
  cases h : f s with
  | error e =>
    rw [run_write_error h]
    exact Or.inl ⟨e, rfl, rfl⟩
  | ok written =>
    obtain ⟨a, t⟩ := written
    rw [run_write_ok h]
    exact Or.inr ⟨a, t, rfl, rfl⟩

variable [Quantity Q]

/-- A refusal by the rules ends a request. -/
theorem run_obey_bind (r : Except (Fault Q) α) (g : α → Transaction Q β) (s : Store Q) :
    (∃ e, (obey r >>= g).run s = (.error e, s)) ∨
      ∃ a, r = .ok a ∧ (obey r >>= g).run s = (g a).run s := by
  cases r with
  | error e => exact Or.inl ⟨_, rfl⟩
  | ok a => exact Or.inr ⟨a, rfl, rfl⟩

theorem run_obey_ok (a : α) (s : Store Q) :
    (obey (.ok a) : Transaction Q α).run s = (.ok a, s) := rfl

theorem run_obey_eq_ok_iff {r : Except (Fault Q) α} {a : α} :
    (obey r : Transaction Q α).run s = (.ok a, t) ↔ r = .ok a ∧ t = s := by
  constructor
  · intro h
    cases r with
    | error e => cases h
    | ok b =>
      cases h
      exact ⟨rfl, rfl⟩
  · rintro ⟨rfl, rfl⟩
    rfl

end Transaction

variable [Quantity Q]

/-- How a scheduling run can end: it reads and cannot plan, or it writes its plan and
    answers, and then the availability is up to date, or it could not be recalculated. -/
inductive ScheduleRan (s : Store Q) (request : ScheduleRequest Q) :
    Except ExecutionFault (ScheduleResult Q) → Store Q → Prop
  | unread {e : ExecutionFault} : ScheduleRan s request (.error e) s
  | answered {plan : ScheduleResult Q} {ledger : Ledger Q}
      (reads : s.planSchedule request = .ok (plan, ledger)) :
      ScheduleRan s request (.ok (s.commitSchedule plan).2) (s.commitSchedule plan).1
  | recalculated {plan : ScheduleResult Q} {ledger : Ledger Q} {today : Date}
      {ids : Option (List String)} {horizon : Option Nat} {rates : List (String × Q)}
      {t : Store Q} (reads : s.planSchedule request = .ok (plan, ledger))
      (writes : (s.commitSchedule plan).1.recalculate today ids horizon = .ok (rates, t)) :
      ScheduleRan s request (.ok (s.commitSchedule plan).2) t
  | stale {plan : ScheduleResult Q} {ledger : Ledger Q} {e : ExecutionFault}
      (reads : s.planSchedule request = .ok (plan, ledger)) :
      ScheduleRan s request (.error e) (s.commitSchedule plan).1

open Transaction

theorem scheduleRan (s : Store Q) (today : Date) (filter : SchedulingFilter)
    (horizonDays : Option Nat) (optimizeSetup : Option Bool) :
    ScheduleRan s (s.scheduleRequest today filter horizonDays optimizeSetup)
      ((scheduleRun today filter horizonDays optimizeSetup).run s).1
      ((scheduleRun today filter horizonDays optimizeSetup).run s).2 := by
  unfold scheduleRun
  rw [run_bind, run_current]
  dsimp only
  generalize s.scheduleRequest today filter horizonDays optimizeSetup = request
  rw [run_bind]
  cases hplan : s.planSchedule request with
  | error e =>
    rw [run_read_error hplan]
    exact .unread
  | ok planned =>
    obtain ⟨plan, ledger⟩ := planned
    rw [run_read_ok hplan]
    dsimp only
    rw [run_bind,
      run_write_ok (a := (s.commitSchedule plan).2) (t := (s.commitSchedule plan).1) rfl]
    dsimp only
    split
    case isFalse => exact .answered hplan
    case isTrue =>
      rw [run_bind]
      cases hrates : (s.commitSchedule plan).1.recalculate today
          (some (s.commitSchedule plan).2.affectedWorkCenters) (some request.horizonDays) with
      | error e =>
        rw [run_write_error hrates]
        exact .stale hplan
      | ok written =>
        obtain ⟨rates, t⟩ := written
        rw [run_write_ok hrates]
        exact .recalculated hplan hrates

end Workshop
