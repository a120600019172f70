/-
  Workshop/Proofs/Schedule/Verdict.lean
  =====================================
  **What is decided about a candidate.**  A candidate is placed or reported, and the verdict
  depends on two things only: the earliest start that the operation before it allows, and
  the hours committed at its work center on the days of the window (`FirstFit.verdict`,
  `FirstFit.take_eq_settle`).

  So two runs can be compared candidate by candidate.  On ledgers that agree the verdicts
  are equal (`verdict_congr`), and on one with less room, if the day that was found still has
  enough (`verdict_of_fewer`); in a shorter window a candidate is placed where it is placed
  in a longer one, if that day is still inside (`toOption_verdict_shorter`).
-/
import Workshop.Proofs.Schedule.EarlierWork

namespace Workshop

/-! ### Searches of different length -/

namespace Date

theorem le_later_right (a b : Date) : b ≤ a.later b := by
  unfold later
  split
  · exact Int.le_refl _
  · next h =>
    rw [le_iff] at h ⊢
    omega

/-- The search of a shorter range finds what the search of a longer one finds, if that lies
    in the shorter range. -/
theorem searchFrom_shorter {passes passes' : Date → Bool} {stop stop' d : Date} {skipped : Nat}
    (hstop : stop ≤ stop') (agree : ∀ e, d ≤ e → e ≤ stop → passes e = passes' e) :
    searchFrom passes stop d skipped =
      (searchFrom passes' stop' d skipped).filter fun found => decide (found.1 ≤ stop) := by
  rw [le_iff] at hstop
  fun_induction searchFrom passes' stop' d skipped with
  | case1 d skipped hle hfit =>
    rw [Option.filter_some]
    unfold searchFrom
    by_cases hd : d ≤ stop
    · rw [if_pos hd, agree d (Int.le_refl _) hd, if_pos hfit]
      simp [hd]
    · rw [if_neg hd]
      simp [hd]
  | case2 d skipped hle hfit count e hnext ih =>
    have hday := next?_eq_some_iff.mp hnext
    rw [← ih]
    · by_cases hd : d ≤ stop
      · rw [searchFrom, if_pos hd, agree d (Int.le_refl _) hd, if_neg hfit]
        dsimp only
        split
        · next e' hnext' =>
          rw [hnext] at hnext'
          cases hnext'
          rfl
        · next hnone =>
          rw [hnext] at hnone
          cases hnone
      · have he : ¬ e ≤ stop := by
          rw [le_iff] at hd ⊢
          omega
        rw [searchFrom, if_neg hd, searchFrom, if_neg he]
    · intro x hx hxs
      apply agree x _ hxs
      rw [le_iff] at hx ⊢
      omega
  | case3 d skipped hle hfit hnext =>
    rw [Option.filter_none]
    unfold searchFrom
    split
    · next hd =>
      rw [agree d (Int.le_refl _) hd, if_neg hfit]
      dsimp only
      split
      · next e' hnext' =>
        rw [hnext] at hnext'
        cases hnext'
      · rfl
    · rfl
  | case4 d skipped hle =>
    have hd : ¬ d ≤ stop := by
      rw [le_iff] at hle ⊢
      omega
    rw [searchFrom, if_neg hd]
    rfl

theorem fits_of_fewer {passes passes' : Date → Bool} {d : Date}
    (fewer : passes' d = true → passes d = true) (h : (d.isBusinessDay && passes' d) = true) :
    (d.isBusinessDay && passes d) = true := by
  rw [Bool.and_eq_true] at h ⊢
  exact ⟨h.1, fewer h.2⟩

/-- A search that passes fewer days ends on the same day, if that one still passes. -/
theorem searchFrom_of_fewer {passes passes' : Date → Bool} {stop d : Date} {skipped : Nat}
    (fewer : ∀ e, d ≤ e → e ≤ stop → passes' e = true → passes e = true)
    (found : ∀ e n, searchFrom passes stop d skipped = some (e, n) → passes' e = true) :
    searchFrom passes' stop d skipped = searchFrom passes stop d skipped := by
  fun_induction searchFrom passes stop d skipped with
  | case1 d skipped hle hfit =>
    rw [Bool.and_eq_true] at hfit
    rw [searchFrom, if_pos hle, hfit.1, found d skipped rfl]
    rfl
  | case2 d skipped hle hfit count e hnext ih =>
    have hday := next?_eq_some_iff.mp hnext
    have hunfit := mt (fits_of_fewer (fewer d (Int.le_refl _) hle)) hfit
    rw [searchFrom, if_pos hle, if_neg hunfit]
    dsimp only
    split
    · next e' hnext' =>
      rw [hnext] at hnext'
      cases hnext'
      refine ih (fun x hx hxs => fewer x ?_ hxs) found
      rw [le_iff] at hx ⊢
      omega
    · next hnone =>
      rw [hnext] at hnone
      cases hnone
  | case3 d skipped hle hfit hnext =>
    have hunfit := mt (fits_of_fewer (fewer d (Int.le_refl _) hle)) hfit
    rw [searchFrom, if_pos hle, if_neg hunfit]
    dsimp only
    split
    · next e' hnext' =>
      rw [hnext] at hnext'
      cases hnext'
    · rfl
  | case4 d skipped hle => rw [searchFrom, if_neg hle]

end Date

variable {Q : Type} [Quantity Q]

namespace FirstFit

/-- Up to a last day, the same hours are committed at a work center in two ledgers. -/
def AgreeAt (workCenterId : String) (start stop : Date) (l l' : Ledger Q) : Prop :=
  ∀ d, start ≤ d → d ≤ stop → l.committed workCenterId d = l'.committed workCenterId d

theorem startDate?_shorter {l l' : Ledger Q} {wc : WorkCenter Q} {startFrom stop stop' : Date}
    (hstop : stop ≤ stop') (agree : AgreeAt wc.workCenterId startFrom stop l l') (hours : Q) :
    startDate? l wc hours startFrom stop =
      (startDate? l' wc hours startFrom stop').filter fun found => decide (found.1 ≤ stop) := by
  unfold startDate?
  split
  · apply Date.searchFrom_shorter hstop
    intro e hstart he
    rw [Ledger.day, Ledger.day, agree e hstart he]
  · rfl

/-- Only the days of the window are looked at. -/
theorem startDate?_congr {l l' : Ledger Q} {wc : WorkCenter Q} {startFrom stop : Date}
    (agree : AgreeAt wc.workCenterId startFrom stop l l') (hours : Q) :
    startDate? l wc hours startFrom stop = startDate? l' wc hours startFrom stop := by
  have hself : AgreeAt wc.workCenterId startFrom stop l' l' := fun _ _ _ => rfl
  rw [startDate?_shorter (Int.le_refl _) agree hours]
  exact (startDate?_shorter (Int.le_refl _) hself hours).symm

theorem startDate?_of_fewer {l l' : Ledger Q} {wc : WorkCenter Q} {hours : Q}
    {startFrom stop : Date}
    (fewer : ∀ d, startFrom ≤ d → d ≤ stop → HasRoom wc l' hours d → HasRoom wc l hours d)
    (found : ∀ d n, startDate? l wc hours startFrom stop = some (d, n) → HasRoom wc l' hours d) :
    startDate? l' wc hours startFrom stop = startDate? l wc hours startFrom stop := by
  unfold startDate? at found ⊢
  split
  · next hcapacity =>
    simp only [hcapacity, if_true] at found
    apply Date.searchFrom_of_fewer
    · intro d hstart hstop hroom
      exact canBook_iff.mpr (fewer d hstart hstop (canBook_iff.mp hroom))
    · intro d n hfound
      exact canBook_iff.mpr (found d n hfound)
  · rfl

/-! ### The verdict on a candidate -/

/-- The placement of a candidate that may start on a date, or the conflict that is reported
    about it. -/
def verdict (r : ScheduleRequest Q) (centers : WorkCenters Q) (ledger : Ledger Q)
    (earliest? : Option Date) (c : Candidate Q) : Except Conflict (Placement Q) :=
  let op := c.operation
  match earliest? with
  | none =>
    let before := (c.predecessor.map (·.sequence)).getD 0
    .error (.about op .predecessorUnscheduled ("前序工序 " ++ toString before ++ " 尚未排程"))
  | some earliest =>
    match centers op.workCenterId with
    | none =>
      .error (.about op .unknownWorkCenter ("工作中心 " ++ op.workCenterId ++ " 不在产能模型中"))
    | some wc =>
      let hours := op.hoursNeeded r.minOperationHours
      let startFrom := earliest.later r.today
      match startDate? ledger wc hours startFrom r.windowEnd with
      | some (start, skipped) =>
        .ok ⟨op.operationId, op.orderId, op.sequence, wc.workCenterId, start,
          endDate start hours wc.capacityHoursPerDay, hours, skipped⟩
      | none =>
        .error (.about op .noCapacityInHorizon
          (toString startFrom ++ " 至 " ++ toString r.windowEnd ++ " 内无 " ++
            Quantity.fixed 2 hours ++ " 小时可用产能"))

/-- The state after a verdict. -/
def State.settle (s : State Q) : Except Conflict (Placement Q) → State Q
  | .ok p => s.place p
  | .error x => s.report x

theorem take_eq_settle (r : ScheduleRequest Q) (centers : WorkCenters Q) (s : State Q)
    (c : Candidate Q) :
    take r centers s c = s.settle (verdict r centers s.ledger (earliest? r s c) c) := by
  unfold take verdict
  dsimp only
  cases earliest? r s c with
  | none => rfl
  | some earliest =>
    cases centers c.operation.workCenterId with
    | none => rfl
    | some wc =>
      dsimp only
      rcases startDate? s.ledger wc _ _ _ with _ | ⟨start, skipped⟩ <;> rfl

variable {r : ScheduleRequest Q} {centers : WorkCenters Q} {l l' : Ledger Q} {c : Candidate Q}

/-- What is decided about a candidate names its order. -/
theorem orderId_of_verdict (r : ScheduleRequest Q) (centers : WorkCenters Q) (l : Ledger Q)
    (e? : Option Date) (c : Candidate Q) :
    match verdict r centers l e? c with
    | .ok p => p.orderId = c.operation.orderId
    | .error x => x.orderId = c.operation.orderId := by
  unfold verdict
  dsimp only
  cases e? with
  | none => rfl
  | some earliest =>
    cases centers c.operation.workCenterId with
    | none => rfl
    | some wc =>
      dsimp only
      rcases startDate? l wc _ _ _ with _ | ⟨start, skipped⟩ <;> rfl

/-- The verdict is the same on ledgers that agree at the work center of the candidate. -/
theorem verdict_congr (e : Option Date)
    (agree : ∀ wc, centers c.operation.workCenterId = some wc →
      AgreeAt wc.workCenterId r.today r.windowEnd l l') :
    verdict r centers l e c = verdict r centers l' e c := by
  unfold verdict
  dsimp only
  cases e with
  | none => rfl
  | some earliest =>
    cases hknown : centers c.operation.workCenterId with
    | none => rfl
    | some wc =>
      have hwc : AgreeAt wc.workCenterId (earliest.later r.today) r.windowEnd l l' := by
        intro d hstart hstop
        exact agree wc hknown d (Int.le_trans (Date.le_later_right earliest r.today) hstart) hstop
      dsimp only
      rw [startDate?_congr hwc]

/-- The verdict is the same on a ledger that has less room, if the day that was found still
    has enough. -/
theorem verdict_of_fewer {e? : Option Date}
    (fewer : ∀ wc, centers c.operation.workCenterId = some wc →
      ∀ hours d, r.today ≤ d → d ≤ r.windowEnd → HasRoom wc l' hours d → HasRoom wc l hours d)
    (found : ∀ p, verdict r centers l e? c = .ok p →
      ∀ wc, centers c.operation.workCenterId = some wc → p.workCenterId = wc.workCenterId →
        HasRoom wc l' p.hours p.start) :
    verdict r centers l' e? c = verdict r centers l e? c := by
  unfold verdict at found ⊢
  dsimp only at found ⊢
  cases e? with
  | none => rfl
  | some earliest =>
    cases hknown : centers c.operation.workCenterId with
    | none => rfl
    | some wc =>
      rw [hknown] at found
      dsimp only at found ⊢
      rw [startDate?_of_fewer]
      · intro d hstart hstop
        exact fewer wc hknown _ d (Int.le_trans (Date.le_later_right earliest r.today) hstart) hstop
      · intro d n hfound
        rw [hfound] at found
        exact found _ rfl wc rfl rfl

/-- A placement starts where the operation before it allows, inside the window. -/
theorem start_of_verdict {e? : Option Date} {p : Placement Q}
    (h : verdict r centers l e? c = .ok p) :
    ∃ e, e? = some e ∧ e ≤ p.start ∧ p.start ≤ r.windowEnd := by
  unfold verdict at h
  dsimp only at h
  cases e? with
  | none => cases h
  | some earliest =>
    cases hknown : centers c.operation.workCenterId with
    | none =>
      rw [hknown] at h
      cases h
    | some wc =>
      rw [hknown] at h
      dsimp only at h
      split at h
      · next start skipped hstart =>
        cases h
        unfold startDate? at hstart
        split at hstart
        · obtain ⟨hfirst, -⟩ := Date.searchFrom_eq_some hstart
          have hle := Int.le_trans (Date.le_later_left earliest r.today) hfirst.start_le
          exact ⟨earliest, rfl, hle, hfirst.le_stop⟩
        · cases hstart
      · cases h

/-- In a shorter window a candidate is placed where it is placed in a longer one, if that
    is inside. -/
theorem toOption_verdict_shorter {r' : ScheduleRequest Q} (htoday : r.today = r'.today)
    (hmin : r.minOperationHours = r'.minOperationHours) (hstop : r.windowEnd ≤ r'.windowEnd)
    (agree : ∀ wc, centers c.operation.workCenterId = some wc →
      AgreeAt wc.workCenterId r.today r.windowEnd l l') (e? : Option Date) :
    (verdict r centers l e? c).toOption =
      (verdict r' centers l' e? c).toOption.filter fun p => decide (p.start ≤ r.windowEnd) := by
  unfold verdict
  dsimp only
  cases e? with
  | none => rfl
  | some earliest =>
    cases hknown : centers c.operation.workCenterId with
    | none => rfl
    | some wc =>
      have hwc : AgreeAt wc.workCenterId (earliest.later r.today) r.windowEnd l l' := by
        intro d hstart hend
        exact agree wc hknown d (Int.le_trans (Date.le_later_right earliest r.today) hstart) hend
      dsimp only
      rw [startDate?_shorter hstop hwc, ← htoday, ← hmin]
      rcases startDate? l' wc _ _ r'.windowEnd with _ | ⟨start, skipped⟩
      · rfl
      · by_cases hin : start ≤ r.windowEnd
        · simp [Except.toOption, Option.filter_some, hin]
        · simp [Except.toOption, Option.filter_some, hin]

theorem scheduled_settle (s : State Q) (v : Except Conflict (Placement Q)) :
    (s.settle v).scheduled = s.scheduled ++ v.toOption.toList := by
  cases v with
  | ok p => rfl
  | error x => exact (List.append_nil _).symm

end FirstFit

end Workshop
