/-
  Workshop/Proofs/Execution/Rescan.lean
  =====================================
  **The index of waves against a look through all operations.**  The index keeps several
  running totals for each key and a running minimum for the order, all in one pass.  Each
  of them is what looking through the whole list for it finds (`Rescans`): the wave of a
  key (`Wave.rescan`), the smallest sequence number of an operation that is not complete
  (`leastOpen`), and the first operation that has it (`firstOpen?`).  So a wave counts as
  complete exactly when all its operations are (`isWaveComplete_iff`), and the order when
  all of its operations are (`allComplete_iff`).

  The proofs are by induction on the operations from the back.  One more operation changes
  the look through the list as the pass changes the index: the wave of its key by
  `rescan_concat`, and the first open operation by `firstOpen?_concat_of_lt` when the new
  number is strictly smaller, else not (`firstOpen?_concat_of_le`).
-/
import Workshop.Wave
import Workshop.Quantity.Exact
import Mathlib.Data.List.Basic
import Mathlib.Data.List.Induction

namespace Workshop

variable {Q : Type}

theorem Operation.isComplete_iff {op : Operation Q} :
    op.isComplete = true ↔ op.status = .complete := by
  simp [Operation.isComplete]

/-! ### Looking through all operations -/

/-- The wave of a key, each of its entries found by looking through all operations; no wave
    when no operation has the key. -/
def Wave.rescan (ops : List (Operation Q)) (key : String) : Option Wave :=
  ((ops.filter (·.groupKey == key)).map (·.sequence)).min?.map fun least =>
    { minSequence := least
      total := ops.countP (·.groupKey == key)
      completed := ops.countP fun op => op.groupKey == key && op.isComplete
      members := ops.findIdxs (·.groupKey == key) }

/-- The smallest sequence number of the operations that are not complete. -/
def leastOpen (ops : List (Operation Q)) : Option Int :=
  ((ops.filter fun op => !op.isComplete).map (·.sequence)).min?

/-- The first operation in the list that is not complete and has that number. -/
def firstOpen? (ops : List (Operation Q)) : Option (Operation Q) :=
  (leastOpen ops).bind fun n => ops.find? fun op => !op.isComplete && op.sequence == n

namespace WaveIndex

/-! ### One more operation -/

theorem build_concat (seen : List (Operation Q)) (op : Operation Q) :
    build (seen ++ [op]) = (build seen).add seen.length op := by
  simp [build, List.zipIdx_append]

theorem min?_concat (l : List Int) (a : Int) :
    (l ++ [a]).min? = some (min (l.min?.getD a) a) := by
  cases l with
  | nil => simp
  | cons b l =>
    rw [List.cons_append, List.min?_cons', List.min?_cons', List.foldl_append]
    rfl

theorem lookup_count (key key' : String) (position : Nat) (op : Operation Q)
    (waves : List (String × Wave)) :
    (count key position op waves).lookup key' =
      if key' = key then some (((waves.lookup key).getD (Wave.start op)).add position op)
      else waves.lookup key' := by
  induction waves with
  | nil =>
    by_cases h : key' = key
    · simp [count, h]
    · have hb : (key' == key) = false := by simpa using h
      simp [count, List.lookup_cons, hb, h]
  | cons p rest ih =>
    obtain ⟨k, w⟩ := p
    by_cases hk : k = key
    · subst hk
      by_cases h : key' = k
      · simp [count, h]
      · have hb : (key' == k) = false := by simpa using h
        simp [count, List.lookup_cons, hb, h]
    · have hk' : (key == k) = false := by simpa using fun e => hk e.symm
      by_cases h : key' = k
      · simp [count, hk, h]
      · have hb : (key' == k) = false := by simpa using h
        simp [count, hk, List.lookup_cons, hb, hk', ih]

theorem map_fst_count (key : String) (position : Nat) (op : Operation Q)
    (waves : List (String × Wave)) :
    (count key position op waves).map (·.1) =
      if key ∈ waves.map (·.1) then waves.map (·.1) else waves.map (·.1) ++ [key] := by
  induction waves with
  | nil => simp [count]
  | cons p rest ih =>
    obtain ⟨k, w⟩ := p
    by_cases hk : k = key
    · simp [count, hk]
    · have hk' : ¬ key = k := fun h => hk h.symm
      simp only [count, if_neg hk, List.map_cons, ih, List.mem_cons, hk', false_or]
      split <;> rfl

theorem rescan_eq_none_iff {ops : List (Operation Q)} {key : String} :
    Wave.rescan ops key = none ↔ ∀ op ∈ ops, op.groupKey ≠ key := by
  simp [Wave.rescan, List.min?_eq_none_iff]

/-- What each of the entries is after one more operation of the wave. -/
theorem rescan_concat_of_key {seen : List (Operation Q)} {op : Operation Q} {key : String}
    (hkey : op.groupKey = key) :
    Wave.rescan (seen ++ [op]) key = some
      { minSequence :=
          min ((((seen.filter (·.groupKey == key)).map (·.sequence)).min?).getD op.sequence)
            op.sequence
        total := seen.countP (·.groupKey == key) + 1
        completed := if op.status = .complete
          then seen.countP (fun x => x.groupKey == key && x.isComplete) + 1
          else seen.countP fun x => x.groupKey == key && x.isComplete
        members := seen.findIdxs (·.groupKey == key) ++ [seen.length] } := by
  have hleast := min?_concat ((seen.filter (·.groupKey == key)).map (·.sequence)) op.sequence
  by_cases hc : op.status = .complete <;>
    simp [Wave.rescan, hleast, hkey, hc, Operation.isComplete, List.findIdxs_append]

theorem rescan_concat (seen : List (Operation Q)) (op : Operation Q) (key : String) :
    Wave.rescan (seen ++ [op]) key =
      if op.groupKey = key then
        some (((Wave.rescan seen key).getD (Wave.start op)).add seen.length op)
      else Wave.rescan seen key := by
  by_cases hkey : op.groupKey = key
  · rw [if_pos hkey, rescan_concat_of_key hkey]
    cases hseen : Wave.rescan seen key with
    | none =>
      have hnone := rescan_eq_none_iff.mp hseen
      have htotal : seen.countP (·.groupKey == key) = 0 :=
        List.countP_eq_zero.mpr fun x hx => by simp [hnone x hx]
      have hcompleted : (seen.countP fun x => x.groupKey == key && x.isComplete) = 0 :=
        List.countP_eq_zero.mpr fun x hx => by simp [hnone x hx]
      have hmembers : seen.findIdxs (·.groupKey == key) = [] :=
        List.findIdxs_eq_nil_iff.mpr fun x hx => by simp [hnone x hx]
      have hleast : seen.filter (·.groupKey == key) = [] :=
        List.filter_eq_nil_iff.mpr fun x hx => by simp [hnone x hx]
      simp [Wave.add, Wave.start, htotal, hcompleted, hmembers, hleast]
    | some w =>
      obtain ⟨least, hleast, rfl⟩ := Option.map_eq_some_iff.mp hseen
      simp [Wave.add, hleast]
  · simp [Wave.rescan, hkey, List.findIdxs_append]

theorem wave?_build (ops : List (Operation Q)) (key : String) :
    (build ops).wave? key = Wave.rescan ops key := by
  induction ops using List.reverseRecOn generalizing key with
  | nil => rfl
  | append_singleton seen op ih =>
    rw [build_concat, rescan_concat, ← ih key, wave?, add, lookup_count]
    by_cases hkey : key = op.groupKey
    · subst hkey
      rw [if_pos rfl, if_pos rfl]
      rfl
    · rw [if_neg hkey, if_neg (Ne.symm hkey)]
      rfl

/-! ### The keys of an index -/

theorem mem_keys_build (ops : List (Operation Q)) (key : String) :
    key ∈ (build ops).waves.map (·.1) ↔ ∃ op ∈ ops, op.groupKey = key := by
  induction ops using List.reverseRecOn with
  | nil => simp [build]
  | append_singleton seen op ih =>
    have hkeys : key ∈ (build (seen ++ [op])).waves.map (·.1) ↔
        key ∈ (build seen).waves.map (·.1) ∨ op.groupKey = key := by
      rw [build_concat, add, map_fst_count]
      split
      · constructor
        · exact Or.inl
        · rintro (h | rfl)
          · exact h
          · assumption
      · rw [List.mem_append, List.mem_singleton, eq_comm (a := key)]
    rw [hkeys, ih]
    simp [or_and_right, exists_or]

theorem nodup_keys_build (ops : List (Operation Q)) : ((build ops).waves.map (·.1)).Nodup := by
  induction ops using List.reverseRecOn with
  | nil => exact List.nodup_nil
  | append_singleton seen op ih =>
    rw [build_concat, add, map_fst_count]
    split
    · exact ih
    · next hnew =>
      refine List.nodup_append.mpr ⟨ih, by simp, fun key hkey k hk => ?_⟩
      rw [List.mem_singleton.mp hk]
      rintro rfl
      exact hnew hkey

/-! ### The first open operation -/

theorem leastOpen_eq_none_iff {ops : List (Operation Q)} :
    leastOpen ops = none ↔ ∀ op ∈ ops, op.isComplete = true := by
  simp [leastOpen, List.min?_eq_none_iff]

theorem leastOpen_eq_some_iff {ops : List (Operation Q)} {n : Int} :
    leastOpen ops = some n ↔
      (∃ op ∈ ops, op.isComplete = false ∧ op.sequence = n) ∧
        ∀ op ∈ ops, op.isComplete = false → n ≤ op.sequence := by
  rw [leastOpen, List.min?_eq_some_iff, List.mem_map, List.forall_mem_map]
  simp [and_assoc]

theorem firstOpen?_eq_none_iff {ops : List (Operation Q)} :
    firstOpen? ops = none ↔ ∀ op ∈ ops, op.isComplete = true := by
  rw [← leastOpen_eq_none_iff, firstOpen?]
  cases h : leastOpen ops with
  | none => simp
  | some n =>
    obtain ⟨⟨op, hop, hc, hn⟩, -⟩ := leastOpen_eq_some_iff.mp h
    simp only [Option.bind_some, List.find?_eq_none, reduceCtorEq, iff_false]
    exact fun hnone => hnone op hop (by simp [hc, hn])

theorem firstOpen?_eq_some_iff {ops : List (Operation Q)} {f : Operation Q} :
    firstOpen? ops = some f ↔
      leastOpen ops = some f.sequence ∧
        (ops.find? fun op => !op.isComplete && op.sequence == f.sequence) = some f := by
  constructor
  · intro h
    obtain ⟨n, hn, hf⟩ := Option.bind_eq_some_iff.mp h
    have hfit := List.find?_some hf
    simp only [Bool.and_eq_true, beq_iff_eq] at hfit
    rw [hfit.2]
    exact ⟨hn, hf⟩
  · rintro ⟨hn, hf⟩
    rw [firstOpen?, hn, Option.bind_some, hf]

theorem map_sequence_firstOpen? (ops : List (Operation Q)) :
    (firstOpen? ops).map (·.sequence) = leastOpen ops := by
  cases h : firstOpen? ops with
  | none => exact (leastOpen_eq_none_iff.mpr (firstOpen?_eq_none_iff.mp h)).symm
  | some f => exact (firstOpen?_eq_some_iff.mp h).1.symm

/-- An open operation with a smaller number than all before it takes their place. -/
theorem firstOpen?_concat_of_lt {seen : List (Operation Q)} {op : Operation Q}
    (hc : op.isComplete = false)
    (hlt : ∀ x ∈ seen, x.isComplete = false → op.sequence < x.sequence) :
    firstOpen? (seen ++ [op]) = some op := by
  have hseen : (seen.find? fun x => !x.isComplete && x.sequence == op.sequence) = none := by
    refine List.find?_eq_none.mpr fun x hx hfit => ?_
    simp only [Bool.and_eq_true, Bool.not_eq_true', beq_iff_eq] at hfit
    have := hlt x hx hfit.1
    omega
  refine firstOpen?_eq_some_iff.mpr ⟨leastOpen_eq_some_iff.mpr ⟨⟨op, by simp, hc, rfl⟩, ?_⟩, ?_⟩
  · intro x hx hxc
    rcases List.mem_append.mp hx with hx | hx
    · exact Int.le_of_lt (hlt x hx hxc)
    · exact Int.le_of_eq (congrArg _ (List.mem_singleton.mp hx).symm)
  · rw [List.find?_append, hseen]
    simp [hc]

/-- Otherwise the first open operation stays. -/
theorem firstOpen?_concat_of_le {seen : List (Operation Q)} {f op : Operation Q}
    (hf : firstOpen? seen = some f) (hle : op.isComplete = false → f.sequence ≤ op.sequence) :
    firstOpen? (seen ++ [op]) = some f := by
  obtain ⟨hleast, hfind⟩ := firstOpen?_eq_some_iff.mp hf
  obtain ⟨⟨x, hx, hxc, hxn⟩, hmin⟩ := leastOpen_eq_some_iff.mp hleast
  refine firstOpen?_eq_some_iff.mpr ⟨leastOpen_eq_some_iff.mpr ⟨⟨x, ?_, hxc, hxn⟩, ?_⟩, ?_⟩
  · exact List.mem_append_left _ hx
  · intro y hy hyc
    rcases List.mem_append.mp hy with hy | hy
    · exact hmin y hy hyc
    · rw [List.mem_singleton.mp hy] at hyc ⊢
      exact hle hyc
  · rw [List.find?_append, hfind]
    rfl

/-- The pass keeps the number and the key of the first open operation. -/
theorem firstIncomplete_build (ops : List (Operation Q)) :
    (build ops).firstIncomplete = (firstOpen? ops).map fun op => (op.sequence, op.groupKey) := by
  induction ops using List.reverseRecOn with
  | nil => rfl
  | append_singleton seen op ih =>
    rw [build_concat, add, ih]
    cases hf : firstOpen? seen with
    | none =>
      have hall := firstOpen?_eq_none_iff.mp hf
      by_cases hc : op.isComplete = true
      · have hnone : firstOpen? (seen ++ [op]) = none := by
          rw [firstOpen?_eq_none_iff]
          intro x hx
          rcases List.mem_append.mp hx with hx | hx
          · exact hall x hx
          · rw [List.mem_singleton.mp hx, hc]
        simp [hnone, nextIncomplete, hc]
      · have hfirst : firstOpen? (seen ++ [op]) = some op :=
          firstOpen?_concat_of_lt (by simpa using hc) fun x hx hxc => by simp [hall x hx] at hxc
        simp [hfirst, nextIncomplete, hc]
    | some f =>
      by_cases hlt : op.isComplete = false ∧ op.sequence < f.sequence
      · obtain ⟨-, hmin⟩ := leastOpen_eq_some_iff.mp (firstOpen?_eq_some_iff.mp hf).1
        have hfirst : firstOpen? (seen ++ [op]) = some op :=
          firstOpen?_concat_of_lt hlt.1 fun x hx hxc => Int.lt_of_lt_of_le hlt.2 (hmin x hx hxc)
        simp [hfirst, nextIncomplete, hlt]
      · have hstays : firstOpen? (seen ++ [op]) = some f :=
          firstOpen?_concat_of_le hf fun hc => Int.not_lt.mp fun h => hlt ⟨hc, h⟩
        cases hc : op.isComplete with
        | true => simp [hstays, nextIncomplete, hc]
        | false =>
          have hnot : ¬ op.sequence < f.sequence := fun h => hlt ⟨hc, h⟩
          simp [hstays, nextIncomplete, hc, hnot]

theorem activeWave_build (ops : List (Operation Q)) :
    (build ops).activeWave = (firstOpen? ops).map (·.groupKey) := by
  rw [activeWave, firstIncomplete_build, Option.map_map]
  rfl

theorem firstIncompleteSequence_build (ops : List (Operation Q)) :
    (build ops).firstIncompleteSequence = leastOpen ops := by
  rw [firstIncompleteSequence, firstIncomplete_build, Option.map_map]
  exact map_sequence_firstOpen? ops

/-! ### What is complete -/

theorem activeWave_eq_none_iff {ops : List (Operation Q)} :
    (build ops).activeWave = none ↔ ∀ op ∈ ops, op.status = .complete := by
  rw [activeWave_build, Option.map_eq_none_iff, firstOpen?_eq_none_iff]
  simp only [Operation.isComplete_iff]

theorem allComplete_iff {ops : List (Operation Q)} :
    (build ops).allComplete = true ↔ ∀ op ∈ ops, op.status = .complete := by
  rw [← activeWave_eq_none_iff]
  simp [allComplete, activeWave]

/-- What is left of a wave is its operations that are not complete; no more are taken off
    than there are. -/
theorem remaining_of_rescan {ops : List (Operation Q)} {key : String} {w : Wave}
    (h : Wave.rescan ops key = some w) :
    w.completed ≤ w.total ∧
      w.remaining = ops.countP fun op => op.groupKey == key && !op.isComplete := by
  obtain ⟨least, -, rfl⟩ := Option.map_eq_some_iff.mp h
  have hsum := List.countP_eq_countP_filter_add ops (·.groupKey == key) Operation.isComplete
  rw [List.countP_filter, List.countP_filter] at hsum
  simp only [Wave.remaining]
  omega

/-- A wave is complete exactly when all its operations are. -/
theorem isWaveComplete_iff {ops : List (Operation Q)} {key : String} :
    (build ops).isWaveComplete key = true ↔
      ∀ op ∈ ops, op.groupKey = key → op.status = .complete := by
  rw [isWaveComplete, wave?_build]
  cases h : Wave.rescan ops key with
  | none =>
    have hnone := rescan_eq_none_iff.mp h
    exact ⟨fun _ op hop hk => absurd hk (hnone op hop), fun _ => rfl⟩
  | some w =>
    simp only [(remaining_of_rescan h).2, beq_iff_eq, List.countP_eq_zero]
    simp [Operation.isComplete_iff]

/-! ### The whole index -/

/-- The index says of the operations what a look through all of them says. -/
structure Rescans (ops : List (Operation Q)) (index : WaveIndex) : Prop where
  nodup_keys : (index.waves.map (·.1)).Nodup
  mem_keys : ∀ key, key ∈ index.waves.map (·.1) ↔ ∃ op ∈ ops, op.groupKey = key
  wave?_eq : ∀ key, index.wave? key = Wave.rescan ops key
  completed_le : ∀ key w, index.wave? key = some w → w.completed ≤ w.total
  firstIncompleteSequence_eq : index.firstIncompleteSequence = leastOpen ops
  activeWave_eq : index.activeWave = (firstOpen? ops).map (·.groupKey)
  firstIncompleteSequence_none :
    index.firstIncompleteSequence = none ↔ ∀ op ∈ ops, op.status = .complete
  activeWave_none : index.activeWave = none ↔ ∀ op ∈ ops, op.status = .complete

/-- The index of a list of operations is what a look through all of them gives, and by it a
    wave or the whole order is complete exactly when its operations are. -/
theorem build_rescans (ops : List (Operation Q)) :
    Rescans ops (build ops) ∧
      (∀ key, (build ops).isWaveComplete key = true ↔
        ∀ op ∈ ops, op.groupKey = key → op.status = .complete) ∧
      ((build ops).allComplete = true ↔ ∀ op ∈ ops, op.status = .complete) := by
  refine ⟨?_, fun key => isWaveComplete_iff, allComplete_iff⟩
  exact {
    nodup_keys := nodup_keys_build ops
    mem_keys := mem_keys_build ops
    wave?_eq := wave?_build ops
    completed_le := by
      intro key w h
      rw [wave?_build] at h
      exact (remaining_of_rescan h).1
    firstIncompleteSequence_eq := firstIncompleteSequence_build ops
    activeWave_eq := activeWave_build ops
    firstIncompleteSequence_none := by
      rw [firstIncompleteSequence_build, leastOpen_eq_none_iff]
      simp only [Operation.isComplete_iff]
    activeWave_none := activeWave_eq_none_iff }

/-- Operations that are not in sequence: two of a group, and between them one without a
    group and one of another group, both with the smallest number. -/
def unsortedOperations : List (Operation Rat) :=
  [(20, some "PLATE", .complete), (10, none, .ready), (10, some "RIB", .ready),
    (20, some "PLATE", .pending)].map fun (p : Int × Option String × OperationStatus) =>
      { Draft.toOperation ⟨p.1, none, p.2.1, "WC1", "Work", none, false, 1, 2⟩ "B1"
          ("B1/" ++ toString p.1) with status := p.2.2 }

theorem build_rescans_unsorted :
    (build unsortedOperations).wave? "PLATE" = some ⟨20, 2, 1, [0, 3]⟩ ∧
      (build unsortedOperations).wave? "ASSEMBLY" = none ∧
      (build unsortedOperations).firstIncompleteSequence = some 10 ∧
      (build unsortedOperations).activeWave = some "#10" ∧
      (build unsortedOperations).isWaveComplete "ASSEMBLY" = true ∧
      ¬ (build unsortedOperations).allComplete = true := by
  obtain ⟨rescans, wave, all⟩ := build_rescans unsortedOperations
  refine ⟨?_, ?_, ?_, ?_, (wave _).mpr (by decide), fun h => absurd (all.mp h) (by decide)⟩
  · exact (rescans.wave?_eq _).trans (by decide)
  · exact (rescans.wave?_eq _).trans (by decide)
  · exact rescans.firstIncompleteSequence_eq.trans (by decide)
  · exact rescans.activeWave_eq.trans (by decide)

end WaveIndex

end Workshop
