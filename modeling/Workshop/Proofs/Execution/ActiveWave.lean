/-
  Workshop/Proofs/Execution/ActiveWave.lean
  =========================================
  **The active wave.**  It is the wave of a first open operation, one that is not complete
  and that no such operation precedes by sequence number (`exists_firstOpen`).  There is one
  as long as an operation is not complete (`exists_activeWave`).

  Both are read off what the index holds of all operations (`activeWave_build`).
-/
import Workshop.Proofs.Execution.Rescan

namespace Workshop

variable {Q : Type}

/-- An operation that is not complete, and none that is not complete comes before it. -/
structure FirstOpen (ops : List (Operation Q)) (op : Operation Q) : Prop where
  mem : op ∈ ops
  not_complete : op.status ≠ .complete
  least : ∀ x ∈ ops, x.status ≠ .complete → op.sequence ≤ x.sequence

namespace WaveIndex

theorem firstOpen_of_eq_some {ops : List (Operation Q)} {f : Operation Q}
    (h : firstOpen? ops = some f) : FirstOpen ops f := by
  obtain ⟨hleast, hfind⟩ := firstOpen?_eq_some_iff.mp h
  obtain ⟨-, hmin⟩ := leastOpen_eq_some_iff.mp hleast
  have open_iff (x : Operation Q) : x.isComplete = false ↔ x.status ≠ .complete := by
    rw [Ne, ← Operation.isComplete_iff, Bool.not_eq_true]
  have hfit := List.find?_some hfind
  simp only [Bool.and_eq_true, Bool.not_eq_true'] at hfit
  exact {
    mem := List.mem_of_find?_eq_some hfind
    not_complete := (open_iff f).mp hfit.1
    least := fun x hx hxc => hmin x hx ((open_iff x).mpr hxc) }

/-- The active wave is the wave of a first open operation. -/
theorem exists_firstOpen {ops : List (Operation Q)} {key : String}
    (h : (build ops).activeWave = some key) : ∃ op, FirstOpen ops op ∧ op.groupKey = key := by
  rw [activeWave_build] at h
  obtain ⟨f, hf, hk⟩ := Option.map_eq_some_iff.mp h
  exact ⟨f, firstOpen_of_eq_some hf, hk⟩

theorem exists_activeWave {ops : List (Operation Q)} {op : Operation Q} (hop : op ∈ ops)
    (hc : op.status ≠ .complete) : ∃ key, (build ops).activeWave = some key := by
  cases h : (build ops).activeWave with
  | none => exact absurd (activeWave_eq_none_iff.mp h op hop) hc
  | some key => exact ⟨key, rfl⟩

/-- In sorted operations the active wave is the wave of the first incomplete one. -/
theorem activeWave_of_sorted {done rest : List (Operation Q)} {a : Operation Q}
    (hdone : ∀ op ∈ done, op.status = .complete) (ha : a.status ≠ .complete)
    (sorted : (a :: rest).Pairwise fun x y => x.sequence < y.sequence) :
    (build (done ++ a :: rest)).activeWave = some a.groupKey := by
  have hmem : a ∈ done ++ a :: rest := by simp
  obtain ⟨key, hkey⟩ := exists_activeWave hmem ha
  obtain ⟨f, hf, rfl⟩ := exists_firstOpen hkey
  rw [hkey]
  have hle := hf.least a hmem ha
  rcases List.mem_append.mp hf.mem with h | h
  · exact absurd (hdone f h) hf.not_complete
  · rcases List.mem_cons.mp h with rfl | h
    · rfl
    · have := List.rel_of_pairwise_cons sorted h
      omega

end WaveIndex

end Workshop
