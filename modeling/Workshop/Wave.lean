/-
  Workshop/Wave.lean
  ==================
  **Waves of operations.**  The operations of an order with the same group key are a
  wave.  The active wave is the one that holds the first incomplete operation by
  sequence number; of two with the same number the one listed first counts.

  `WaveIndex.build` gathers all this in one pass over the operations.
-/
import Workshop.Order

namespace Workshop

/-- What is known of one wave; `members` are positions in the list of operations. -/
structure Wave where
  minSequence : Int
  total : Nat
  completed : Nat
  members : List Nat
deriving DecidableEq, Repr

namespace Wave

/-- The operations of the wave that are not complete. -/
def remaining (w : Wave) : Nat := w.total - w.completed

/-- The wave with one more operation, at a position. -/
def add {Q : Type} (w : Wave) (position : Nat) (op : Operation Q) : Wave where
  minSequence := min w.minSequence op.sequence
  total := w.total + 1
  completed := if op.status = .complete then w.completed + 1 else w.completed
  members := w.members ++ [position]

/-- A wave before its first operation is counted. -/
def start {Q : Type} (op : Operation Q) : Wave := ⟨op.sequence, 0, 0, []⟩

end Wave

/-- The waves of an order by their keys, and the first incomplete operation: its
    sequence number and the key of its wave. -/
structure WaveIndex where
  waves : List (String × Wave)
  firstIncomplete : Option (Int × String)
deriving DecidableEq, Repr

namespace WaveIndex

variable {Q : Type} [Quantity Q]

/-- Counts an operation for the wave of a key. -/
def count (key : String) (position : Nat) (op : Operation Q) :
    List (String × Wave) → List (String × Wave)
  | [] => [(key, (Wave.start op).add position op)]
  | (k, w) :: rest =>
    if k = key then (k, w.add position op) :: rest
    else (k, w) :: count key position op rest

/-- The first incomplete operation after one more has been looked at: a strictly
    smaller sequence number takes its place. -/
def nextIncomplete (op : Operation Q) : Option (Int × String) → Option (Int × String)
  | none => if op.isComplete then none else some (op.sequence, op.groupKey)
  | some (n, k) =>
    if op.isComplete then some (n, k)
    else if op.sequence < n then some (op.sequence, op.groupKey) else some (n, k)

/-- The index after one more operation. -/
def add (index : WaveIndex) (position : Nat) (op : Operation Q) : WaveIndex where
  waves := count op.groupKey position op index.waves
  firstIncomplete := nextIncomplete op index.firstIncomplete

/-- The index of a list of operations. -/
def build (ops : List (Operation Q)) : WaveIndex :=
  ops.zipIdx.foldl (fun index p => index.add p.2 p.1) ⟨[], none⟩

/-- The key of the wave that may be worked on. -/
def activeWave (index : WaveIndex) : Option String := index.firstIncomplete.map (·.2)

/-- The smallest sequence number of an incomplete operation. -/
def firstIncompleteSequence (index : WaveIndex) : Option Int := index.firstIncomplete.map (·.1)

/-- The wave of a key. -/
def wave? (index : WaveIndex) (key : String) : Option Wave := index.waves.lookup key

/-- No operation of the wave is incomplete; a key without operations has none. -/
def isWaveComplete (index : WaveIndex) (key : String) : Bool :=
  match index.wave? key with
  | some w => w.remaining == 0
  | none => true

/-- No operation of the order is incomplete. -/
def allComplete (index : WaveIndex) : Bool := index.firstIncomplete.isNone

end WaveIndex

end Workshop
