/-
  Workshop/Status.lean
  ====================
  **States and actions.**  The closed vocabularies of the shop floor: states of orders
  and operations, actions on operations, kinds of parts, states of routings.  Each has
  one word per value (`word`); `ofWord?` takes exactly that word, `read?` also with
  blanks around it and in any letter case.  An unknown kind of part is read as
  manufactured and an unknown routing state as draft.

  Every word is read back as the value it is the word of (`OrderStatus.ofWord?_word`
  and its companions).
-/
import Workshop.Text.Blank
import Workshop.Text.LetterCase

namespace Workshop

/-! ### Orders -/

/-- The state of a production order. -/
inductive OrderStatus where
  | draft
  | released
  | inProgress
  | onHold
  | complete
  | closed
  | cancelled
deriving DecidableEq, Repr

namespace OrderStatus

/-- The stored word of a state. -/
def word : OrderStatus → String
  | draft => "DRAFT"
  | released => "RELEASED"
  | inProgress => "IN_PROGRESS"
  | onHold => "ON_HOLD"
  | complete => "COMPLETE"
  | closed => "CLOSED"
  | cancelled => "CANCELLED"

/-- All states. -/
def all : List OrderStatus :=
  [draft, released, inProgress, onHold, complete, closed, cancelled]

/-- The state with exactly this word. -/
def ofWord? (s : String) : Option OrderStatus := all.find? (·.word == s)

/-- The state a text names, apart from blanks and letter case. -/
def read? (s : String) : Option OrderStatus := ofWord? (Text.upper (Text.trim s))

/-- Orders whose operations are placed on the calendar and executed. -/
def isSchedulable : OrderStatus → Bool
  | released | inProgress => true
  | _ => false

/-- States an order does not leave. -/
def isTerminal : OrderStatus → Bool
  | complete | closed | cancelled => true
  | _ => false

theorem ofWord?_word (s : OrderStatus) : ofWord? s.word = some s := by
  cases s <;> decide

theorem isSchedulable_iff {s : OrderStatus} :
    s.isSchedulable = true ↔ s = released ∨ s = inProgress := by
  cases s <;> decide

end OrderStatus

/-! ### Operations -/

/-- The state of an operation of an order. -/
inductive OperationStatus where
  | pending
  | ready
  | inProgress
  | complete
  | onHold
deriving DecidableEq, Repr

namespace OperationStatus

/-- The stored word of a state. -/
def word : OperationStatus → String
  | pending => "PENDING"
  | ready => "READY"
  | inProgress => "IN_PROGRESS"
  | complete => "COMPLETE"
  | onHold => "ON_HOLD"

/-- All states. -/
def all : List OperationStatus := [pending, ready, inProgress, complete, onHold]

/-- The state with exactly this word. -/
def ofWord? (s : String) : Option OperationStatus := all.find? (·.word == s)

/-- The state a text names, apart from blanks and letter case. -/
def read? (s : String) : Option OperationStatus := ofWord? (Text.upper (Text.trim s))

/-- Operations that have not begun and may still be placed on the calendar. -/
def isSchedulable : OperationStatus → Bool
  | pending | ready => true
  | _ => false

theorem ofWord?_word (s : OperationStatus) : ofWord? s.word = some s := by
  cases s <;> decide

theorem isSchedulable_iff {s : OperationStatus} :
    s.isSchedulable = true ↔ s = pending ∨ s = ready := by
  cases s <;> decide

end OperationStatus

/-! ### Actions -/

/-- What a worker does with an operation. -/
inductive Action where
  | start
  | complete
  | hold
  | resume
deriving DecidableEq, Repr

namespace Action

/-- The word of an action. -/
def word : Action → String
  | start => "start"
  | complete => "complete"
  | hold => "hold"
  | resume => "resume"

/-- All actions. -/
def all : List Action := [start, complete, hold, resume]

/-- The action with exactly this word. -/
def ofWord? (s : String) : Option Action := all.find? (·.word == s)

/-- The action a text names, apart from blanks and letter case. -/
def read? (s : String) : Option Action := ofWord? (Text.lower (Text.trim s))

theorem ofWord?_word (a : Action) : ofWord? a.word = some a := by
  cases a <;> decide

end Action

/-- The state an action leads to, when it is allowed.  Reporting a part of the
    quantity keeps the operation in progress, and an operation that had begun resumes
    in progress. -/
def OperationStatus.after? : OperationStatus → Action → Option OperationStatus
  | ready, .start | inProgress, .start => some inProgress
  | inProgress, .complete => some complete
  | pending, .hold | ready, .hold | inProgress, .hold => some onHold
  | onHold, .resume => some ready
  | _, _ => none

/-! ### Master data -/

/-- How a part is come by. -/
inductive PartKind where
  | manufactured
  | purchased
  | assembly
deriving DecidableEq, Repr

namespace PartKind

/-- The stored word of a kind. -/
def word : PartKind → String
  | manufactured => "MANUFACTURED"
  | purchased => "PURCHASED"
  | assembly => "ASSEMBLY"

/-- All kinds. -/
def all : List PartKind := [manufactured, purchased, assembly]

/-- The kind with exactly this word. -/
def ofWord? (s : String) : Option PartKind := all.find? (·.word == s)

/-- The kind a text names; anything unknown is a manufactured part. -/
def read (s : String) : PartKind := (ofWord? (Text.upper (Text.trim s))).getD manufactured

theorem ofWord?_word (k : PartKind) : ofWord? k.word = some k := by
  cases k <;> decide

end PartKind

/-- The state of a routing. -/
inductive RoutingStatus where
  | draft
  | released
  | obsolete
deriving DecidableEq, Repr

namespace RoutingStatus

/-- The stored word of a state. -/
def word : RoutingStatus → String
  | draft => "DRAFT"
  | released => "RELEASED"
  | obsolete => "OBSOLETE"

/-- All states. -/
def all : List RoutingStatus := [draft, released, obsolete]

/-- The state with exactly this word. -/
def ofWord? (s : String) : Option RoutingStatus := all.find? (·.word == s)

/-- The state a text names; anything unknown is a draft. -/
def read (s : String) : RoutingStatus := (ofWord? (Text.upper (Text.trim s))).getD draft

theorem ofWord?_word (s : RoutingStatus) : ofWord? s.word = some s := by
  cases s <;> decide

end RoutingStatus

end Workshop
