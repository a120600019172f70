/-
  Workshop/Store/Field.lean
  =========================
  **Reading cells.**  A cell that should hold a date, an instant or a status holds a
  text that is read as one; a missing date or instant is no fault.  A value that cannot
  be read is reported with the place of its column among those that are read, a value
  of the wrong type with the name of its column.
-/
import Workshop.Calendar.Instant
import Workshop.Status
import Workshop.Store.Table

namespace Workshop.Field

/-! ### Texts -/

/-- The report of a text that cannot be read. -/
def unreadable (place : Nat) (reason : String) : StoreFault :=
  .invalidColumn ("#" ++ toString place) reason

/-- A stored date. -/
def date (place : Nat) : Option String → Except StoreFault (Option Date)
  | none => .ok none
  | some s =>
    match DateText.read s with
    | .ok d => .ok (some d)
    | .error e => .error (unreadable place ("日期格式错误 '" ++ s ++ "': " ++ e.message))

/-- A stored instant. -/
def instant (place : Nat) : Option String → Except StoreFault (Option Instant)
  | none => .ok none
  | some s =>
    match Instant.read s with
    | .ok t => .ok (some t)
    | .error e => .error (unreadable place ("时间格式错误 '" ++ s ++ "': " ++ e.message))

/-- A stored order status. -/
def orderStatus (place : Nat) (s : String) : Except StoreFault OrderStatus :=
  match OrderStatus.read? s with
  | some status => .ok status
  | none => .error (unreadable place ("未知订单状态: " ++ s))

/-- A stored operation status. -/
def operationStatus (place : Nat) (s : String) : Except StoreFault OperationStatus :=
  match OperationStatus.read? s with
  | some status => .ok status
  | none => .error (unreadable place ("未知工序状态: " ++ s))

/-- The stored form of a date that may be missing. -/
def ofDate? (d : Option Date) : Option String := d.map DateText.write

/-- The stored form of an instant that may be missing. -/
def ofInstant? (t : Option Instant) : Option String := t.map Instant.write

/-! ### Cells -/

variable {Q : Type} [Quantity Q]

/-- The report of a value of the wrong type. -/
def wrongType (column : String) (v : Cell Q) : StoreFault :=
  .invalidColumn column ("意外的列类型 " ++ v.typeName)

/-- A text. -/
def text (column : String) : Cell Q → Except StoreFault String
  | .text s => .ok s
  | v => .error (wrongType column v)

/-- A text that may be missing. -/
def text? (column : String) : Cell Q → Except StoreFault (Option String)
  | .text s => .ok (some s)
  | .null => .ok none
  | v => .error (wrongType column v)

/-- A quantity; a whole number is one too. -/
def quantity (column : String) : Cell Q → Except StoreFault Q
  | .real x => .ok x
  | .integer n => .ok (Quantity.ofInt n)
  | v => .error (wrongType column v)

/-- A whole number. -/
def whole (column : String) : Cell Q → Except StoreFault Int
  | .integer n => .ok n
  | v => .error (wrongType column v)

/-- A whole number of at most 32 bits. -/
def number (column : String) (place : Nat) (v : Cell Q) : Except StoreFault Int :=
  match whole column v with
  | .error e => .error e
  | .ok n =>
    if -2147483648 ≤ n ∧ n ≤ 2147483647 then .ok n
    else .error (.query ("Integer " ++ toString n ++ " out of range at index " ++ toString place))

/-- A yes or no; every whole number but zero is yes. -/
def flag (column : String) (v : Cell Q) : Except StoreFault Bool :=
  match whole column v with
  | .error e => .error e
  | .ok n => .ok (n != 0)

end Workshop.Field
