/-
  Workshop/Execution/Production.lean
  ==================================
  **Production execution.**  What the shop floor asks for: a preview of the operations
  of an order, its release, actions on operations, scheduling runs, and the
  availability of work centers.

  Each request works on the store and is either answered or refused.  A release is
  committed before the scheduling that follows it, and an action before the
  recalculation of availability.

  Requests are taken one at a time, each on the store that the last one left; waiting for
  one another, and the failures of waiting, are left out, as are the logs.  The date of
  today, the moment that is recorded and the identifiers of new operations come from
  outside.
-/
import Workshop.Execution.Scheduling
import Workshop.Workset

namespace Workshop

/-- The day that counts as today, and the moment that is recorded. -/
structure Clock where
  today : Date
  now : Instant

/-- The answer to a release. -/
structure ReleaseAnswer (Q : Type) where
  order : Order Q
  operations : List (Operation Q)
  schedule : Option (ScheduleResult Q)

/-- The answer to an action. -/
structure ActionAnswer (Q : Type) where
  operation : Operation Q
  order : Order Q
  outcome : Outcome
  availability : List (String × Q)

namespace Production

variable {Q : Type} [Quantity Q]

open Transaction

/-- The operations that an order would have; nothing is written. -/
def explodeRouting (orderId : String) : Transaction Q (List (Draft Q)) := do
  let order ← read fun s => s.getOrder orderId
  let s ← current
  obey (explode (Settings.explosion s) s.source order)

/-- The operations of a released order, with the first wave ready. -/
def firstWave (order : Order Q) (drafts : List (Draft Q)) (identify : Draft Q → String) :
    Workset Q :=
  let ops := drafts.map fun d => d.toOperation order.orderId (identify d)
  ((Workset.ofOperations order ops).releaseActiveWave).1

/-- Releases a draft order: its operations are written with it, and scheduled if the
    settings say so.  `identify` gives the operations identifiers of their own. -/
def release (clock : Clock) (identify : Draft Q → String) (orderId : String) :
    Transaction Q (ReleaseAnswer Q) := do
  let order ← read fun s => s.getOrder orderId
  if order.status ≠ .draft then
    refuse (.invalidStateTransition ("订单" ++ order.orderNumber ++ "状态为" ++ order.status.word ++
      ", 仅 DRAFT 可下达"))
  let s ← current
  let drafts ← obey (explode (Settings.explosion s) s.source order)
  if drafts.isEmpty then
    refuse (.validation ("订单" ++ order.orderNumber ++ "没有可展开的工序 (零件" ++ order.partId ++
      "无已发布工艺)"))
  let wave := firstWave order drafts identify
  write fun s => do
    let t ← s.releaseWithOperations orderId wave.operations clock.now
    .ok ((), t)
  let s ← current
  let result ←
    if Settings.rescheduleOnRelease s then
      let result ← scheduleRun clock.today ⟨none, some orderId⟩ none none
      pure (some result)
    else pure none
  let order ← read fun s => s.getOrder orderId
  let operations ← read fun s => s.listOperations orderId
  pure ⟨order, operations, result⟩

/-- The operations that an action has changed: the one acted on and those released. -/
def changedBy (outcome : Outcome) (w : Workset Q) : List (Operation Q) :=
  w.operations.filter fun op =>
    op.operationId == outcome.operationId ||
      outcome.releasedOperationIds.contains op.operationId

/-- Carries out an action on an operation, records it, and recalculates the
    availability of the work centers concerned. -/
def transition (clock : Clock) (operationId : String) (action : Action) (report : Report Q) :
    Transaction Q (ActionAnswer Q) := do
  let some operation ← read fun s => s.findOperation operationId
    | refuse (.notFound ("Operation(id=" ++ operationId ++ ")不存在"))
  let order ← read fun s => s.getOrder operation.orderId
  let operations ← read fun s => s.listOperations order.orderId
  let (w, outcome) ← obey <|
    (Workset.ofOperations order operations).apply operationId action report clock.now
  write fun s => do
    let t ← s.applyTransition w.order (changedBy outcome w)
    .ok ((), t)
  let availability ←
    if outcome.affectedWorkCenters = [] then pure []
    else write fun s => s.recalculate clock.today (some outcome.affectedWorkCenters) none
  match w.operation? operationId with
  | some op => pure ⟨op, w.order, outcome, availability⟩
  | none => refuse (.internal ("工序" ++ operationId ++ "丢失"))

/-- Runs the scheduling of what the filter lets through. -/
def runScheduling (clock : Clock) (filter : SchedulingFilter) (horizonDays : Option Nat)
    (optimizeSetup : Option Bool) : Transaction Q (ScheduleResult Q) :=
  scheduleRun clock.today filter horizonDays optimizeSetup

/-- Takes the dates from the operations of an order that have not begun; gives the work
    centers concerned. -/
def unschedule (clock : Clock) (orderId : String) : Transaction Q (List String) := do
  let _ ← read fun s => s.getOrder orderId
  let affected ← write fun s => do
    let (t, affected) ← s.clearSchedule orderId
    .ok (affected, t)
  if affected ≠ [] then
    let _ ← write fun s => s.recalculate clock.today (some affected) none
  pure affected

/-- Recalculates the availability of the given work centers, or of all active ones. -/
def recalculateAvailability (clock : Clock) (workCenterIds : Option (List String))
    (horizonDays : Option Nat) : Transaction Q (List (String × Q)) :=
  write fun s => s.recalculate clock.today workCenterIds horizonDays

end Production

end Workshop
