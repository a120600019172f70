/-
  Workshop/Fault.lean
  ===================
  **What the rules of the shop floor refuse.**  A fault carries the facts of the
  refusal; `Fault.message` puts them into words.  Faults of integrity are those that no
  user can mend by acting differently: the data or the caller is wrong.
-/
import Workshop.Quantity.Basic

namespace Workshop

/-- A refusal by the rules of execution or explosion. -/
inductive Fault (Q : Type) where
  | invalidQuantity (field : String) (value : Q) (reason : String)
  | invalidStateTransition (state action : String)
  | groupNotReleased (group activeGroup : String)
  | predecessorIncomplete (sequence blockingSequence : Int)
  | orderNotActive (orderId status : String)
  | missingMasterData (what : String)
  | noRoutingOrBom (partId : String)
  | circularBom (path : String)
  | unknownWorkCenter (workCenterId : String)
  | operationNotInOrder (operationId orderId : String)
  | dataSource (reason : String)

namespace Fault

variable {Q : Type} [Quantity Q]

/-- The words for a fault. -/
def message : Fault Q → String
  | invalidQuantity field value reason =>
    "数量无效 (field=" ++ field ++ ", value=" ++ Quantity.text value ++ "): " ++ reason
  | invalidStateTransition state action =>
    "无效的状态转换: status=" ++ state ++ ", action=" ++ action
  | groupNotReleased group activeGroup =>
    "工序分组尚未放行: group=" ++ group ++ ", active_group=" ++ activeGroup
  | predecessorIncomplete sequence blockingSequence =>
    "前序工序未完工: sequence=" ++ toString sequence ++ ", blocking_sequence=" ++
      toString blockingSequence
  | orderNotActive orderId status =>
    "订单状态不允许该操作: order_id=" ++ orderId ++ ", status=" ++ status
  | missingMasterData what => "主数据缺失: " ++ what
  | noRoutingOrBom partId => "零件既无已发布工艺也无生效BOM: part_id=" ++ partId
  | circularBom path => "BOM 循环引用: " ++ path
  | unknownWorkCenter workCenterId => "工作中心不存在: work_center_id=" ++ workCenterId
  | operationNotInOrder operationId orderId =>
    "工序不属于订单: operation_id=" ++ operationId ++ ", order_id=" ++ orderId
  | dataSource reason => "主数据读取失败: " ++ reason

/-- The fault lies in the data or the caller, not in what was asked for. -/
def isIntegrity : Fault Q → Bool
  | noRoutingOrBom _ | circularBom _ | unknownWorkCenter _ | operationNotInOrder _ _ => true
  | _ => false

end Fault

end Workshop
