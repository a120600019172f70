/-
  Workshop/Execution/Fault.lean
  =============================
  **What a caller of production execution is told.**  Refusals of the rules and
  failures of the store are sorted by what the caller can do about them; the first four
  kinds can be mended by asking differently.
-/
import Workshop.Fault
import Workshop.Store.Fault

namespace Workshop

/-- A refusal of a request. -/
inductive ExecutionFault where
  | validation (reason : String)
  | invalidStateTransition (reason : String)
  | notFound (reason : String)
  | businessRule (reason : String)
  | integrity (reason : String)
  | concurrentModification (reason : String)
  | database (reason : String)
  | connection (reason : String)
  | transaction (reason : String)
  | settings (reason : String)
  | internal (reason : String)
  | other (reason : String)
deriving DecidableEq, Repr

namespace ExecutionFault

/-- The words for a refusal. -/
def message : ExecutionFault → String
  | validation reason => "数据验证失败: " ++ reason
  | invalidStateTransition reason => "无效的状态转换: " ++ reason
  | notFound reason => "资源未找到: " ++ reason
  | businessRule reason => "业务规则违反: " ++ reason
  | integrity reason => "数据完整性错误: " ++ reason
  | concurrentModification reason => "并发修改冲突: " ++ reason
  | database reason => "数据库错误: " ++ reason
  | connection reason => "数据库连接失败: " ++ reason
  | transaction reason => "数据库事务失败: " ++ reason
  | settings reason => "配置读取失败: " ++ reason
  | internal reason => "内部错误: " ++ reason
  | other reason => reason

/-- The caller can mend it by asking differently. -/
def isUserCorrectable : ExecutionFault → Bool
  | validation _ | invalidStateTransition _ | notFound _ | businessRule _ => true
  | _ => false

/-- A failure of the store, as the caller is told of it. -/
def ofStore : StoreFault → ExecutionFault
  | .notFound entity id => notFound (entity ++ "(id=" ++ id ++ ")不存在")
  | .lock reason => connection ("数据库锁获取失败: " ++ reason)
  | .busy reason => transaction reason
  | .query reason => database reason
  | .uniqueConstraint reason => businessRule ("唯一约束违反: " ++ reason)
  | .foreignKey reason => businessRule ("外键约束违反: " ++ reason)
  | .concurrentModification entity id =>
    concurrentModification (entity ++ "(id=" ++ id ++ ")已被其他操作修改")
  | .invalidColumn column reason => integrity ("列" ++ column ++ "错误: " ++ reason)
  | .other reason => other reason

/-- A refusal by the rules, as the caller is told of it. -/
def ofRules {Q : Type} [Quantity Q] (f : Fault Q) : ExecutionFault :=
  match f with
  | .invalidQuantity .. | .missingMasterData _ => validation f.message
  | .invalidStateTransition .. | .groupNotReleased .. | .predecessorIncomplete ..
  | .orderNotActive .. => invalidStateTransition f.message
  | .noRoutingOrBom _ | .circularBom _ | .unknownWorkCenter _ | .operationNotInOrder .. =>
    integrity f.message
  | .dataSource reason => database reason

end ExecutionFault

end Workshop
