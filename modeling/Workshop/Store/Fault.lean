/-
  Workshop/Store/Fault.lean
  =========================
  **What the store refuses.**  A row is missing, a write breaks a constraint of its
  table, a stored value cannot be read as what it should be, or the store cannot be
  reached at all.
-/

namespace Workshop

/-- A failure of a read or a write of the store. -/
inductive StoreFault where
  | notFound (entity id : String)
  | lock (reason : String)
  | busy (reason : String)
  | uniqueConstraint (reason : String)
  | foreignKey (reason : String)
  | query (reason : String)
  | concurrentModification (entity id : String)
  | invalidColumn (column reason : String)
  | other (reason : String)
deriving DecidableEq, Repr

namespace StoreFault

/-- The words for a failure. -/
def message : StoreFault → String
  | notFound entity id => "记录未找到: " ++ entity ++ " with id=" ++ id
  | lock reason => "数据库锁获取失败: " ++ reason
  | busy reason => "数据库忙: " ++ reason
  | uniqueConstraint reason => "唯一约束违反: " ++ reason
  | foreignKey reason => "外键约束违反: " ++ reason
  | query reason => "数据库查询失败: " ++ reason
  | concurrentModification entity id => "记录已被并发修改: " ++ entity ++ " with id=" ++ id
  | invalidColumn column reason => "列值错误 (column=" ++ column ++ "): " ++ reason
  | other reason => reason

/-- A query that must have a row had none. -/
def noRow : StoreFault := notFound "Row" "-"

end StoreFault

end Workshop
