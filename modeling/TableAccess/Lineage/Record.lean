import TableAccess.Resolution

/-! The records that lineage joins: methods that issue a statement, methods of the logic
above them with the invocations in their bodies, and what follows from both. -/
namespace TableAccess

/-- A data access method and the statement that it issues. -/
structure DaoMethod where
  daoClass : String
  method : String
  statement : StatementId
  operation : Operation
  parameters : List String
deriving DecidableEq, Repr, Inhabited

/-- The name of a method with its class. -/
def DaoMethod.qualifiedName (m : DaoMethod) : String := m.daoClass ++ "." ++ m.method

/-- A method of the logic and the invocations in its body, as written. -/
structure LogicMethod where
  logicClass : String
  logicMethod : String
  invocations : List String
deriving DecidableEq, Repr, Inhabited

/-- An invocation that reaches a statement, with what the statement uses. -/
structure LineageRecord where
  logicClass : String
  logicMethod : String
  invoked : String
  daoClass : String
  daoMethod : String
  operation : Operation
  statement : StatementId
  tables : List String
  columns : List (String × List String)
  parameters : List String
deriving DecidableEq, Repr, Inhabited

/-- By logic method, data access method, statement and invocation. Records that agree in
all of these say the same. -/
def LineageRecord.order (a b : LineageRecord) : Ordering :=
  (compare a.logicClass b.logicClass).then <|
    (compare a.logicMethod b.logicMethod).then <|
      (compare (a.daoClass ++ "." ++ a.daoMethod) (b.daoClass ++ "." ++ b.daoMethod)).then <|
        (a.statement.order b.statement).then (compare a.invoked b.invoked)

end TableAccess
