import TableAccess.Lineage.Invocation
import TableAccess.Lineage.Record

/-! Which operations of the logic reach which statements. An invocation is matched with
every data access method of its bare name, and such a method with its statement; without
a namespace it stands for every statement of that name. -/
namespace TableAccess

/-- What invocations are matched with: methods, statements by identifier, and the
parameters found in the texts of statements. -/
structure Joiner where
  methods : List DaoMethod
  statements : List (StatementId × Access)
  parameters : List (StatementId × List String)
deriving Repr, Inhabited

/-- What a join gives. -/
structure Lineage where
  records : List LineageRecord
  notes : List Diagnostic
deriving DecidableEq, Repr, Inhabited

/-- What one invocation gives: records, notes, and statements that are not there, each
with the method that names it. -/
structure Match where
  records : List LineageRecord
  notes : List Diagnostic
  missing : List (String × StatementId)
deriving Repr, Inhabited

namespace Joiner

/-- The methods that an invocation may call. -/
def candidates (j : Joiner) (invocation : String) : List DaoMethod :=
  let called := Invocation.method invocation
  j.methods.filter fun m => m.method == called

/-- The statements that a method may issue. -/
def statementsOf (j : Joiner) (id : StatementId) : List (StatementId × Access) :=
  j.statements.filter fun entry => if id.hasSpace then entry.1 == id else entry.1.id == id.id

/-- The parameters of a method: its own, or else those of the statement. -/
def parametersOf (j : Joiner) (m : DaoMethod) (id : StatementId) : List String :=
  if !m.parameters.isEmpty then m.parameters
  else match j.parameters.find? fun entry => entry.1 == id with
    | some entry => entry.2
    | none => []

/-- The record of an invocation that reaches a statement. -/
def record (j : Joiner) (l : LogicMethod) (invoked : String) (m : DaoMethod) (id : StatementId)
    (access : Option Access) : LineageRecord :=
  { logicClass := l.logicClass, logicMethod := l.logicMethod, invoked
    daoClass := m.daoClass, daoMethod := m.method, operation := m.operation, statement := id
    tables := (access.map Access.tables).getD []
    columns := (access.map Access.columns).getD []
    parameters := j.parametersOf m id }

/-- What a call of one method gives. A method whose statement is not there has a record
all the same. -/
def matchMethod (j : Joiner) (l : LogicMethod) (invoked : String) (m : DaoMethod) : Match :=
  match j.statementsOf m.statement with
  | [] => ⟨[j.record l invoked m m.statement none], [], [(m.qualifiedName, m.statement)]⟩
  | found => ⟨found.map fun (id, access) => j.record l invoked m id (some access), [], []⟩

/-- The note about an invocation that calls no known method. -/
def unresolved (l : LogicMethod) (invoked : String) : Diagnostic :=
  .about .unresolvedCall
    (l.logicClass ++ "." ++ l.logicMethod ++ " calls '" ++ invoked
      ++ "', which matches no DAO method")
    invoked

/-- What one invocation gives. -/
def matchInvocation (j : Joiner) (l : LogicMethod) (invoked : String) : List Match :=
  match j.candidates invoked with
  | [] => [⟨[], [unresolved l invoked], []⟩]
  | methods => methods.map (j.matchMethod l invoked)

/-- The note about a statement that a method names and that is not there. -/
def missing (method : String) (id : StatementId) : Diagnostic :=
  (Diagnostic.about .missingStatement
    (method ++ " points at '" ++ id.text ++ "', which was not resolved") method).inStatement id.text

/-- By method, then by statement. -/
def missingOrder (a b : String × StatementId) : Ordering :=
  (compare a.1 b.1).then (a.2.order b.2)

/-- What the invocations of some logic methods give: each record once, in order, and each
missing statement once, after the other notes. -/
def join (j : Joiner) (logic : List LogicMethod) : Lineage :=
  let found := logic.flatMap fun l => l.invocations.flatMap (j.matchInvocation l)
  let absent := sortedNew missingOrder (found.flatMap Match.missing)
  ⟨sortedNew LineageRecord.order (found.flatMap Match.records),
    found.flatMap Match.notes ++ absent.map fun (method, id) => missing method id⟩

end Joiner
end TableAccess
