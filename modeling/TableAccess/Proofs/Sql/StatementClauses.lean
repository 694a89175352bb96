import TableAccess.Proofs.Sql.Occurrences

/-! The clauses of a statement that hold expressions. Each clause has the columns that occur in it outside
nested queries, the outputs that bare names in it may mean, and says whether it is read. Neither the sides
of a set operation nor sources without a name are nested queries: their clauses are clauses of the
statement. So are those of the query that an insertion takes its rows from. -/
namespace TableAccess.Sql

/-- The columns of a clause, the outputs that its bare names may mean, and whether it is read. -/
structure Clause where
  columns : List ColumnRef
  outputs : List Output
  isRead : Bool

/-- The columns that occur in expressions. -/
def Expr.columnsOf (es : List Expr) : List ColumnRef := es.flatMap Expr.columns

namespace Clause

/-- The columns of a clause that name none of its outputs. -/
def needed (c : Clause) : List ColumnRef :=
  c.columns.filter fun column => !mentionsOutput c.outputs (.column column)

/-- A clause that is read. -/
def read (es : List Expr) : Clause := ⟨Expr.columnsOf es, [], true⟩

/-- A clause that is read and may refer to outputs. -/
def naming (outputs : List Output) (es : List Expr) : Clause := ⟨Expr.columnsOf es, outputs, true⟩

/-- A clause that is not read. -/
def unread (es : List Expr) : Clause := ⟨Expr.columnsOf es, [], false⟩

/-- The columns that both sides of a join share, each in the sources before and behind the join that
have names. Where none has, the columns are not read. -/
def shared (columns : List Name) (sides : List String) : Clause :=
  if sides.isEmpty then ⟨columns.map fun column => ⟨none, Name.last column⟩, [], false⟩
  else ⟨columns.flatMap fun column => sides.map fun side => ⟨some side, Name.last column⟩, [], true⟩

/-- The clauses of what an insertion does where a row exists already. The columns of a conflict are
unqualified. -/
def ofUpsert (assignments : List Assignment) (condition : Option Expr) : Option UpsertShape → List Clause
  | none => []
  | some .duplicateKey => [.read (assignments.map Assignment.value)]
  | some (.nothing columns) => [.read ((columns.getD []).map Expr.name)]
  | some (.update columns) =>
    [.read ((columns.getD []).map Expr.name), .read (assignments.map Assignment.value),
      .read condition.toList]

end Clause

mutual

/-- What a query gives. -/
def Query.outputs : Query → List Output
  | ⟨_, _, body, _, _, _, _, _⟩ => body.outputs

/-- What a body gives: a set operation what its left side gives. -/
def Body.outputs : Body → List Output
  | .select selection => selection.items.map SelectItem.output
  | .query query => query.outputs
  | .operation left _ _ => left.outputs
  | .table _ _ => [.wildcard none]
  | _ => []

end

mutual

/-- The selection that a query is, parentheses apart. -/
def Query.selection? : Query → Option Select
  | ⟨_, _, body, _, _, _, _, _⟩ => body.selection?

/-- The selection that a body is, parentheses apart. -/
def Body.selection? : Body → Option Select
  | .select selection => some selection
  | .query query => query.selection?
  | _ => none

end

mutual

theorem Query.outputs_selection {selection : Select} : ∀ q : Query, q.selection? = some selection →
    q.outputs = selection.items.map SelectItem.output
  | ⟨_, _, body, _, _, _, _, _⟩, select => Body.outputs_selection body select

theorem Body.outputs_selection {selection : Select} : ∀ b : Body, b.selection? = some selection →
    b.outputs = selection.items.map SelectItem.output
  | .select _, select => by cases select; rfl
  | .query query, select => Query.outputs_selection query select

end

mutual

/-- The clauses of a query. The limits are not read. -/
def Query.clauses : Query → List Clause
  | ⟨_, _, body, _, order, _, limits, _⟩ =>
    body.clauses ++ [.naming body.outputs order, .unread limits]

/-- The clauses of a body. Those of a statement as a body are not read. -/
def Body.clauses : Body → List Clause
  | .select selection => selection.clauses
  | .query query => query.clauses
  | .operation left _ right => left.clauses ++ right.clauses
  | .values _ _ _ cells => [.read cells]
  | .insertion insertion => insertion.clauses.map fun c => { c with isRead := false }
  | .update update => update.clauses.map fun c => { c with isRead := false }
  | .deletion deletion => deletion.clauses.map fun c => { c with isRead := false }
  | _ => []

/-- The clauses of a selection. Its hierarchy is not read. -/
def Select.clauses : Select → List Clause
  | ⟨_, _, _, distinctOn, _, items, _, tables, _, prewhere, condition, groupsAll, group, _,
      cluster, distribute, sort, having, windows, qualify, _, hierarchy⟩ =>
    let outputs := items.map SelectItem.output
    .read (items.map SelectItem.value) :: JoinedTable.clausesOf tables ++
      [.read distinctOn, .read prewhere.toList, .read condition.toList,
        .naming outputs (if groupsAll then [] else group), .naming outputs having.toList,
        .naming outputs qualify.toList, .naming outputs cluster, .naming outputs distribute,
        .naming outputs sort, .read windows, .unread hierarchy]

/-- The clauses of a source with its joins. -/
def JoinedTable.clauses : JoinedTable → List Clause
  | ⟨relation, joins⟩ => relation.clauses ++ Join.clausesOf relation.key joins

/-- The clauses of several sources. -/
def JoinedTable.clausesOf : List JoinedTable → List Clause
  | [] => []
  | t :: rest => t.clauses ++ JoinedTable.clausesOf rest

/-- The clauses of a source of rows. -/
def Relation.clauses : Relation → List Clause
  | .derived _ query none => query.clauses
  | .nested joined _ => joined.clauses
  | .unnest arrays _ _ _ => [.read arrays]
  | .tableFunction call _ => [.read [call]]
  | _ => []

/-- The clauses of joins, given what the columns of the last named source before them are qualified
with. -/
def Join.clausesOf : Option String → List Join → List Clause
  | _, [] => []
  | previous, ⟨_, relation, matching, tie, condition⟩ :: rest =>
    let current := relation.key
    relation.clauses ++ [.read matching.toList, .read condition.toList] ++
      (match tie with
        | .shared columns => [.shared columns (previous.toList ++ current.toList)]
        | _ => []) ++
      Join.clausesOf (current.orElse fun _ => previous) rest

/-- The clauses of an insertion. What it returns is not read. -/
def Insertion.clauses : Insertion → List Clause
  | ⟨_, _, _, _, source, assignments, _, upsert, upsertAssignments, upsertCondition, returning⟩ =>
    Query.clausesOf? source ++ .read (assignments.map Assignment.value) ::
      Clause.ofUpsert upsertAssignments upsertCondition upsert ++ [.unread (returning.map SelectItem.value)]

/-- The clauses of a query, where there is one. -/
def Query.clausesOf? : Option Query → List Clause
  | none => []
  | some query => query.clauses

/-- The clauses of an update. What it returns and its limit are not read. -/
def Update.clauses : Update → List Clause
  | ⟨_, table, _, sources, assignments, condition, returning, limit⟩ =>
    table.clauses ++ JoinedTable.clausesOf sources ++
      [.read (assignments.map Assignment.value), .read condition.toList,
        .unread (returning.map SelectItem.value), .unread limit.toList]

/-- The clauses of a deletion. What it returns, its order and its limit are not read. -/
def Deletion.clauses : Deletion → List Clause
  | ⟨_, _, sources, _, others, condition, returning, order, limit⟩ =>
    JoinedTable.clausesOf sources ++ JoinedTable.clausesOf others ++
      [.read condition.toList, .unread (returning.map SelectItem.value), .unread order,
        .unread limit.toList]

end

/-- The query that a text is, if it is nothing else. -/
def Query.ofText? (d : Dialect) (text : String) : Option Query :=
  match statements d text with
  | .ok [.query q] => some q
  | _ => none

/-- The clauses of a statement that reads or changes rows. -/
def Statement.clauses : Statement → List Clause
  | .query q => q.clauses
  | .insertion i => i.clauses
  | .update u => u.clauses
  | .deletion d => d.clauses
  | _ => []

end TableAccess.Sql
namespace TableAccess

mutual

/-- The columns that a scope mentions itself, those of its sources without a name included. -/
def Scope.mentioned : Scope → List ColumnRef
  | ⟨_, _, derived, nodes, _⟩ => Derived.mentionedOf derived ++ Node.columnsOf nodes

/-- The columns that sources without a name mention. -/
def Derived.mentionedOf : List Derived → List ColumnRef
  | [] => []
  | ⟨none, _, body⟩ :: rest => body.mentioned ++ Derived.mentionedOf rest
  | ⟨some _, _, _⟩ :: rest => Derived.mentionedOf rest

end

/-- The columns that a statement mentions, those where a row exists already included. -/
def Statement.mentioned : Statement → List ColumnRef
  | .select scope => scope.mentioned
  | .insert i => i.source.toList.flatMap Scope.mentioned ++
      i.onConflict.toList.flatMap fun u => u.scope.mentioned
  | .update u => u.scope.mentioned
  | .delete scope => scope.mentioned
  | .unknown => []

end TableAccess
