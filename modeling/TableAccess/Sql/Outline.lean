import TableAccess.Name
import TableAccess.Scope
import TableAccess.Sql.Grammar.Statement
import TableAccess.Error

/-! The scopes of a parsed statement. Every part of an expression that can mention a
column is visited in the order in which it is read; everything else is dropped. What a
select list calls its columns is kept, because scopes around it and some clauses of its
own refer to them by those names. -/
namespace TableAccess.Sql
open TableAccess.Text

/-- A written identifier without its quotes. -/
def unquoted (written : String) : String :=
  let characters := trim written.toList
  let content := characters.dropLast.drop 1
  let bare := match characters.head?, characters.getLast? with
    | some '"', some '"' => content
    | some '\x60', some '\x60' => content
    | some '[', some ']' => content
    | _, _ => characters
  String.ofList (if characters.length < 2 then characters else bare)

/-- The last part of a name. -/
def Name.last (n : Name) : String :=
  match n.getLast? with
  | some part => unquoted part.text
  | none => ""

/-- The column that a path of names stands for; all but its last two parts are dropped. -/
def columnOfPath (parts : List String) : List Node :=
  match parts.reverse with
  | name :: qualifier :: _ => [.column ⟨some qualifier, name⟩]
  | [name] => [.column ⟨none, name⟩]
  | [] => []

/-- What an expression without an alias is called. -/
def Expr.outputName (e : Expr) : String :=
  match e with
  | .name i => i.value
  | .path parts => ((parts.getLast?).map Ident.value).getD ""
  | e => e.text

/-- The qualifier of a written wildcard: the last name before its asterisk, if nothing in
front of the asterisk holds a blank. -/
def wildcardQualifier (written : String) : Option String :=
  let head := (trimStart written.toList).takeWhile fun c => !isBlank c
  match head.reverse with
  | '*' :: '.' :: path => some (unquoted (String.ofList (path.takeWhile (· != '.')).reverse))
  | _ => none

/-- What an item of a select list gives. -/
def SelectItem.output (item : SelectItem) : Output :=
  match item.value, item.aliasName with
  | .wildcard _, _ => .wildcard none
  | .qualifiedWildcard parts options, _ =>
    .wildcard (wildcardQualifier (Expr.text (.qualifiedWildcard parts options)))
  | _, some aliasName => .named aliasName.value
  | value, none => .named value.outputName

/-- Whether a node is nothing but the bare name of an output. -/
def mentionsOutput (outputs : List Output) (n : Node) : Bool :=
  match n with
  | .column ⟨none, name⟩ => outputs.any fun
    | .named output => sameName output name
    | .wildcard _ => false
  | _ => false

/-- Read more columns in a scope, except for bare names of its own outputs. -/
def Scope.readBesideOutputs (scope : Scope) (nodes : List Node) : Scope :=
  { scope with
    nodes := scope.nodes ++ nodes.filter fun n => !mentionsOutput scope.outputs n }

/-- What the columns of a source are qualified with in a shared column. -/
def Relation.key : Relation → Option String
  | .table name _ aliasName _ => some (TableRef.key ⟨Name.last name, aliasName.map (·.name.value)⟩)
  | .derived _ _ aliasName => aliasName.map (·.name.value)
  | _ => none

/-- The columns that both sides of a join share: each is read from the source before and
from the source that is joined, as far as these have names. -/
def sharedColumns (columns : List Name) (previous current : Option String) : List Node :=
  columns.flatMap fun column =>
    (previous.toList ++ current.toList).map fun side => .column ⟨some side, Name.last column⟩

/-- The sides of a set operation: what the left one gives is what the whole gives. -/
def Scope.ofSides (left right : Scope) : Scope :=
  { Scope.empty with
    derived := [⟨none, [], left⟩, ⟨none, [], right⟩]
    outputs := left.outputs }

mutual

/-- The places in an expression where columns are read. The clauses of a call are read
beside it, its arguments within. -/
def Expr.nodes : Expr → List Node
  | .name i => [.column ⟨none, i.value⟩]
  | .path parts => columnOfPath (parts.map Ident.value)
  | .literal _ | .typed _ | .wildcard _ | .qualifiedWildcard _ _ => []
  | .access root chain => root.nodes ++ Selector.nodesOf chain
  | .nested e | .test e _ | .outerJoin e | .prior e => e.nodes
  | .before _ _ e | .behind e _ | .cast _ e _ _ | .extract _ _ e | .rounding _ e _ | .collate e _
  | .named e _ => e.nodes
  | .introduced _ value => value.nodes
  | .interval amount _ => amount.nodes
  | .distinctFrom left _ right | .binary left _ right | .quantified left _ _ _ right =>
    left.nodes ++ right.nodes
  | .like operand _ _ _ pattern _ => operand.nodes ++ pattern.nodes
  | .atTimeZone time zone => time.nodes ++ zone.nodes
  | .position sought searched => sought.nodes ++ searched.nodes
  | .inList operand _ items => operand.nodes ++ Expr.nodesOf items
  | .inSubquery operand _ query => operand.nodes ++ [.subquery query.scope]
  | .inUnnest operand _ array => operand.nodes ++ array.nodes
  | .between operand _ low high => operand.nodes ++ low.nodes ++ high.nodes
  | .convert _ operand _ styles => operand.nodes ++ Expr.nodesOf styles
  | .substring _ _ whole start length =>
    whole.nodes ++ Expr.nodesOf? start ++ Expr.nodesOf? length
  | .trim _ whole what characters =>
    whole.nodes ++ Expr.nodesOf? what ++ Expr.nodesOf characters
  | .overlay whole replacement start length =>
    whole.nodes ++ replacement.nodes ++ start.nodes ++ Expr.nodesOf? length
  | .call callee braces parameters arguments nulls filter window within =>
    let text := Expr.text (.call callee braces parameters arguments nulls filter window within)
    .call (Name.text callee) text (parameters.nodes ++ arguments.nodes)
      :: (parameters.clauseNodes ++ arguments.clauseNodes ++ Expr.nodesOf? filter
        ++ Expr.nodesOf? window ++ Expr.nodesOf within)
  | .case operand branches otherwise =>
    Expr.nodesOf? operand ++ Branch.nodesOf branches ++ Expr.nodesOf? otherwise
  | .exists _ query | .subquery query => [.subquery query.scope]
  | .sets _ _ sets => Expr.nodesOfSets sets
  | .tuple items | .struct _ items => Expr.nodesOf items
  | .array _ elements => Expr.nodesOf elements
  | .dictionary members => Member.nodesOf members
  | .map entries => Entry.nodesOf entries
  | .search columns _ => columns.flatMap fun c => columnOfPath (c.map fun p => unquoted p.text)
  | .memberOf value array => value.nodes ++ array.nodes
  | .namedArgument _ _ value | .labelledArgument _ _ value => value.nodes
  | .sorted key _ _ => key.nodes
  | .window _ partition order _ => Expr.nodesOf partition ++ Expr.nodesOf order
  | .windowNamed _ => []
  | .windowDefinition _ window => window.nodes

/-- The places in several expressions. -/
def Expr.nodesOf : List Expr → List Node
  | [] => []
  | e :: rest => e.nodes ++ Expr.nodesOf rest

/-- The places in sets of expressions. -/
def Expr.nodesOfSets : List (List Expr) → List Node
  | [] => []
  | members :: rest => Expr.nodesOf members ++ Expr.nodesOfSets rest

/-- The places in brackets behind a value. What stands behind a period is a part of the value. -/
def Selector.nodesOf : List Selector → List Node
  | [] => []
  | .field _ :: rest => Selector.nodesOf rest
  | .element index :: rest => index.nodes ++ Selector.nodesOf rest
  | .slice lower upper stride :: rest =>
    Expr.nodesOf? lower ++ Expr.nodesOf? upper ++ Expr.nodesOf? stride ++ Selector.nodesOf rest

/-- The places in branches. -/
def Branch.nodesOf : List Branch → List Node
  | [] => []
  | ⟨condition, result⟩ :: rest => condition.nodes ++ result.nodes ++ Branch.nodesOf rest

/-- The places in members of a dictionary. -/
def Member.nodesOf : List Member → List Node
  | [] => []
  | ⟨_, value⟩ :: rest => value.nodes ++ Member.nodesOf rest

/-- The places in entries of a map. -/
def Entry.nodesOf : List Entry → List Node
  | [] => []
  | ⟨key, value⟩ :: rest => key.nodes ++ value.nodes ++ Entry.nodesOf rest

/-- The places in the arguments of a call. -/
def Arguments.nodes : Arguments → List Node
  | .absent => []
  | .query query => [.subquery query.scope]
  | .list _ items _ => Expr.nodesOf items

/-- The places in the clauses among the arguments of a call. -/
def Arguments.clauseNodes : Arguments → List Node
  | .list _ _ clauses => ArgumentClause.nodesOf clauses
  | _ => []

/-- The places in clauses among arguments. A filler is no column. -/
def ArgumentClause.nodesOf : List ArgumentClause → List Node
  | [] => []
  | .orderBy keys :: rest => Expr.nodesOf keys ++ ArgumentClause.nodesOf rest
  | .limit count :: rest => count.nodes ++ ArgumentClause.nodesOf rest
  | .having _ bound :: rest => bound.nodes ++ ArgumentClause.nodesOf rest
  | .overflow _ _ :: rest | .words _ :: rest => ArgumentClause.nodesOf rest

/-- The places in an expression, where there is one. -/
def Expr.nodesOf? : Option Expr → List Node
  | none => []
  | some e => e.nodes

/-- The scope of a query. -/
def Query.scope : Query → Scope
  | ⟨_, ctes, body, _, order, _, _, _⟩ =>
    let inner := body.scope
    let named := Cte.scopes ctes
    let scope := if named.isEmpty then inner else { inner with ctes := named }
    Scope.readBesideOutputs scope (Expr.nodesOf order)

/-- The scopes of named queries. -/
def Cte.scopes : List Cte → List TableAccess.Cte
  | [] => []
  | ⟨name, columns, _, query, _⟩ :: rest =>
    ⟨name.value, columns.map (·.name.value), query.scope⟩ :: Cte.scopes rest

/-- The scope of a body. Statements as bodies are not looked into. -/
def Body.scope : Body → Scope
  | .select select => select.scope
  | .query query => query.scope
  | .operation left _ right => Scope.ofSides left.scope right.scope
  | .values _ _ _ cells => Scope.ofNodes (Expr.nodesOf cells)
  | .table _ name =>
    { Scope.ofTable ⟨unquoted name, none⟩ with outputs := [.wildcard none] }
  | _ => Scope.empty

/-- The scope of a selection. -/
def Select.scope : Select → Scope
  | ⟨_, _, _, distinctOn, _, items, _, tables, _, prewhere, condition, groupsAll, group, _,
      cluster, distribute, sort, having, windows, qualify, _, _⟩ =>
    let sources := SelectItem.scopes items ++ JoinedTable.scopes tables
    let read := Expr.nodesOf distinctOn ++ Expr.nodesOf? prewhere ++ Expr.nodesOf? condition
    let grouped := if groupsAll then [] else Expr.nodesOf group
    let later := grouped ++ Expr.nodesOf? having ++ Expr.nodesOf? qualify
      ++ Expr.nodesOf cluster ++ Expr.nodesOf distribute ++ Expr.nodesOf sort
    Scope.readBesideOutputs (sources ++ Scope.ofNodes read) later
      ++ Scope.ofNodes (Expr.nodesOf windows)

/-- What the items of a select list read and give. -/
def SelectItem.scopes : List SelectItem → Scope
  | [] => Scope.empty
  | ⟨value, aliasName⟩ :: rest =>
    ⟨[], [], [], value.nodes, [SelectItem.output ⟨value, aliasName⟩]⟩ ++ SelectItem.scopes rest

/-- A source with its joins. -/
def JoinedTable.scope : JoinedTable → Scope
  | ⟨relation, joins⟩ => relation.scope ++ Join.scopes relation.key joins

/-- Several sources. -/
def JoinedTable.scopes : List JoinedTable → Scope
  | [] => Scope.empty
  | t :: rest => t.scope ++ JoinedTable.scopes rest

/-- A source of rows. -/
def Relation.scope : Relation → Scope
  | .table name _ aliasName _ => Scope.ofTable ⟨Name.last name, aliasName.map (·.name.value)⟩
  | .derived _ query aliasName =>
    let columns := match aliasName with
      | some a => a.columns.map (·.name.value)
      | none => []
    { Scope.empty with derived := [⟨aliasName.map (·.name.value), columns, query.scope⟩] }
  | .nested joined _ => joined.scope
  | .unnest arrays _ _ _ => Scope.ofNodes (Expr.nodesOf arrays)
  | .tableFunction call _ => Scope.ofNodes call.nodes
  | .other _ _ => Scope.empty

/-- Joins, given what the columns of the last named source before them are qualified
with. -/
def Join.scopes : Option String → List Join → Scope
  | _, [] => Scope.empty
  | previous, ⟨_, relation, matching, tie, condition⟩ :: rest =>
    let current := relation.key
    let shared := match tie with
      | .shared columns => sharedColumns columns previous current
      | _ => []
    relation.scope
      ++ Scope.ofNodes (Expr.nodesOf? matching ++ Expr.nodesOf? condition ++ shared)
      ++ Join.scopes (current.orElse fun _ => previous) rest

end

/-! Statements. -/

/-- The columns that assignments write. -/
def Assignment.targets (assignments : List Assignment) : List String :=
  assignments.flatMap fun a => match a.target with
    | .column name => [Name.last name]
    | .columns names => names.map Name.last

/-- The places where the new values read columns. -/
def Assignment.nodes (assignments : List Assignment) : List Node :=
  assignments.flatMap fun a => a.value.nodes

/-- The scope of an update's sources, new values and condition. -/
def Update.outline (u : Update) : TableAccess.Update :=
  ⟨Assignment.targets u.assignments,
    u.table.scope ++ JoinedTable.scopes u.sources
      ++ Scope.ofNodes (Assignment.nodes u.assignments ++ Expr.nodesOf? u.condition)⟩

/-- The scope of a deletion's sources and condition. -/
def Deletion.scope (d : Deletion) : Scope :=
  JoinedTable.scopes d.sources ++ JoinedTable.scopes d.others
    ++ Scope.ofNodes (Expr.nodesOf? d.condition)

/-- The columns that show a conflict. -/
def conflictColumns (columns : Option (List Ident)) : List Node :=
  (columns.getD []).map fun c => .column ⟨none, c.value⟩

/-- What an insertion does to rows that exist already, as an update of its table. The new
row has a name there, and with it the table has another one. -/
def Insertion.upsertOutline (i : Insertion) (table : TableRef) : Option TableAccess.Update :=
  let renamed := fun (aliasName : String) => Scope.ofTable ⟨table.name, some aliasName⟩
  let targets := Assignment.targets i.upsertAssignments
  let values := Scope.ofNodes (Assignment.nodes i.upsertAssignments)
  match i.upsert with
  | none => none
  | some .duplicateKey =>
    let row := match i.rowAlias with
      | some aliasName => renamed (Name.last aliasName)
      | none => Scope.empty
    some ⟨targets, Scope.ofTable table ++ row ++ values⟩
  | some (.nothing columns) =>
    let nodes := conflictColumns columns
    if nodes.isEmpty then none else some ⟨[], Scope.ofTable table ++ Scope.ofNodes nodes⟩
  | some (.update columns) =>
    some ⟨targets, Scope.ofTable table ++ renamed "excluded"
      ++ Scope.ofNodes (conflictColumns columns) ++ values
      ++ Scope.ofNodes (Expr.nodesOf? i.upsertCondition)⟩

/-- The columns, the source and the conflict of an insertion. Columns that are set one by
one are read in the source as well. -/
def Insertion.outline (i : Insertion) : TableAccess.Insert :=
  let table : TableRef := ⟨Name.last i.table, i.aliasName.map Ident.value⟩
  let source := i.source.map Query.scope
  let source := if i.assignments.isEmpty then source
    else some (source.getD Scope.empty ++ Scope.ofNodes (Assignment.nodes i.assignments))
  ⟨table, i.columns.map (fun c => unquoted c.text) ++ Assignment.targets i.assignments, source,
    i.upsertOutline table⟩

/-- The scopes of a statement. -/
def Statement.outline : Statement → TableAccess.Statement
  | .query q => .select q.scope
  | .insertion i => .insert i.outline
  | .update u => .update u.outline
  | .deletion d => .delete d.scope
  | _ => .unknown

/-- The scopes of the first statement of a text. -/
def readStatement (d : Dialect) (text : String) : Except Error TableAccess.Statement :=
  match statements d text with
  | .error message => .error (.statement ("sql parser error: " ++ message))
  | .ok [] => .error (.statement "no SQL statement found")
  | .ok (first :: _) => .ok first.outline

end TableAccess.Sql
