/-! The tree that resolution works on. A statement is reduced to its scopes: the tables
that each one reads, the subqueries it reads as tables, and the places where a column
is mentioned. Operators, literals and clauses are gone, so a walk over the tree has
three kinds of nodes and four kinds of statements to look at. -/
namespace TableAccess

/-- A table among the sources of a scope. -/
structure TableRef where
  name : String
  aliasName : Option String
deriving DecidableEq, Repr, Inhabited

/-- What the columns of a table are qualified with: its alias, or else its name. -/
def TableRef.key (t : TableRef) : String := t.aliasName.getD t.name

/-- A mention of a column. -/
structure ColumnRef where
  qualifier : Option String
  name : String
deriving DecidableEq, Repr, Inhabited

/-- One column of what a scope gives, as scopes around it see it. A wildcard stands for
columns that only a schema knows. -/
inductive Output where
  | named (name : String)
  | wildcard (qualifier : Option String)
deriving DecidableEq, Repr

mutual

/-- A place where columns are read: a column itself, a call with the places among its
arguments, or a subquery. A call keeps its written form. -/
inductive Node where
  | column (column : ColumnRef)
  | call (name text : String) (arguments : List Node)
  | subquery (scope : Scope)

/-- A query with sources of its own. -/
structure Scope where
  ctes : List Cte
  tables : List TableRef
  derived : List Derived
  nodes : List Node
  outputs : List Output

/-- A named query that a scope declares for its own use. -/
structure Cte where
  aliasName : String
  columns : List String
  body : Scope

/-- A subquery that is read as a table. The sides of a set operation have no alias. -/
structure Derived where
  aliasName : Option String
  columns : List String
  body : Scope

end

namespace Scope

/-- A scope without any source or node. -/
def empty : Scope := ⟨[], [], [], [], []⟩

instance : Inhabited Scope := ⟨empty⟩

/-- Everything of one scope, then everything of another. -/
def append (a b : Scope) : Scope :=
  ⟨a.ctes ++ b.ctes, a.tables ++ b.tables, a.derived ++ b.derived, a.nodes ++ b.nodes,
    a.outputs ++ b.outputs⟩

instance : Append Scope := ⟨append⟩

/-- A scope that only reads columns. -/
def ofNodes (nodes : List Node) : Scope := { empty with nodes }

/-- A scope that only reads a table. -/
def ofTable (table : TableRef) : Scope := { empty with tables := [table] }

end Scope

mutual

/-- The columns mentioned at a node, those in subqueries apart. -/
def Node.columns : Node → List ColumnRef
  | .column c => [c]
  | .call _ _ arguments => Node.columnsOf arguments
  | .subquery _ => []

/-- The columns mentioned at several nodes. -/
def Node.columnsOf : List Node → List ColumnRef
  | [] => []
  | n :: rest => n.columns ++ Node.columnsOf rest

end

/-- The columns that a scope mentions itself. -/
def Scope.columns (s : Scope) : List ColumnRef := Node.columnsOf s.nodes

/-- A statement that changes columns: their names, and the scope that has the changed
table first, then what the new values and the condition read. -/
structure Update where
  targets : List String
  scope : Scope

/-- The table that an update changes. -/
def Update.table? (u : Update) : Option TableRef := u.scope.tables.head?

/-- A statement that adds rows: the columns it fills, the query that gives the rows, and
the update that happens to rows that exist already. -/
structure Insert where
  table : TableRef
  columns : List String
  source : Option Scope
  onConflict : Option Update

/-- The columns that an insertion changes in rows that exist already. -/
def Insert.conflictTargets (i : Insert) : List String :=
  match i.onConflict with
  | some update => update.targets
  | none => []

/-- A statement. The scope of a deletion has the table first whose rows go. -/
inductive Statement where
  | select (scope : Scope)
  | insert (insert : Insert)
  | update (update : Update)
  | delete (scope : Scope)
  | unknown

/-- What a statement does with rows. -/
inductive StatementKind where
  | select | insert | update | delete | unknown
deriving DecidableEq, Repr, Inhabited

namespace StatementKind

/-- All kinds, in their usual order. -/
def all : List StatementKind := [.select, .insert, .update, .delete, .unknown]

/-- The name of a kind in a report. -/
def name : StatementKind → String
  | .select => "Select"
  | .insert => "Insert"
  | .update => "Update"
  | .delete => "Delete"
  | .unknown => "Unknown"

/-- The keyword of a kind. -/
def keyword : StatementKind → String
  | .select => "SELECT"
  | .insert => "INSERT"
  | .update => "UPDATE"
  | .delete => "DELETE"
  | .unknown => "UNKNOWN"

end StatementKind

namespace Statement

/-- The kind of a statement. -/
def kind : Statement → StatementKind
  | .select _ => .select
  | .insert _ => .insert
  | .update _ => .update
  | .delete _ => .delete
  | .unknown => .unknown

/-- The scope of a statement's query or condition, where it has one. -/
def scope? : Statement → Option Scope
  | .select scope => some scope
  | .insert i => i.source
  | .update u => some u.scope
  | .delete scope => some scope
  | .unknown => none

/-- The named queries that a statement declares at its top. -/
def ctes (s : Statement) : List Cte :=
  match s.scope? with
  | some scope => scope.ctes
  | none => []

/-- The columns that a statement mentions outside its subqueries. -/
def columns (s : Statement) : List ColumnRef :=
  match s.scope? with
  | some scope => scope.columns
  | none => []

end Statement

end TableAccess
