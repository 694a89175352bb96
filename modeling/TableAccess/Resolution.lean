import TableAccess.Binding.Reading
import TableAccess.StatementId

/-! What a statement reads and writes, as tables and their columns. The columns that are
written belong to the table that is changed, in the spelling of the database; they are
recorded beside those that the statement's scopes read. -/
namespace TableAccess

/-- What an operation on rows is called from outside the database. -/
inductive Operation where
  | create | read | update | delete | unknown
deriving DecidableEq, Repr, Inhabited

namespace Operation

/-- The name of an operation. -/
def name : Operation → String
  | create => "Create"
  | read => "Read"
  | update => "Update"
  | delete => "Delete"
  | unknown => "Unknown"

/-- The letter of an operation in a table of operations. -/
def letter : Operation → Char
  | create => 'C'
  | read => 'R'
  | update => 'U'
  | delete => 'D'
  | unknown => '-'

/-- The operation that a kind of statement performs. -/
def ofKind : StatementKind → Operation
  | .select => read
  | .insert => create
  | .update => update
  | .delete => delete
  | .unknown => unknown

end Operation

/-- The tables and columns of one statement. The columns of each table are a set, as are
the tables. -/
structure Access where
  kind : StatementKind
  tables : List String
  columns : List (String × List String)
deriving DecidableEq, Repr, Inhabited

namespace Access

/-- What the statement does, seen from outside. -/
def operation (a : Access) : Operation := .ofKind a.kind

/-- The columns recorded under a name. -/
def columnsOf (a : Access) (table : String) : List String :=
  match a.columns.find? fun entry => entry.1 == table with
  | some entry => entry.2
  | none => []

/-- Whether a name stands for columns that belong to no single table. -/
def isBucket (name : String) : Bool := name == ambiguousBucket || name == unknownBucket

/-- The columns of tables, each with its table. -/
def pairs (a : Access) : List (String × String) :=
  (a.columns.filter fun entry => !isBucket entry.1).flatMap fun entry =>
    entry.2.map fun column => (entry.1, column)

/-- The columns of tables in their written form. -/
def qualified (a : Access) : List String := a.pairs.map fun (t, c) => t ++ "." ++ c

end Access

/-- Columns that are written in a table. -/
def Resolver.write (r : Resolver) (table : String) (columns : List String) : Reading :=
  .ofColumns (columns.map fun column => (table, r.catalog.spelling [] table column))

/-- What an update reads and writes. -/
def Update.read (r : Resolver) (u : Update) : Reading :=
  let reading := u.scope.read r [] [] 0
  match u.table? with
  | some t =>
    { reading ++ r.write (r.catalog.canonical [] t.name) u.targets with outputs := reading.outputs }
  | none => reading

/-- What an insertion reads and writes. It gives no columns. -/
def Insert.read (r : Resolver) (i : Insert) : Reading :=
  let source := match i.source with
    | some scope => scope.read r [] [] 0
    | none => .empty
  let target := r.catalog.canonical [] i.table.name
  let upsert := match i.onConflict with
    | some update => update.read r
    | none => .empty
  source ++ r.write target i.columns ++ .ofTables [target] ++ upsert

/-- What a statement reads and writes. -/
def Statement.read (r : Resolver) : Statement → Reading
  | .select scope => scope.read r [] [] 0
  | .insert i => i.read r
  | .update u => u.read r
  | .delete scope => scope.read r [] [] 0
  | .unknown => .empty

/-- The tables and columns of a statement, with the notes about it. -/
structure Resolution where
  access : Access
  notes : List Diagnostic
deriving DecidableEq, Repr, Inhabited

namespace Resolver

/-- How deeply scopes are read where nothing else is asked for. -/
def usualDepth : Nat := 32

/-- The tables and columns of a statement, each in a set, with every note once. The notes
carry the identifier of the statement, where it has one. -/
def resolve (r : Resolver) (s : Statement) (id : Option StatementId) : Resolution :=
  let reading := s.read r
  let tagged := fun (d : Diagnostic) => match id with
    | some id => d.inStatement id.text
    | none => d
  ⟨⟨s.kind, nameSet reading.tables, nameTable reading.columns⟩,
    (withoutRepeats [] reading.notes).map tagged⟩

end Resolver
end TableAccess
