import TableAccess.Binding.Attribution

/-! What a scope reads, with everything nested in it. Scopes are read one inside the
other, each with the names that are visible where it stands: the bodies of named queries
and of subqueries among the sources see what surrounds their scope but not its own
sources, while subqueries in expressions see those too. How deeply scopes nest is
bounded; what lies deeper is left out and noted. -/
namespace TableAccess

/-- What was read: tables, pairs of a table and a column, and notes, in the order in
which they were found; and the columns that the scope gives. -/
structure Reading where
  tables : List String
  columns : List (String × String)
  notes : List Diagnostic
  outputs : List String
deriving Repr, Inhabited

namespace Reading

/-- Nothing. -/
def empty : Reading := ⟨[], [], [], []⟩

/-- What two readings found. What a scope gives is not part of that. -/
def append (a b : Reading) : Reading :=
  ⟨a.tables ++ b.tables, a.columns ++ b.columns, a.notes ++ b.notes, []⟩

instance : Append Reading := ⟨append⟩

/-- Some tables. -/
def ofTables (tables : List String) : Reading := { empty with tables }

/-- Some columns, each with its table. -/
def ofColumns (columns : List (String × String)) : Reading := { empty with columns }

/-- Some notes. -/
def ofNotes (notes : List Diagnostic) : Reading := { empty with notes }

end Reading

/-- The name under which a table is recorded when all its columns are read. -/
def everyColumn : String := "*"

/-- What is known and how deeply scopes are read. -/
structure Resolver where
  catalog : Catalog
  maxDepth : Nat
deriving Repr, Inhabited

namespace Resolver

/-- The note about a scope that nests too deeply. -/
def tooDeep (r : Resolver) (what : String) (subject : Option String) : Reading :=
  let message :=
    what ++ " nested deeper than " ++ toString r.maxDepth ++ " levels was not resolved"
  .ofNotes [{ Diagnostic.of .depthExceeded message with subject }]

/-- Record a mention of a column, in the spelling of its table. -/
def mention (r : Resolver) (frames : Frames) (column : ColumnRef) : Reading :=
  let attribution := r.catalog.attributionOf frames column
  let name := match attribution with
    | .table t => r.catalog.spelling frames t column.name
    | _ => column.name
  { Reading.empty with
    columns := [(attribution.bucket, name)], notes := (attribution.note column).toList }

/-- Record a mention of a column among the arguments of a call. The call itself is
recorded for the table that the column is qualified with. -/
def mentionInCall (r : Resolver) (frames : Frames) (call : String) (column : ColumnRef) :
    Reading :=
  let whole := match column.qualifier, r.catalog.attributionOf frames column with
    | some _, .table t => Reading.ofColumns [(t, call)]
    | _, _ => Reading.empty
  r.mention frames column ++ whole

/-- The known columns of a table. -/
def knownColumns (r : Resolver) (frames : Frames) (table : String) : List String :=
  (r.catalog.columnsOf? frames table).getD []

/-- Record that all columns of a table are read, and give those that are known. -/
def mentionAll (r : Resolver) (frames : Frames) (table : String) : Reading :=
  { Reading.empty with
    columns := [(table, everyColumn)], outputs := r.knownColumns frames table }

/-- What one output of a scope reads and gives. A wildcard reads the tables of its own
scope; where its qualifier is none of them it is treated like a column. -/
def output (r : Resolver) (frames : Frames) (o : Output) : Reading :=
  match o with
  | .named name => { Reading.empty with outputs := [name] }
  | .wildcard none =>
    let all := frames.aliases.tables.map (r.mentionAll frames)
    { all.foldl Reading.append Reading.empty with outputs := all.flatMap Reading.outputs }
  | .wildcard (some qualifier) =>
    match frames.aliases.find? qualifier with
    | some table => r.mentionAll frames table
    | none => r.mention frames ⟨some qualifier, everyColumn⟩

/-- What the outputs of a scope read and give. -/
def outputs (r : Resolver) (frames : Frames) (os : List Output) : Reading :=
  let all := os.map (r.output frames)
  { all.foldl Reading.append Reading.empty with outputs := all.flatMap Reading.outputs }

end Resolver

/-- A subquery among the sources of a scope once it is read: the columns that it is
known to have, and what it read. -/
structure Source where
  aliasName : Option String
  columns : List String
  reading : Reading
deriving Repr, Inhabited

/-- The sources of a scope once they are read: their names, the subqueries among them,
what they read, and what the scope gives if it has no named source. -/
structure Sources where
  aliases : AliasMap
  derived : LocalTables
  reading : Reading
  branch : Option (List String)
deriving Repr, Inhabited

/-- Add one subquery to the sources. Without a name it is one side of a set operation, and
the first such side gives the columns of the whole. -/
def Sources.add (sources : Sources) (source : Source) : Sources :=
  match source.aliasName with
  | some aliasName =>
    let (aliases, notes) := sources.aliases.insertNoting aliasName aliasName
    { sources with
      aliases, derived := ⟨aliasName, source.columns⟩ :: sources.derived
      reading := sources.reading ++ source.reading ++ .ofNotes notes }
  | none =>
    { sources with
      reading := sources.reading ++ source.reading
      branch := sources.branch.orElse fun _ => some source.columns }

/-- The declared columns, or else those that are given. -/
def declaredOr (declared given : List String) : List String :=
  if declared.isEmpty then given else declared

mutual

/-- What a scope reads, `depth` levels below its statement, where the named queries
`ctes` and the scopes `outer` are visible. -/
def Scope.read (r : Resolver) (ctes : LocalTables) (outer : Frames) (depth : Nat) :
    Scope → Reading
  | ⟨declared, tables, derived, nodes, outputs⟩ =>
    let (visible, named) := Cte.readAll r ctes outer depth declared
    let (aliases, notes) := AliasMap.ofTables (r.catalog.canonical visible) tables
    let start : Sources := ⟨aliases, [], named ++ .ofNotes notes, none⟩
    let sources := (Derived.readAll r visible outer depth derived).foldl Sources.add start
    let frames := ⟨sources.aliases, sources.derived, visible⟩ :: outer
    let reading := sources.reading
      ++ .ofTables (sources.aliases.entries.map AliasEntry.table)
      ++ Node.readAll r frames visible depth nodes
    match sources.branch, sources.aliases.entries with
    | some columns, [] => { reading with outputs := columns }
    | _, _ =>
      let given := r.outputs frames outputs
      { reading ++ given with outputs := given.outputs }

/-- What the named queries of a scope read, and the named queries visible after them.
Each sees those before it. -/
def Cte.readAll (r : Resolver) (ctes : LocalTables) (outer : Frames) (depth : Nat) :
    List Cte → LocalTables × Reading
  | [] => (ctes, .empty)
  | ⟨aliasName, columns, body⟩ :: rest =>
    let reading :=
      if depth < r.maxDepth then body.read r ctes outer (depth + 1)
      else r.tooDeep "CTE" (some aliasName)
    let visible := ⟨aliasName, declaredOr columns reading.outputs⟩ :: ctes
    let (visible, more) := Cte.readAll r visible outer depth rest
    (visible, reading ++ .ofTables [aliasName] ++ more)

/-- The subqueries among the sources of a scope, each read by itself. -/
def Derived.readAll (r : Resolver) (ctes : LocalTables) (outer : Frames) (depth : Nat) :
    List Derived → List Source
  | [] => []
  | ⟨aliasName, columns, body⟩ :: rest =>
    let reading :=
      if depth < r.maxDepth then body.read r ctes outer (depth + 1)
      else r.tooDeep "derived table" aliasName
    let known := match aliasName with
      | some _ => declaredOr columns reading.outputs
      | none => reading.outputs
    ⟨aliasName, known, reading⟩ :: Derived.readAll r ctes outer depth rest

/-- What is read at a node. -/
def Node.read (r : Resolver) (frames : Frames) (ctes : LocalTables) (depth : Nat) :
    Node → Reading
  | .column c => r.mention frames c
  | .call _ text arguments => Node.readArguments r frames ctes depth text arguments
  | .subquery body =>
    if depth < r.maxDepth then body.read r ctes frames (depth + 1)
    else r.tooDeep "subquery" none

/-- What is read at several nodes. -/
def Node.readAll (r : Resolver) (frames : Frames) (ctes : LocalTables) (depth : Nat) :
    List Node → Reading
  | [] => .empty
  | n :: rest => n.read r frames ctes depth ++ Node.readAll r frames ctes depth rest

/-- What is read at the arguments of a call. -/
def Node.readArguments (r : Resolver) (frames : Frames) (ctes : LocalTables) (depth : Nat)
    (call : String) : List Node → Reading
  | [] => .empty
  | n :: rest =>
    (match n with
      | .column c => r.mentionInCall frames call c
      | n => n.read r frames ctes depth)
      ++ Node.readArguments r frames ctes depth call rest

end

end TableAccess
