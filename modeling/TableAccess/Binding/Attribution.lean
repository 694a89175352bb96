import TableAccess.Binding.AliasMap
import TableAccess.Catalog

/-! To which table a mention of a column belongs. A qualifier is looked up in the scope
and then outwards. Without a qualifier only the scope's own tables come into question: a
single one takes every column, and among several the one that is known to have it. -/
namespace TableAccess

/-- The bucket of columns that several tables have. -/
def ambiguousBucket : String := "AMBIGUOUS"

/-- The bucket of columns that no table is known to have. -/
def unknownBucket : String := "UNKNOWN"

/-- Tables that a statement declares itself, the latest first. -/
abbrev LocalTables := List TableSchema

/-- The local table of a name; the latest declaration counts. -/
def LocalTables.find? (tables : LocalTables) (name : String) : Option TableSchema :=
  List.find? (fun t => sameName t.name name) tables

/-- What names mean in one scope: the names of its sources, the subqueries among them
whose columns are known, and the named queries that it sees. -/
structure Frame where
  aliases : AliasMap
  derived : LocalTables
  ctes : LocalTables
deriving Repr, Inhabited

/-- A scope and the scopes around it, innermost first. -/
abbrev Frames := List Frame

namespace Frames

/-- The table that a qualifier means in the innermost scope that knows it. -/
def lookup : Frames → String → Option String
  | [], _ => none
  | frame :: outer, qualifier =>
    (frame.aliases.find? qualifier).orElse fun _ => lookup outer qualifier

/-- The innermost local table of a name. -/
def localTable? : Frames → String → Option TableSchema
  | [], _ => none
  | frame :: outer, name =>
    (frame.derived.find? name).orElse fun _ =>
      (frame.ctes.find? name).orElse fun _ => localTable? outer name

/-- The names of the innermost scope. -/
def aliases (frames : Frames) : AliasMap :=
  match frames with
  | [] => AliasMap.empty
  | frame :: _ => frame.aliases

end Frames

namespace Catalog

/-- The columns of a table, as far as they are known: local tables hide those of the
database. -/
def columnsOf? (c : Catalog) (frames : Frames) (table : String) : Option (List String) :=
  ((frames.localTable? table).orElse fun _ => c.find? table).map TableSchema.columns

/-- Whether a table has a column, as far as that is known. The columns of a local table are gone
through one by one; those of the database are looked up. -/
def tableHas (c : Catalog) (frames : Frames) (table column : String) : Option Bool :=
  match frames.localTable? table with
  | some declared => some (hasName declared.columns column)
  | none => c.hasColumn table column

/-- A column as its table declares it, or else as it is written. -/
def spelling (c : Catalog) (frames : Frames) (table column : String) : String :=
  match c.columnsOf? frames table with
  | some columns => (columns.find? (sameName column)).getD column
  | none => column

/-- A table as it is declared by a visible named query or by the database, or else as it
is written. -/
def canonical (c : Catalog) (ctes : LocalTables) (table : String) : String :=
  match (ctes.find? table).orElse fun _ => c.find? table with
  | some declared => declared.name
  | none => table

end Catalog

/-- Why a column belongs to no table. -/
inductive UnknownReason where
  /-- Its qualifier means nothing. -/
  | unboundQualifier (qualifier : String)
  /-- No table of the scope is known to have it. -/
  | noMatchingTable
  /-- The scope has no table. -/
  | noTables
deriving DecidableEq, Repr

/-- Where a mention of a column belongs. -/
inductive Attribution where
  | table (name : String)
  | ambiguous (tables : List String)
  | unknown (reason : UnknownReason)
deriving DecidableEq, Repr

/-- Choose among tables that are known to have a column. -/
def Attribution.ofMatches : List String → Attribution
  | [] => .unknown .noMatchingTable
  | [only] => .table only
  | several => .ambiguous several

/-- Where a mention of a column belongs. -/
def Catalog.attributionOf (c : Catalog) (frames : Frames) (column : ColumnRef) : Attribution :=
  match column.qualifier with
  | some qualifier =>
    match frames.lookup qualifier with
    | some table => .table table
    | none => .unknown (.unboundQualifier qualifier)
  | none =>
    match frames.aliases.tables with
    | [] => .unknown .noTables
    | [only] => .table only
    | several =>
      .ofMatches (several.filter fun t => c.tableHas frames t column.name == some true)

namespace Attribution

/-- The name under which the column is recorded. -/
def bucket : Attribution → String
  | table name => name
  | ambiguous _ => ambiguousBucket
  | unknown _ => unknownBucket

/-- The note about a column that belongs to no single table. -/
def note (a : Attribution) (column : ColumnRef) : Option Diagnostic :=
  let written := "column '" ++ column.name ++ "'"
  match a with
  | table _ => none
  | ambiguous tables =>
    some (.about .ambiguousColumn
      (written ++ " exists in " ++ String.intercalate ", " tables
        ++ "; qualify it with an alias") column.name)
  | unknown reason =>
    let message := match reason with
      | .unboundQualifier q => "qualifier '" ++ q ++ "' of " ++ written ++ " does not resolve"
      | .noMatchingTable => written ++ " matches no table in scope"
      | .noTables => written ++ " used in a scope without tables"
    let subject := match column.qualifier with
      | some q => q ++ "." ++ column.name
      | none => column.name
    some (.about .unknownColumn message subject)

end Attribution
end TableAccess
