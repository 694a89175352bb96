import TableAccess.Diagnostic
import TableAccess.Name
import TableAccess.Scope

/-! What the names in front of a column mean in one scope. Each source adds the name
that its columns are qualified with; a name that is used twice means the later source,
and keeps its place. -/
namespace TableAccess

/-- A name and the table that it means. -/
structure AliasEntry where
  aliasName : String
  table : String
deriving DecidableEq, Repr, Inhabited

/-- The names of one scope, in the order of its sources. -/
structure AliasMap where
  entries : List AliasEntry
deriving DecidableEq, Repr, Inhabited

namespace AliasMap

/-- No name. -/
def empty : AliasMap := ⟨[]⟩

/-- The entry of a name. -/
def entry? (m : AliasMap) (aliasName : String) : Option AliasEntry :=
  m.entries.find? fun e => sameName e.aliasName aliasName

/-- The table that a name means. -/
def find? (m : AliasMap) (aliasName : String) : Option String :=
  (m.entry? aliasName).map AliasEntry.table

/-- Put an entry over the one of its name, or else at the end. -/
def place (new : AliasEntry) : List AliasEntry → List AliasEntry
  | [] => [new]
  | e :: rest => if sameName e.aliasName new.aliasName then new :: rest else e :: place new rest

/-- Let a name mean a table. -/
def insert (m : AliasMap) (aliasName table : String) : AliasMap :=
  ⟨place ⟨aliasName, table⟩ m.entries⟩

/-- The distinct names among some, in order, each in its first spelling. -/
def distinctNames (seen : List String) : List String → List String
  | [] => []
  | name :: rest =>
    if hasName seen name then distinctNames seen rest
    else name :: distinctNames (name :: seen) rest

/-- The distinct tables, in the order of the sources. -/
def tables (m : AliasMap) : List String := distinctNames [] (m.entries.map AliasEntry.table)

/-- The note about a name that means another table from now on. -/
def duplicate (aliasName previous table : String) : Diagnostic :=
  .about .duplicateAlias
    ("alias '" ++ aliasName ++ "' refers to '" ++ previous ++ "' and '" ++ table ++ "'; using '"
      ++ table ++ "'") aliasName

/-- Let a name mean a table, with a note where it meant one before. -/
def insertNoting (m : AliasMap) (aliasName table : String) : AliasMap × List Diagnostic :=
  let replaced := (m.find? aliasName).toList
  (m.insert aliasName table, replaced.map fun previous => duplicate aliasName previous table)

/-- Add tables under the names that their columns are qualified with. -/
def addTables (canonical : String → String) : AliasMap → List TableRef → AliasMap × List Diagnostic
  | m, [] => (m, [])
  | m, t :: rest =>
    let (m, notes) := m.insertNoting t.key (canonical t.name)
    let (m, more) := addTables canonical m rest
    (m, notes ++ more)

/-- The names of a scope's own tables. -/
def ofTables (canonical : String → String) (tables : List TableRef) :
    AliasMap × List Diagnostic :=
  addTables canonical empty tables

end AliasMap
end TableAccess
