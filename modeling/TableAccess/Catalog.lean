import TableAccess.Name
import TableAccess.Sorted

/-! What is known of a database: its tables and their columns. Names are looked up
without regard to case, so at most one table of a folded name is kept, and the one that
was added last counts. A catalog is made once and asked often, so it keeps what its tables
are looked up by: the folded name of each, and the set of its folded columns. -/
namespace TableAccess

/-- A table with its columns as declared. -/
structure TableSchema where
  name : String
  columns : List String
deriving DecidableEq, Repr, Inhabited

/-- A table of a catalog, with what it and its columns are looked up by. -/
structure Catalog.Entry where
  key : String
  table : TableSchema
  folded : List String
  key_eq : key = fold table.name
  folded_eq : folded = nameSet (table.columns.map fold)
deriving Repr

namespace Catalog.Entry

/-- The entry of a table. -/
def of (t : TableSchema) : Entry where
  key := fold t.name
  table := t
  folded := nameSet (t.columns.map fold)
  key_eq := rfl
  folded_eq := rfl

/-- By the key. -/
def order (a b : Entry) : Ordering := compare a.key b.key

/-- Whether a table has a column. -/
def has (e : Entry) (column : String) : Bool := e.folded.contains (fold column)

end Catalog.Entry

/-- The known tables, by folded name. -/
structure Catalog where
  entries : List Catalog.Entry
deriving Repr, Inhabited

namespace Catalog

/-- No table. -/
def empty : Catalog := ⟨[]⟩

/-- The tables in the order of their folded names. -/
def tables (c : Catalog) : List TableSchema := c.entries.map Entry.table

/-- Keep an entry, in place of the one that has its key. -/
def put (c : Catalog) (e : Entry) : Catalog := ⟨insertOver Entry.order e c.entries⟩

/-- Add a table, in place of the one that has its name. -/
def insert (c : Catalog) (t : TableSchema) : Catalog := c.put (.of t)

/-- The catalog of some tables; of those with one name the last counts. -/
def ofTables (tables : List TableSchema) : Catalog := tables.foldl insert empty

/-- The tables of both; where both have one, that of the second. Its entries are taken as they
are. -/
def merge (c other : Catalog) : Catalog := other.entries.foldl put c

/-- The entry of a name. -/
def entry? (c : Catalog) (name : String) : Option Entry :=
  c.entries.find? fun e => e.key == fold name

/-- The table of a name. -/
def find? (c : Catalog) (name : String) : Option TableSchema := (c.entry? name).map Entry.table

/-- Whether a table has a column, if the table is known. -/
def hasColumn (c : Catalog) (table column : String) : Option Bool :=
  (c.entry? table).map fun e => e.has column

end Catalog
end TableAccess
