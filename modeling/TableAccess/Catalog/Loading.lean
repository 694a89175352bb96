import TableAccess.Catalog
import TableAccess.Document.Json
import TableAccess.Sql.Outline

/-! Where catalogs come from: the statements that create tables, or a document that lists
the columns of each. -/
namespace TableAccess
open TableAccess.Document TableAccess.Text

/-- The table that a definition creates. Where a query gives its rows, the outputs of the
query that have names are its columns. -/
def Sql.TableDefinition.schema (d : Sql.TableDefinition) : TableSchema :=
  let columns := match d.query with
    | some query => query.scope.outputs.filterMap fun o =>
      match o with
      | .named name => some name
      | .wildcard _ => none
    | none => d.columns.map Sql.Ident.value
  ⟨Sql.Name.last d.name, columns⟩

namespace Catalog

/-- The catalog of the tables that some statements create; other statements do not
count. -/
def ofDefinitions (dialect : Sql.Dialect) (text : String) : Except Error Catalog :=
  match Sql.statements dialect text with
  | .error message => .error (.schema ("sql parser error: " ++ message))
  | .ok statements => .ok <| ofTables <| statements.filterMap fun s =>
    match s with
    | .createTable definition => some definition.schema
    | _ => none

/-- A text as a fault shows it: its blanks other than spaces are written as escapes, and
so no place is read across them. -/
def shown (content : String) : String :=
  content.map fun c => if isBlank c && c != ' ' then '\\' else c

/-- The texts of a list. A fault shows nothing of what is no list, unless it is a text. -/
def columnNames (v : Value) : Except Error (List String) :=
  match v with
  | .list items => items.mapM fun item =>
    match item with
    | .text name => .ok name
    | _ => .error (.schemaDocument "")
  | .text content => .error (.schemaDocument (shown content))
  | _ => .error (.schemaDocument "")

/-- The tables that a value lists. -/
def namedTables (v : Value) : Except Error (List TableSchema) :=
  match v with
  | .table fields => fields.mapM fun (name, columns) =>
    match name with
    | some name => (columnNames columns).map fun columns => ⟨name, columns⟩
    | none => .error (.schemaDocument "")
  | .text content => .error (.schemaDocument (shown content))
  | _ => .error (.schemaDocument "")

/-- The tables of a document, by name as written. Of those with one spelling the last
counts. -/
def ofListing (tables : List TableSchema) : Catalog :=
  ofTables (sortedOver (fun a b => compare a.name b.name) tables)

/-- The catalog of a document. -/
def ofJson (text : String) : Except Error Catalog := do
  let document := Json.read text
  let tables ← namedTables document.value
  if document.whole then return ofListing tables else throw (.schemaDocument "")

end Catalog
end TableAccess
