import TableAccess.Proofs.Catalog.Merging
import TableAccess.Proofs.Sql.Identifiers
import TableAccess.Proofs.Sql.ReadClauses

/-! The tables that a script declares. Of the definitions of one name the last one counts, and statements
of other kinds do not count at all. A definition has a list of columns, a query that fills its table, or
both. Then its list is lost: the table is known with the outputs of the query that have names, and with
all columns of the list only if these are outputs of the query in the same order. -/
namespace TableAccess
open TableAccess.Text

namespace Sql

/-- The definition that a statement is. -/
def Statement.definition? : Statement → Option TableDefinition
  | .createTable definition => some definition
  | _ => none

/-- The outputs of a query that have names. -/
def Query.namedOutputs (q : Query) : List String :=
  q.outputs.filterMap fun
    | .named name => some name
    | .wildcard _ => none

namespace TableDefinition
variable {d : TableDefinition} {definitions : List TableDefinition} {name : String}

/-- The columns in the list of a definition. -/
def listed (d : TableDefinition) : List String := d.columns.map Ident.value

/-- The last of some definitions that has a name. -/
def last? (definitions : List TableDefinition) (name : String) : Option TableDefinition :=
  definitions.reverse.find? fun d => sameName (Name.last d.name) name

/-- What a definition says of its table. It has the last part of the name, all columns of the list in
their order and, without a query, no others. Without a list it has the outputs of the query that have
names. -/
structure Describes (d : TableDefinition) (t : TableSchema) : Prop where
  named : ∀ schema i, d.name = schema ++ [i] → i.IsPlain → t.name = i.value
  kept : d.listed.Sublist t.columns
  only : d.query = none → t.columns = d.listed
  filled : ∀ q, d.query = some q → d.columns = [] → t.columns = q.namedOutputs

theorem schema_eq : ∀ d : TableDefinition,
    d.schema = ⟨Name.last d.name, (d.query.map Query.namedOutputs).getD d.listed⟩
  | ⟨_, _, none⟩ => rfl
  | ⟨_, _, some q⟩ => by
    change (⟨_, q.scope.outputs.filterMap _⟩ : TableSchema) = _
    rw [q.outputs_scope]
    rfl

/-- A table is as its definition says if the query of the definition gives the columns of its list. -/
theorem describes_schema_iff :
    d.Describes d.schema ↔ ∀ q, d.query = some q → d.listed.Sublist q.namedOutputs := by
  rw [schema_eq]
  constructor
  · intro describes q query
    have kept := describes.kept
    rwa [query] at kept
  · intro given
    refine ⟨fun schema i parts plain => ?_, ?_, fun query => by rw [query]; rfl,
      fun q query _ => by rw [query]; rfl⟩
    · change Name.last d.name = i.value
      rw [parts, Name.last_append, plain.unquoted_text]
    · cases query : d.query with
      | none => exact List.Sublist.refl _
      | some q => exact given q query

end TableDefinition
end Sql

namespace Catalog
open TableAccess.Sql
variable {c : Catalog} {dialect : Dialect} {text : String} {statements : List Sql.Statement}
variable {definitions : List TableDefinition} {name : String}

/-- Whether a catalog has the tables of some definitions and no others, and each as the last definition of
its name says. -/
def Holds (c : Catalog) (definitions : List TableDefinition) : Prop :=
  ∀ name, Option.Rel TableDefinition.Describes (TableDefinition.last? definitions name) (c.find? name)

theorem ofDefinitions_eq (parsed : Sql.statements dialect text = .ok statements) :
    ofDefinitions dialect text =
      .ok (ofTables ((statements.filterMap Statement.definition?).map TableDefinition.schema)) := by
  rw [ofDefinitions, parsed, List.map_filterMap]
  refine congrArg (fun tables => Except.ok (ofTables (List.filterMap tables statements))) ?_
  funext s
  cases s <;> rfl

theorem find?_schemas : (ofTables (definitions.map TableDefinition.schema)).find? name =
    (TableDefinition.last? definitions name).map TableDefinition.schema := by
  rw [find?_ofTables, ← List.map_reverse, List.find?_map]
  rfl

theorem holds_schemas_iff : (ofTables (definitions.map TableDefinition.schema)).Holds definitions ↔
    ∀ name d q, TableDefinition.last? definitions name = some d → d.query = some q →
      d.listed.Sublist q.namedOutputs := by
  have each (name : String) : Option.Rel TableDefinition.Describes (TableDefinition.last? definitions name)
      ((ofTables (definitions.map TableDefinition.schema)).find? name) ↔
        ∀ d, TableDefinition.last? definitions name = some d → d.Describes d.schema := by
    rw [find?_schemas]
    cases TableDefinition.last? definitions name <;> simp
  simp only [Holds, each, TableDefinition.describes_schema_iff]
  exact forall_congr' fun name => forall_congr' fun d => forall_comm

/-- **All listed columns are known exactly if the queries beside the lists give them.** Of the definitions
of one name the last one counts, whatever other statements the script has: its table has the outputs with
names of its query, or the columns of its list if it has none. -/
theorem listed_columns_kept_iff (parsed : Sql.statements dialect text = .ok statements) :
    let definitions := statements.filterMap Statement.definition?
    ∃ c, ofDefinitions dialect text = .ok c ∧
      (∀ name, c.find? name = (TableDefinition.last? definitions name).map fun d =>
        ⟨Name.last d.name, (d.query.map Query.namedOutputs).getD d.listed⟩) ∧
      (∀ dialect' text' others, Sql.statements dialect' text' = .ok others →
        others.filterMap Statement.definition? = definitions → ofDefinitions dialect' text' = .ok c) ∧
      (c.Holds definitions ↔ ∀ name d q, TableDefinition.last? definitions name = some d →
        d.query = some q → d.listed.Sublist q.namedOutputs) := by
  intro definitions
  refine ⟨_, ofDefinitions_eq parsed, fun name => ?_, fun dialect' text' others read same => ?_,
    holds_schemas_iff⟩
  · rw [find?_schemas]
    exact congrArg (Option.map · _) (funext TableDefinition.schema_eq)
  · rw [ofDefinitions_eq read, same]

/-- What is read off the result of a reader is read off a value. -/
theorem exists_of_toOption_map {α β : Type} {result : Except String α} {f : α → β} {b : β}
    (read : result.toOption.map f = some b) : ∃ a, result = .ok a ∧ f a = b := by
  cases result with
  | error message => cases read
  | ok a => exact ⟨a, rfl, Option.some.inj read⟩

/-- A script that declares a table of users twice, the second time with a list and with a query that
gives its columns. -/
def usersScript : String :=
  "CREATE TABLE users (id INT); CREATE INDEX i ON users(id); " ++
    "CREATE TABLE app.\"USERS\" (id INT) AS SELECT id, name AS label FROM people UNION SELECT 1, 2"

theorem listed_columns_kept_iff_users : ∃ statements c,
    Sql.statements .generic usersScript = .ok statements ∧
    (statements.filterMap Statement.definition?).map TableDefinition.schema =
      [⟨"users", ["id"]⟩, ⟨"USERS", ["id", "label"]⟩] ∧
    ofDefinitions .generic usersScript = .ok c ∧
    c.Holds (statements.filterMap Statement.definition?) := by
  have read : (Sql.statements .generic usersScript).toOption.map (fun statements =>
      let definitions := statements.filterMap Statement.definition?
      (definitions.map TableDefinition.schema, definitions.all fun d =>
        d.query.all fun q => decide (d.listed.Sublist q.namedOutputs))) =
      some ([⟨"users", ["id"]⟩, ⟨"USERS", ["id", "label"]⟩], true) := by decide +kernel
  obtain ⟨statements, parsed, contents⟩ := exists_of_toOption_map read
  obtain ⟨schemas, given⟩ := Prod.mk.inj contents
  obtain ⟨c, loaded, _, _, holds⟩ := listed_columns_kept_iff parsed
  refine ⟨statements, c, parsed, schemas, loaded, holds.mpr fun name d q last query => ?_⟩
  have kept := List.all_eq_true.mp given d (List.mem_reverse.mp (List.mem_of_find?_eq_some last))
  rw [query] at kept
  exact of_decide_eq_true kept

/-- The second column of the list is lost, since the query does not give it. -/
theorem listed_column_lost : ∃ statements d c,
    Sql.statements .generic "CREATE TABLE t (id INT, note TEXT) AS SELECT id FROM u" = .ok statements ∧
      statements.filterMap Statement.definition? = [d] ∧ d.listed = ["id", "note"] ∧
      ofDefinitions .generic "CREATE TABLE t (id INT, note TEXT) AS SELECT id FROM u" = .ok c ∧
      c.tables = [⟨"t", ["id"]⟩] ∧ ¬c.Holds [d] := by
  have read : (Sql.statements .generic
      "CREATE TABLE t (id INT, note TEXT) AS SELECT id FROM u").toOption.map (fun statements =>
        (statements.filterMap Statement.definition?).map fun d => (d.listed, d.schema)) =
      some [(["id", "note"], ⟨"t", ["id"]⟩)] := by decide +kernel
  obtain ⟨statements, parsed, contents⟩ := exists_of_toOption_map read
  obtain ⟨d, only, contents⟩ := List.map_eq_singleton_iff.mp contents
  obtain ⟨listed, schema⟩ := Prod.mk.inj contents
  have named : Name.last d.name = "t" := congrArg TableSchema.name schema
  have loaded := ofDefinitions_eq parsed
  rw [only, List.map_singleton, schema] at loaded
  refine ⟨statements, d, _, parsed, only, listed, loaded, rfl, fun holds => ?_⟩
  have last : TableDefinition.last? [d] "t" = some d :=
    List.find?_cons_of_pos (by rw [named]; exact sameName_refl _)
  have found : (ofTables [⟨"t", ["id"]⟩]).find? "t" = some ⟨"t", ["id"]⟩ := by
    rw [find?_ofTables]
    exact List.find?_cons_of_pos (sameName_refl _)
  have described := holds "t"
  rw [last, found, Option.rel_some_some] at described
  have kept := described.kept
  rw [listed] at kept
  exact absurd kept (by decide)

end Catalog
end TableAccess
