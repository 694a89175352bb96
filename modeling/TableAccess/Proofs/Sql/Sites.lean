import TableAccess.Proofs.Sql.Occurrences

/-! The sites of a query. A body stands at a site: named queries are visible around it, others are
declared for it, and plain tables are in it, those of nested joins too. Sites are told from the syntax, in
the order in which they are read; clauses that no scope reads have none. A query in parentheses has a site
but no scope of its own. The scope of any other body declares no names and has the plain tables of the
body. -/
namespace TableAccess.Sql

/-- The body of a query, with the named queries that are visible around the query and those that are
declared for the body. -/
structure Site where
  around : List TableAccess.Cte
  named : List TableAccess.Cte
  body : Body

mutual

/-- Whether a query declares names, itself or through parentheses. -/
def Query.declares : Query → Bool
  | ⟨_, ctes, body, _, _, _, _, _⟩ => !ctes.isEmpty || body.declares

/-- Whether a body is a query that declares names. -/
def Body.declares : Body → Bool
  | .query query => query.declares
  | _ => false

end

mutual

/-- The plain tables of a source with its joins. -/
def JoinedTable.plainTables : JoinedTable → List TableRef
  | ⟨relation, joins⟩ => relation.plainTables ++ Join.plainTables joins

/-- The plain tables of a source of rows, without those of subqueries. -/
def Relation.plainTables : Relation → List TableRef
  | .table name _ aliasName _ => [⟨Name.last name, aliasName.map (·.name.value)⟩]
  | .nested joined _ => joined.plainTables
  | _ => []

/-- The plain tables that joins add. -/
def Join.plainTables : List Join → List TableRef
  | [] => []
  | ⟨_, relation, _, _, _⟩ :: rest => relation.plainTables ++ Join.plainTables rest

end

/-- The plain tables in a body, without those of subqueries. -/
def Body.plainTables : Body → List TableRef
  | .select selection => selection.tables.flatMap JoinedTable.plainTables
  | .table _ name => [⟨unquoted name, none⟩]
  | _ => []

namespace Site

/-- Whether names are declared around a query in parentheses that declares names as well. -/
def Hides (s : Site) : Prop := s.named ≠ [] ∧ s.body.declares = true

/-- Whether a site has a scope of its own. A query in parentheses has that of the query within. -/
def isOwn (s : Site) : Bool :=
  match s.body with
  | .query _ => false
  | _ => true

end Site

mutual

/-- The sites in a query, where some named queries are visible around it. The body of a named query sees
those before it; the body of the query and the keys of its order see all. -/
def Query.sites (around : List TableAccess.Cte) : Query → List Site
  | ⟨_, ctes, body, _, order, _, _, _⟩ =>
    Cte.sitesOf around ctes ++ ⟨around, Cte.scopes ctes, body⟩ ::
      (body.sitesWithin (around ++ Cte.scopes ctes) ++ Expr.sitesOf (around ++ Cte.scopes ctes) order)
termination_by q => sizeOf q

/-- The sites in the bodies of named queries. -/
def Cte.sitesOf (around : List TableAccess.Cte) : List Cte → List Site
  | [] => []
  | ⟨name, columns, _, query, _⟩ :: rest =>
    query.sites around ++
      Cte.sitesOf (around ++ [⟨name.value, columns.map (·.name.value), query.scope⟩]) rest
termination_by ctes => sizeOf ctes

/-- The sites within a body, besides its own. -/
def Body.sitesWithin (around : List TableAccess.Cte) : Body → List Site
  | .select selection => selection.sites around
  | .query query => query.sites around
  | .operation left _ right =>
    ⟨around, [], left⟩ :: left.sitesWithin around ++ ⟨around, [], right⟩ :: right.sitesWithin around
  | .values _ _ _ cells => Expr.sitesOf around cells
  | _ => []
termination_by b => sizeOf b

/-- The sites in the subqueries of a selection. -/
def Select.sites (around : List TableAccess.Cte) : Select → List Site
  | ⟨_, _, _, distinctOn, _, items, _, tables, _, prewhere, condition, groupsAll, group, _,
      cluster, distribute, sort, having, windows, qualify, _, _⟩ =>
    SelectItem.sitesOf around items ++ JoinedTable.sitesOf around tables
      ++ (Expr.sitesOf around distinctOn ++ Expr.sitesOf? around prewhere
        ++ Expr.sitesOf? around condition)
      ++ ((if groupsAll then [] else Expr.sitesOf around group) ++ Expr.sitesOf? around having
        ++ Expr.sitesOf? around qualify ++ Expr.sitesOf around cluster
        ++ Expr.sitesOf around distribute ++ Expr.sitesOf around sort)
      ++ Expr.sitesOf around windows
termination_by s => sizeOf s

/-- The sites in the items of a select list. -/
def SelectItem.sitesOf (around : List TableAccess.Cte) : List SelectItem → List Site
  | [] => []
  | ⟨value, _⟩ :: rest => value.sites around ++ SelectItem.sitesOf around rest
termination_by items => sizeOf items

/-- The sites in a source with its joins. -/
def JoinedTable.sites (around : List TableAccess.Cte) : JoinedTable → List Site
  | ⟨relation, joins⟩ => relation.sites around ++ Join.sitesOf around joins
termination_by t => sizeOf t

/-- The sites in several sources. -/
def JoinedTable.sitesOf (around : List TableAccess.Cte) : List JoinedTable → List Site
  | [] => []
  | t :: rest => t.sites around ++ JoinedTable.sitesOf around rest
termination_by tables => sizeOf tables

/-- The sites in a source of rows. -/
def Relation.sites (around : List TableAccess.Cte) : Relation → List Site
  | .table _ _ _ _ => []
  | .derived _ query _ => query.sites around
  | .nested joined _ => joined.sites around
  | .unnest arrays _ _ _ => Expr.sitesOf around arrays
  | .tableFunction call _ => call.sites around
  | .other _ _ => []
termination_by r => sizeOf r

/-- The sites in joins. -/
def Join.sitesOf (around : List TableAccess.Cte) : List Join → List Site
  | [] => []
  | ⟨_, relation, matching, _, condition⟩ :: rest =>
    relation.sites around ++ (Expr.sitesOf? around matching ++ Expr.sitesOf? around condition)
      ++ Join.sitesOf around rest
termination_by joins => sizeOf joins

/-- The sites in the queries nested in an expression. -/
def Expr.sites (around : List TableAccess.Cte) (e : Expr) : List Site :=
  e.queries.attach.flatMap fun ⟨query, _⟩ => query.sites around
termination_by sizeOf e
decreasing_by exact Expr.sizeOf_query ‹_›

/-- The sites in several expressions. -/
def Expr.sitesOf (around : List TableAccess.Cte) : List Expr → List Site
  | [] => []
  | e :: rest => e.sites around ++ Expr.sitesOf around rest
termination_by es => sizeOf es

/-- The sites in an expression, where there is one. -/
def Expr.sitesOf? (around : List TableAccess.Cte) : Option Expr → List Site
  | none => []
  | some e => e.sites around
termination_by e => sizeOf e

end

theorem Expr.sites_eq (around : List TableAccess.Cte) (e : Expr) :
    e.sites around = e.queries.flatMap fun query => query.sites around := by
  rw [sites]
  simp

/-! The tables and names of a body's scope. -/

/-- Whether a scope declares no names and reads just the given tables by name. -/
structure ReadsPlain (tables : List TableRef) (s : Scope) : Prop where
  ctes : s.ctes = []
  tables : s.tables = tables

namespace ReadsPlain

theorem nodes {nodes : List Node} : ReadsPlain [] (Scope.ofNodes nodes) := ⟨rfl, rfl⟩

theorem append {tables others : List TableRef} {a b : Scope} (first : ReadsPlain tables a)
    (second : ReadsPlain others b) : ReadsPlain (tables ++ others) (a ++ b) where
  ctes := by
    change a.ctes ++ b.ctes = []
    rw [first.ctes, second.ctes, List.append_nil]
  tables := by
    change a.tables ++ b.tables = tables ++ others
    rw [first.tables, second.tables]

/-- What is only read makes no difference to the tables. -/
theorem append_nodes {tables : List TableRef} {s other : Scope} (first : ReadsPlain tables s)
    (second : ReadsPlain [] other) : ReadsPlain tables (s ++ other) := by
  simpa only [List.append_nil] using first.append second

theorem besideOutputs {tables : List TableRef} {s : Scope} {nodes : List Node}
    (first : ReadsPlain tables s) : ReadsPlain tables (Scope.readBesideOutputs s nodes) :=
  ⟨first.ctes, first.tables⟩

end ReadsPlain

mutual

theorem JoinedTable.readsPlain : ∀ t : JoinedTable, ReadsPlain t.plainTables t.scope
  | ⟨relation, joins⟩ => relation.readsPlain.append (Join.readsPlain _ joins)

theorem Relation.readsPlain : ∀ r : Relation, ReadsPlain r.plainTables r.scope
  | .table _ _ _ _ => ⟨rfl, rfl⟩
  | .derived _ _ _ => ⟨rfl, rfl⟩
  | .nested joined _ => joined.readsPlain
  | .unnest _ _ _ _ => .nodes
  | .tableFunction _ _ => .nodes
  | .other _ _ => ⟨rfl, rfl⟩

theorem Join.readsPlain : ∀ (previous : Option String) (joins : List Join),
    ReadsPlain (Join.plainTables joins) (Join.scopes previous joins)
  | _, [] => ⟨rfl, rfl⟩
  | _, ⟨_, relation, _, _, _⟩ :: rest =>
    (relation.readsPlain.append_nodes .nodes).append (Join.readsPlain _ rest)

end

theorem JoinedTable.readsPlain_scopes : ∀ tables : List JoinedTable,
    ReadsPlain (tables.flatMap JoinedTable.plainTables) (JoinedTable.scopes tables)
  | [] => ⟨rfl, rfl⟩
  | t :: rest => t.readsPlain.append (readsPlain_scopes rest)

theorem SelectItem.readsPlain_scopes : ∀ items : List SelectItem,
    ReadsPlain [] (SelectItem.scopes items)
  | [] => ⟨rfl, rfl⟩
  | ⟨value, aliasName⟩ :: rest =>
    have item : ReadsPlain [] ⟨[], [], [], value.nodes, [SelectItem.output ⟨value, aliasName⟩]⟩ :=
      ⟨rfl, rfl⟩
    item.append (readsPlain_scopes rest)

theorem Select.readsPlain : ∀ s : Select,
    ReadsPlain (s.tables.flatMap JoinedTable.plainTables) s.scope
  | ⟨_, _, _, _, _, items, _, tables, _, _, _, _, _, _, _, _, _, _, _, _, _, _⟩ =>
    have sources := (SelectItem.readsPlain_scopes items).append (JoinedTable.readsPlain_scopes tables)
    (sources.append_nodes .nodes).besideOutputs.append_nodes .nodes

/-- Besides a query in parentheses, a body's scope declares no names and has its plain tables. -/
theorem Body.readsPlain {b : Body} (own : ∀ query, b ≠ .query query) :
    ReadsPlain b.plainTables b.scope := by
  cases b with
  | select selection => exact selection.readsPlain
  | query query => exact absurd rfl (own query)
  | _ => exact ⟨rfl, rfl⟩

theorem Cte.scopes_eq_nil {ctes : List Cte} : Cte.scopes ctes = [] ↔ ctes = [] := by
  cases ctes with
  | nil => exact ⟨fun _ => rfl, fun _ => rfl⟩
  | cons c rest =>
    cases c
    simp [Cte.scopes]

mutual

/-- A query's scope declares names if the query does, itself or through parentheses. -/
theorem Query.ctes_eq_nil : ∀ q : Query, q.scope.ctes = [] ↔ q.declares = false
  | ⟨_, [], body, _, _, _, _, _⟩ => Body.ctes_eq_nil body
  | ⟨_, ⟨_, _, _, _, _⟩ :: _, _, _, _, _, _, _⟩ => by
    simp [Query.scope, Query.declares, Cte.scopes, Scope.readBesideOutputs]

theorem Body.ctes_eq_nil : ∀ b : Body, b.scope.ctes = [] ↔ b.declares = false
  | .query query => Query.ctes_eq_nil query
  | .select selection => ⟨fun _ => rfl, fun _ => selection.readsPlain.ctes⟩
  | .operation _ _ _ => ⟨fun _ => rfl, fun _ => rfl⟩
  | .values _ _ _ _ => ⟨fun _ => rfl, fun _ => rfl⟩
  | .table _ _ => ⟨fun _ => rfl, fun _ => rfl⟩
  | .insertion _ => ⟨fun _ => rfl, fun _ => rfl⟩
  | .update _ => ⟨fun _ => rfl, fun _ => rfl⟩
  | .deletion _ => ⟨fun _ => rfl, fun _ => rfl⟩
  | .merge => ⟨fun _ => rfl, fun _ => rfl⟩

end

end TableAccess.Sql
