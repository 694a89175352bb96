import TableAccess.Proofs.Access.Contents
import TableAccess.Proofs.Binding.Parts

/-! Trees with other names in them. What stands in front of columns, as a qualifier or as the alias
of a table, is written by one function, and every other name and text by another one. The places
of a tree are then respelled one by one. -/
namespace TableAccess

section
variable (name key : String → String)

/-- A table with another name and alias. -/
def TableRef.respell (t : TableRef) : TableRef := ⟨name t.name, t.aliasName.map key⟩

/-- A column with another name and qualifier. -/
def ColumnRef.respell (c : ColumnRef) : ColumnRef := ⟨c.qualifier.map key, name c.name⟩

/-- An output with another name or qualifier. -/
def Output.respell : Output → Output
  | .named n => .named (name n)
  | .wildcard qualifier => .wildcard (qualifier.map key)

mutual

/-- A node with other names in it. -/
def Node.respell : Node → Node
  | .column c => .column (c.respell name key)
  | .call called text arguments => .call (name called) (name text) (Node.respellAll arguments)
  | .subquery body => .subquery body.respell

/-- Several nodes with other names in them. -/
def Node.respellAll : List Node → List Node
  | [] => []
  | n :: rest => n.respell :: Node.respellAll rest

/-- A scope with other names in it. -/
def Scope.respell : Scope → Scope
  | ⟨ctes, tables, derived, nodes, outputs⟩ =>
    ⟨Cte.respellAll ctes, tables.map (TableRef.respell name key), Derived.respellAll derived,
      Node.respellAll nodes, outputs.map (Output.respell name key)⟩

/-- Several named queries with other names in them. -/
def Cte.respellAll : List Cte → List Cte
  | [] => []
  | ⟨aliasName, columns, body⟩ :: rest =>
    ⟨name aliasName, columns.map name, body.respell⟩ :: Cte.respellAll rest

/-- Several subqueries with other names in them. -/
def Derived.respellAll : List Derived → List Derived
  | [] => []
  | ⟨aliasName, columns, body⟩ :: rest =>
    ⟨aliasName.map name, columns.map name, body.respell⟩ :: Derived.respellAll rest

end

/-- An update with other names in it. -/
def Update.respell (u : Update) : Update := ⟨u.targets.map name, u.scope.respell name key⟩

/-- An insertion with other names in it. -/
def Insert.respell (i : Insert) : Insert where
  table := i.table.respell name key
  columns := i.columns.map name
  source := i.source.map (Scope.respell name key)
  onConflict := i.onConflict.map (Update.respell name key)

/-- A statement with other names in it. -/
def Statement.respell : Statement → Statement
  | .select scope => .select (scope.respell name key)
  | .insert i => .insert (i.respell name key)
  | .update u => .update (u.respell name key)
  | .delete scope => .delete (scope.respell name key)
  | .unknown => .unknown

/-- The same place with other names in it. -/
def Place.respell : Place → Place
  | .column c => .column (c.respell name key)
  | .argument call c => .argument (name call) (c.respell name key)
  | .subquery body => .subquery (body.respell name key)

mutual

private theorem Node.places_respell :
    ∀ n : Node, (n.respell name key).places = n.places.map (Place.respell name key)
  | .column _ => rfl
  | .call _ text arguments => by
    rw [Node.respell, Node.places, Node.places, Node.argumentPlaces_respell text arguments]
  | .subquery _ => rfl

private theorem Node.argumentPlaces_respell (call : String) : ∀ arguments : List Node,
    Node.argumentPlaces (name call) (Node.respellAll name key arguments) =
      (Node.argumentPlaces call arguments).map (Place.respell name key)
  | [] => rfl
  | n :: rest => by
    have first := Node.places_respell n
    have others := Node.argumentPlaces_respell call rest
    cases n <;> simp only [Node.respellAll, Node.respell, Node.argumentPlaces, List.map_append,
      others] at first ⊢
    · rfl
    · rw [first]
    · rfl

end

theorem Node.placesOf_respell (nodes : List Node) :
    Node.placesOf (Node.respellAll name key nodes) =
      (Node.placesOf nodes).map (Place.respell name key) := by
  induction nodes with
  | nil => rfl
  | cons n rest ih =>
    rw [Node.respellAll, Node.placesOf, Node.placesOf, List.map_append, ih, Node.places_respell]

theorem Cte.respellAll_eq_map (declared : List Cte) : Cte.respellAll name key declared =
    declared.map fun c => ⟨name c.aliasName, c.columns.map name, c.body.respell name key⟩ := by
  induction declared with
  | nil => rfl
  | cons c rest ih =>
    cases c
    rw [Cte.respellAll, List.map_cons, ih]

theorem Derived.respellAll_eq_map (declared : List Derived) : Derived.respellAll name key declared =
    declared.map fun d => ⟨d.aliasName.map name, d.columns.map name, d.body.respell name key⟩ := by
  induction declared with
  | nil => rfl
  | cons d rest ih =>
    cases d
    rw [Derived.respellAll, List.map_cons, ih]

end

namespace Scope

/-- What stands in front of columns in a scope, or may stand there by an alias that a table is
given for this. -/
def ownQualifiers (s : Scope) : List String :=
  s.tables.filterMap TableRef.aliasName ++ s.columns.filterMap ColumnRef.qualifier
    ++ s.outputs.filterMap fun o => match o with
      | .named _ => none
      | .wildcard qualifier => qualifier

/-- The names of sources that are no such aliases: those of tables without an alias, and of
subqueries. -/
def ownNames (s : Scope) : List String :=
  (s.tables.filter fun t => t.aliasName.isNone).map TableRef.name
    ++ s.derived.filterMap Derived.aliasName

end Scope

namespace Statement

/-- A statement and all scopes in it. -/
def parts (s : Statement) : List Scope := s.scopes.flatMap Scope.parts

/-- What stands in front of columns in a statement, or may stand there by an alias of a table. -/
def qualifiers (s : Statement) : List String := s.parts.flatMap Scope.ownQualifiers

/-- The names of sources in a statement that are no aliases of tables. -/
def sourceNames (s : Statement) : List String := s.parts.flatMap Scope.ownNames

end Statement
end TableAccess
