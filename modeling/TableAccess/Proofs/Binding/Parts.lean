import TableAccess.Proofs.Binding.Places

/-! The scopes that a scope is made of: itself, the bodies of its named queries and of its sources,
the subqueries in its expressions, and what these are made of in turn. A scope is replaced within
another one when nothing else changes there, however deep it lies. -/
namespace TableAccess

mutual

/-- The scopes at a node. -/
def Node.parts : Node → List Scope
  | .column _ => []
  | .call _ _ arguments => Node.partsOf arguments
  | .subquery body => body.parts

/-- The scopes at several nodes. -/
def Node.partsOf : List Node → List Scope
  | [] => []
  | n :: rest => n.parts ++ Node.partsOf rest

/-- A scope and all scopes in it. -/
def Scope.parts : Scope → List Scope
  | ⟨ctes, tables, derived, nodes, outputs⟩ =>
    ⟨ctes, tables, derived, nodes, outputs⟩ ::
      (Cte.partsOf ctes ++ Derived.partsOf derived ++ Node.partsOf nodes)

/-- The scopes in several named queries. -/
def Cte.partsOf : List Cte → List Scope
  | [] => []
  | ⟨_, _, body⟩ :: rest => body.parts ++ Cte.partsOf rest

/-- The scopes in several subqueries among the sources. -/
def Derived.partsOf : List Derived → List Scope
  | [] => []
  | ⟨_, _, body⟩ :: rest => body.parts ++ Derived.partsOf rest

end

/-- The scopes at a place. -/
def Place.parts : Place → List Scope
  | .subquery body => body.parts
  | _ => []

private theorem argumentPlaces_parts (call : String) (arguments : List Node) :
    (Node.argumentPlaces call arguments).flatMap Place.parts =
      (Node.placesOf arguments).flatMap Place.parts := by
  induction arguments with
  | nil => rfl
  | cons n rest ih =>
    cases n <;> simp only [Node.argumentPlaces, Node.placesOf, List.flatMap_append, ih]
    rfl

mutual

private theorem Node.parts_eq_places : ∀ n : Node, n.parts = n.places.flatMap Place.parts
  | .column _ => rfl
  | .call _ _ arguments => by
    rw [Node.parts, Node.places, argumentPlaces_parts, Node.partsOf_eq_places arguments]
  | .subquery _ => (List.append_nil _).symm

/-- Calls around a subquery make no difference to the scopes in it. -/
theorem Node.partsOf_eq_places :
    ∀ nodes : List Node, Node.partsOf nodes = (Node.placesOf nodes).flatMap Place.parts
  | [] => rfl
  | n :: rest => by
    rw [Node.partsOf, Node.placesOf, List.flatMap_append, Node.parts_eq_places n,
      Node.partsOf_eq_places rest]

end

namespace Scope

/-- The scopes in the bodies that a scope declares and in the subqueries of its expressions. -/
def inner (s : Scope) : List Scope :=
  (s.ctes.flatMap fun c => c.body.parts) ++ (s.derived.flatMap fun d => d.body.parts)
    ++ (Node.placesOf s.nodes).flatMap Place.parts

theorem parts_eq (s : Scope) : s.parts = s :: s.inner := by
  obtain ⟨ctes, tables, derived, nodes, outputs⟩ := s
  have named : Cte.partsOf ctes = ctes.flatMap fun c => c.body.parts := by
    induction ctes with
    | nil => rfl
    | cons c rest ih =>
      cases c
      rw [Cte.partsOf, List.flatMap_cons, ih]
  have sources : Derived.partsOf derived = derived.flatMap fun d => d.body.parts := by
    induction derived with
    | nil => rfl
    | cons d rest ih =>
      cases d
      rw [Derived.partsOf, List.flatMap_cons, ih]
  rw [parts, named, sources, Node.partsOf_eq_places]
  rfl

theorem mem_parts {s part : Scope} : part ∈ s.parts ↔ part = s ∨
    (∃ cte ∈ s.ctes, part ∈ cte.body.parts) ∨ (∃ source ∈ s.derived, part ∈ source.body.parts) ∨
    ∃ body, .subquery body ∈ Node.placesOf s.nodes ∧ part ∈ body.parts := by
  have places : part ∈ (Node.placesOf s.nodes).flatMap Place.parts ↔
      ∃ body, .subquery body ∈ Node.placesOf s.nodes ∧ part ∈ body.parts := by
    rw [List.mem_flatMap]
    constructor
    · rintro ⟨p, place, held⟩
      cases p with
      | subquery body => exact ⟨body, place, held⟩
      | _ => cases held
    · rintro ⟨body, place, held⟩
      exact ⟨_, place, held⟩
  rw [parts_eq, List.mem_cons, inner, List.mem_append, List.mem_append, places, or_assoc,
    List.mem_flatMap, List.mem_flatMap]

/-- The names under which a scope reads or declares tables. -/
def ownTables (s : Scope) : List String :=
  s.tables.map TableRef.name ++ s.ctes.map Cte.aliasName ++ s.derived.filterMap Derived.aliasName

/-- The names under which a scope and all scopes in it read or declare tables. -/
def tableNames (s : Scope) : List String := s.parts.flatMap ownTables

end Scope

/-- Whether nodes are the same but for one subquery. -/
inductive Node.Replaced (body body' : Scope) : List Node → List Node → Prop
  | subquery {before after : List Node} :
    Replaced body body' (before ++ .subquery body :: after) (before ++ .subquery body' :: after)
  | call {before after arguments arguments' : List Node} {name text : String}
    (inside : Replaced body body' arguments arguments') :
    Replaced body body' (before ++ .call name text arguments :: after)
      (before ++ .call name text arguments' :: after)

/-- Whether a scope is another one with `b` in the place of one `a`. -/
inductive Scope.Replaced (a b : Scope) : Scope → Scope → Prop
  | whole : Replaced a b a b
  | cte {s body body' : Scope} {before after : List Cte} {name : String} {columns : List String}
    (inside : Replaced a b body body') :
    Replaced a b { s with ctes := before ++ ⟨name, columns, body⟩ :: after }
      { s with ctes := before ++ ⟨name, columns, body'⟩ :: after }
  | derived {s body body' : Scope} {before after : List Derived} {name : Option String}
    {columns : List String} (inside : Replaced a b body body') :
    Replaced a b { s with derived := before ++ ⟨name, columns, body⟩ :: after }
      { s with derived := before ++ ⟨name, columns, body'⟩ :: after }
  | subquery {s body body' : Scope} {nodes nodes' : List Node} (inside : Replaced a b body body')
    (mentioned : Node.Replaced body body' nodes nodes') :
    Replaced a b { s with nodes } { s with nodes := nodes' }

/-- Whether an update is another one with `b` in the place of one `a`, and changes the same
table. -/
structure Update.Replaced (a b : Scope) (u u' : Update) : Prop where
  targets : u.targets = u'.targets
  scope : a.Replaced b u.scope u'.scope
  table : u.table? = u'.table?

/-- Whether a statement is another one with `b` in the place of one `a`. -/
inductive Statement.Replaced (a b : Scope) : Statement → Statement → Prop
  | select {s s' : Scope} (inside : a.Replaced b s s') : Replaced a b (.select s) (.select s')
  | delete {s s' : Scope} (inside : a.Replaced b s s') : Replaced a b (.delete s) (.delete s')
  | update {u u' : Update} (inside : u.Replaced a b u') : Replaced a b (.update u) (.update u')
  | source {i : Insert} {s s' : Scope} (inside : a.Replaced b s s') :
    Replaced a b (.insert { i with source := some s }) (.insert { i with source := some s' })
  | onConflict {i : Insert} {u u' : Update} (inside : u.Replaced a b u') :
    Replaced a b (.insert { i with onConflict := some u })
      (.insert { i with onConflict := some u' })

section
variable {body body' : Scope} {nodes nodes' : List Node}

theorem Node.placesOf_append (first second : List Node) :
    Node.placesOf (first ++ second) = Node.placesOf first ++ Node.placesOf second := by
  induction first with
  | nil => rfl
  | cons n rest ih => rw [List.cons_append, placesOf, ih, placesOf, List.append_assoc]

private theorem Node.argumentPlaces_append (call : String) (first second : List Node) :
    Node.argumentPlaces call (first ++ second) =
      Node.argumentPlaces call first ++ Node.argumentPlaces call second := by
  induction first with
  | nil => rfl
  | cons n rest ih =>
    cases n <;> simp only [List.cons_append, argumentPlaces, ih, List.append_assoc]

private theorem Node.Replaced.argumentPlaces (replaced : Node.Replaced body body' nodes nodes') :
    ∀ call, ∃ before after,
      Node.argumentPlaces call nodes = before ++ .subquery body :: after ∧
        Node.argumentPlaces call nodes' = before ++ .subquery body' :: after := by
  induction replaced with
  | @subquery before after =>
    intro call
    exact ⟨_, _, Node.argumentPlaces_append call before _, Node.argumentPlaces_append call before _⟩
  | @call before after arguments arguments' name text _ ih =>
    intro outer
    obtain ⟨first, rest, split, split'⟩ := ih text
    refine ⟨Node.argumentPlaces outer before ++ first, rest ++ Node.argumentPlaces outer after, ?_, ?_⟩
    · simp [Node.argumentPlaces_append, Node.argumentPlaces, Node.places, split]
    · simp [Node.argumentPlaces_append, Node.argumentPlaces, Node.places, split']

/-- Where one subquery is replaced, so is one place. -/
theorem Node.Replaced.placesOf (replaced : Node.Replaced body body' nodes nodes') :
    ∃ before after, Node.placesOf nodes = before ++ .subquery body :: after ∧
      Node.placesOf nodes' = before ++ .subquery body' :: after := by
  cases replaced with
  | @subquery before after =>
    exact ⟨_, _, Node.placesOf_append before _, Node.placesOf_append before _⟩
  | @call before after arguments arguments' name text inside =>
    obtain ⟨first, rest, split, split'⟩ := inside.argumentPlaces text
    refine ⟨Node.placesOf before ++ first, rest ++ Node.placesOf after, ?_, ?_⟩
    · rw [Node.placesOf_append, Node.placesOf, Node.places, split]
      simp
    · rw [Node.placesOf_append, Node.placesOf, Node.places, split']
      simp

end
end TableAccess
