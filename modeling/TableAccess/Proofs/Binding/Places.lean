import TableAccess.Proofs.Binding.Aliases

/-! The places of a scope's expressions where something is read, without the calls around
them. Calls only nest; what is read inside is read in order, and of a call no more is
kept at a place than its written form. A scope is made of such places and of the scopes
that it declares, and properties of scopes are proved along that structure. -/
namespace TableAccess

/-- A place of an expression where something is read: a column, a column directly among
the arguments of a call, with the written call, or a subquery. -/
inductive Place where
  | column (column : ColumnRef)
  | argument (call : String) (column : ColumnRef)
  | subquery (body : Scope)

/-- The column that is mentioned at a place. -/
def Place.column? : Place → Option ColumnRef
  | .column c => some c
  | .argument _ c => some c
  | .subquery _ => none

mutual

/-- The places of a node, in the order in which they are read. -/
def Node.places : Node → List Place
  | .column c => [.column c]
  | .call _ text arguments => Node.argumentPlaces text arguments
  | .subquery body => [.subquery body]

/-- The places of several nodes. -/
def Node.placesOf : List Node → List Place
  | [] => []
  | n :: rest => n.places ++ Node.placesOf rest

/-- The places of the arguments of a call. -/
def Node.argumentPlaces (call : String) : List Node → List Place
  | [] => []
  | n :: rest =>
    (match n with
      | .column c => [.argument call c]
      | n => n.places)
      ++ Node.argumentPlaces call rest

end

/-- A call makes no difference to the subqueries among its arguments. -/
theorem Node.subquery_mem_argumentPlaces_iff {call : String} {arguments : List Node}
    {body : Scope} : .subquery body ∈ Node.argumentPlaces call arguments ↔
      .subquery body ∈ Node.placesOf arguments := by
  induction arguments with
  | nil => rfl
  | cons n rest ih =>
    cases n <;> simp [Node.argumentPlaces, Node.placesOf, Node.places, ih]

/-- What holds of a scope whenever it holds of the bodies that it declares and of the
subqueries in its expressions holds of every scope. -/
theorem Scope.tree_induction {P : Scope → Prop}
    (step : ∀ s : Scope, (∀ c ∈ s.ctes, P c.body) → (∀ d ∈ s.derived, P d.body) →
      (∀ body, .subquery body ∈ Node.placesOf s.nodes → P body) → P s) (s : Scope) : P s := by
  refine @Scope.rec (fun n => ∀ body, .subquery body ∈ n.places → P body) P
    (fun c => P c.body) (fun d => P d.body)
    (fun nodes => ∀ body, .subquery body ∈ Node.placesOf nodes → P body)
    (fun ctes => ∀ c ∈ ctes, P c.body) (fun derived => ∀ d ∈ derived, P d.body)
    ?column ?call ?subquery ?scope ?cte ?source ?noNodes ?nodes ?noCtes ?ctes ?noSources ?sources s
  case column =>
    intro c body member
    simp [Node.places] at member
  case call =>
    intro name text arguments inside body member
    exact inside body (Node.subquery_mem_argumentPlaces_iff.mp (by rwa [Node.places] at member))
  case subquery =>
    intro inner holds body member
    rw [Node.places, List.mem_singleton, Place.subquery.injEq] at member
    exact member ▸ holds
  case scope =>
    exact fun ctes tables derived nodes outputs named sources inside =>
      step ⟨ctes, tables, derived, nodes, outputs⟩ named sources inside
  case cte => exact fun _ _ _ holds => holds
  case source => exact fun _ _ _ holds => holds
  case noNodes => intro body member; cases member
  case nodes =>
    intro n rest first others body member
    rw [Node.placesOf, List.mem_append] at member
    exact member.elim (first body) (others body)
  case noCtes => intro c member; cases member
  case ctes => exact fun _ _ first others => List.forall_mem_cons.mpr ⟨first, others⟩
  case noSources => intro d member; cases member
  case sources => exact fun _ _ first others => List.forall_mem_cons.mpr ⟨first, others⟩

private theorem argumentPlaces_columns {call : String} {arguments : List Node} :
    (Node.argumentPlaces call arguments).filterMap Place.column? =
      (Node.placesOf arguments).filterMap Place.column? := by
  induction arguments with
  | nil => rfl
  | cons n rest ih =>
    cases n <;> simp only [Node.argumentPlaces, Node.placesOf, List.filterMap_append, ih]
    rfl

mutual

private theorem Node.columns_eq_places :
    ∀ n : Node, n.columns = n.places.filterMap Place.column?
  | .column _ => rfl
  | .call _ _ arguments => by
    rw [Node.columns, Node.places, argumentPlaces_columns, Node.columnsOf_eq_places]
  | .subquery _ => rfl

/-- The columns that nodes mention are those of their places, in the same order. -/
theorem Node.columnsOf_eq_places :
    ∀ nodes : List Node, Node.columnsOf nodes = (Node.placesOf nodes).filterMap Place.column?
  | [] => rfl
  | n :: rest => by
    rw [Node.columnsOf, Node.placesOf, List.filterMap_append, Node.columns_eq_places n,
      Node.columnsOf_eq_places rest]

end

end TableAccess
