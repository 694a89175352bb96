import TableAccess.Proofs.Binding.Outputs
import TableAccess.Proofs.Sql.ReadClauses

/-! What a selection gives to the scopes around it. Of its FROM clause the scope of a selection keeps tables and
subqueries; joins and parentheses only bring several of them together. Its own select list is what the
selection gives, unless it reads nothing but subqueries without a name: such sources are kept like the sides of
a set operation, so the first of them is taken for what the selection gives. Beside sources with names they are
passed over by a plain wildcard. -/
namespace TableAccess.Sql

/-- Whether the columns of a source can be qualified. -/
def Relation.isNamed : Relation → Bool
  | .table _ _ _ _ => true
  | .derived _ _ aliasName => aliasName.isSome
  | _ => false

/-- The subquery that a source is, if it has no name. -/
def Relation.unnamedQuery? : Relation → Option Query
  | .derived _ query none => some query
  | _ => none

mutual

/-- The sources that are joined in a source with its joins. -/
def JoinedTable.sources : JoinedTable → List Relation
  | ⟨relation, joins⟩ => relation.sources ++ Join.sources joins

/-- The sources that a source stands for: parentheses hold those inside. -/
def Relation.sources : Relation → List Relation
  | .nested joined _ => joined.sources
  | relation => [relation]

/-- The sources that are joined. -/
def Join.sources : List Join → List Relation
  | [] => []
  | ⟨_, relation, _, _, _⟩ :: rest => relation.sources ++ Join.sources rest

end

namespace Select

/-- The sources of a selection. -/
def sources (s : Select) : List Relation := s.tables.flatMap JoinedTable.sources

/-- Whether some source of a selection has a name. -/
def hasNamedSource (s : Select) : Bool := s.sources.any Relation.isNamed

/-- The subqueries without a name among the sources of a selection. -/
def unnamedQueries (s : Select) : List Query := s.sources.filterMap Relation.unnamedQuery?

end Select

/-- Whether a scope reads certain sources of rows. -/
structure Relation.ReadIn (sources : List Relation) (scope : Scope) : Prop where
  named : (scope.tables = [] ∧ scope.derived.filterMap Derived.aliasName = []) ↔
    sources.any Relation.isNamed = false
  unnamed : (scope.derived.filter fun d => d.aliasName.isNone).map Derived.body =
    (sources.filterMap Relation.unnamedQuery?).map Query.scope

namespace Relation.ReadIn
variable {sources others : List Relation} {scope beside : Scope}

theorem append (first : ReadIn sources scope) (second : ReadIn others beside) :
    ReadIn (sources ++ others) (scope ++ beside) where
  named := by
    change (scope.tables ++ beside.tables = [] ∧
      (scope.derived ++ beside.derived).filterMap Derived.aliasName = []) ↔ _
    rw [List.any_append, Bool.or_eq_false_iff, ← first.named, ← second.named, List.filterMap_append,
      List.append_eq_nil_iff, List.append_eq_nil_iff]
    exact and_and_and_comm
  unnamed := by
    change ((scope.derived ++ beside.derived).filter _).map _ = _
    rw [List.filter_append, List.map_append, first.unnamed, second.unnamed, List.filterMap_append,
      List.map_append]

/-- Only tables and subqueries are sources. -/
theorem of_same {other : Scope} (read : ReadIn sources scope) (tables : other.tables = scope.tables)
    (derived : other.derived = scope.derived) : ReadIn sources other := by
  constructor
  · rw [tables, derived]
    exact read.named
  · rw [derived]
    exact read.unnamed

theorem nothing (tables : scope.tables = []) (derived : scope.derived = []) : ReadIn [] scope :=
  ⟨by simp [tables, derived], by simp [derived]⟩

/-- A source that is neither a table nor a subquery. -/
theorem other {relation : Relation} (named : relation.isNamed = false)
    (query : relation.unnamedQuery? = none) (tables : scope.tables = []) (derived : scope.derived = []) :
    ReadIn [relation] scope :=
  ⟨by simp [tables, derived, named], by simp [derived, query]⟩

theorem append_ofNodes (read : ReadIn sources scope) (nodes : List Node) :
    ReadIn sources (scope ++ Scope.ofNodes nodes) :=
  read.of_same (List.append_nil _) (List.append_nil _)

end Relation.ReadIn

open Relation.ReadIn

mutual

theorem JoinedTable.sources_readIn : ∀ t : JoinedTable, Relation.ReadIn t.sources t.scope
  | ⟨relation, joins⟩ => (Relation.sources_readIn relation).append (Join.sources_readIn _ joins)

theorem Relation.sources_readIn : ∀ relation : Relation, Relation.ReadIn relation.sources relation.scope
  | .table _ _ _ _ => ⟨by simp [Relation.sources, Relation.isNamed, Relation.scope, Scope.ofTable], rfl⟩
  | .derived _ _ aliasName => by
    cases aliasName <;>
      exact ⟨by simp [Relation.sources, Relation.isNamed, Relation.scope, Scope.empty], rfl⟩
  | .nested joined _ => JoinedTable.sources_readIn joined
  | .unnest _ _ _ _ => other rfl rfl rfl rfl
  | .tableFunction _ _ => other rfl rfl rfl rfl
  | .other _ _ => other rfl rfl rfl rfl

theorem Join.sources_readIn : ∀ (previous : Option String) (joins : List Join),
    Relation.ReadIn (Join.sources joins) (Join.scopes previous joins)
  | _, [] => nothing rfl rfl
  | _, ⟨_, relation, _, _, _⟩ :: rest =>
    ((Relation.sources_readIn relation).append_ofNodes _).append (Join.sources_readIn _ rest)

end

theorem JoinedTable.sources_readIn_scopes (tables : List JoinedTable) :
    Relation.ReadIn (tables.flatMap JoinedTable.sources) (JoinedTable.scopes tables) := by
  induction tables with
  | nil => exact nothing rfl rfl
  | cons t rest ih => exact t.sources_readIn.append ih

theorem SelectItem.readIn_scopes : ∀ items : List SelectItem, Relation.ReadIn [] (SelectItem.scopes items)
  | [] => nothing rfl rfl
  | ⟨_, _⟩ :: rest => (readIn_scopes rest).of_same rfl rfl

/-- The scope of a selection reads its sources. -/
theorem Select.sources_readIn (s : Select) : Relation.ReadIn s.sources s.scope := by
  obtain ⟨_, _, _, distinctOn, _, items, _, tables, _, prewhere, condition, _, _, _, _, _, _, _, windows, _, _,
    _⟩ := s
  have sources := (SelectItem.readIn_scopes items).append (JoinedTable.sources_readIn_scopes tables)
  have read := sources.append_ofNodes
    (Expr.nodesOf distinctOn ++ Expr.nodesOf? prewhere ++ Expr.nodesOf? condition)
  exact (read.append_ofNodes (Expr.nodesOf windows)).of_same rfl rfl

/-! The select list. -/

/-- More columns behind a wildcard are given once for each wildcard. -/
theorem length_flatMap_columns (outputs : List Output) (all more : List String)
    (ofSource : String → List String) :
    (outputs.flatMap (Output.columns (all ++ more) ofSource)).length =
      (outputs.flatMap (Output.columns all ofSource)).length + outputs.count (.wildcard none) * more.length := by
  induction outputs with
  | nil => simp
  | cons o rest ih =>
    rw [List.flatMap_cons, List.flatMap_cons, List.length_append, List.length_append, ih]
    match o with
    | .named _ => simp [Output.columns, Nat.add_assoc]
    | .wildcard (some _) => simp [Output.columns, Nat.add_assoc]
    | .wildcard none =>
      simp only [Output.columns, List.count_cons_self, Nat.succ_mul, List.length_append]
      omega

theorem flatMap_columns_eq_iff {outputs : List Output} {all more : List String}
    {ofSource : String → List String} :
    outputs.flatMap (Output.columns all ofSource) = outputs.flatMap (Output.columns (all ++ more) ofSource) ↔
      more = [] ∨ .wildcard none ∉ outputs := by
  constructor
  · intro same
    have longer := length_flatMap_columns outputs all more ofSource
    rw [← same, Nat.left_eq_add, Nat.mul_eq_zero] at longer
    exact longer.symm.imp List.length_eq_zero_iff.mp List.count_eq_zero.mp
  · rintro (rfl | unlisted)
    · rw [List.append_nil]
    · refine List.flatMap_congr fun o listed => ?_
      match o with
      | .named _ => rfl
      | .wildcard none => exact absurd listed unlisted
      | .wildcard (some _) => rfl

mutual

theorem Query.sources_readIn {s : Select} : ∀ q : Query, q.selection? = some s →
    Relation.ReadIn s.sources q.scope
  | ⟨_, _, body, _, _, _, _, _⟩, select => by
    refine (Body.sources_readIn body select).of_same ?_ ?_ <;> rw [Query.scope, Scope.readBesideOutputs] <;>
      split <;> rfl

/-- Nothing around a selection adds sources to it. -/
theorem Body.sources_readIn {s : Select} : ∀ b : Body, b.selection? = some s →
    Relation.ReadIn s.sources b.scope
  | .select _, select => by cases select; exact s.sources_readIn
  | .query q, select => Query.sources_readIn q select

end

section
variable {r : Resolver} {ctes : LocalTables} {outer : Frames} {depth : Nat} {b : Body} {s : Select}

theorem Body.unnamedColumns_scope (select : b.selection? = some s) :
    b.scope.unnamedColumns r ctes outer depth = s.unnamedQueries.map fun q =>
      (r.readBody "derived table" none (b.scope.visible r ctes outer depth) outer depth q.scope).outputs := by
  have bodies := congrArg (List.map fun inner : Scope =>
    (r.readBody "derived table" none (b.scope.visible r ctes outer depth) outer depth inner).outputs)
    (b.sources_readIn select).unnamed
  rwa [List.map_map, List.map_map] at bodies

/-- **A selection gives its own select list exactly if it reads no subquery without a name; or if it has a source
with a name beside them, and no plain wildcard stands for columns of theirs; or if the first of them happens to
give the same.** The body may be a selection, or a query around one, as those of named queries are. -/
theorem Body.gives_own_list_iff (select : b.selection? = some s) :
    let frames := b.scope.frame r ctes outer depth :: outer
    let unnamed := s.unnamedQueries.map fun q =>
      (r.readBody "derived table" none (b.scope.visible r ctes outer depth) outer depth q.scope).outputs
    let listed := fun covered => (s.items.map SelectItem.output).flatMap
      (Output.columns covered (r.sourceColumns frames))
    let own := listed (r.namedColumns frames ++ unnamed.flatten)
    let given := (b.scope.read r ctes outer depth).outputs
    given = (if s.hasNamedSource then listed (r.namedColumns frames) else unnamed.headD own) ∧
      (given = own ↔ unnamed = [] ∨
        if s.hasNamedSource then unnamed.flatten = [] ∨ .wildcard none ∉ s.items.map SelectItem.output
        else unnamed.head? = some own) := by
  intro frames unnamed listed own given
  have named := (b.sources_readIn select).named
  have read : given = if s.hasNamedSource then listed (r.namedColumns frames) else
      unnamed.headD (listed (r.namedColumns frames)) := by
    refine b.scope.outputs_read.trans ?_
    rw [Body.unnamedColumns_scope select, Body.outputs_scope, Body.outputs_selection b select]
    cases has : s.hasNamedSource with
    | true => exact if_neg fun none_ => Bool.false_ne_true ((named.mp none_).symm.trans has)
    | false => exact if_pos (named.mpr has)
  cases has : s.hasNamedSource with
  | true =>
    rw [has, if_pos rfl] at read
    rw [read, if_pos rfl, if_pos rfl, flatMap_columns_eq_iff]
    refine ⟨rfl, Or.inr, ?_⟩
    rintro (none_ | same)
    · exact .inl (by rw [none_]; rfl)
    · exact same
  | false =>
    rw [has, if_neg Bool.false_ne_true] at read
    rw [read, if_neg Bool.false_ne_true, if_neg Bool.false_ne_true]
    cases sources : unnamed with
    | nil => simp [own, sources]
    | cons first rest => simp

end

/-- A renamed column beside a subquery without a name. -/
theorem Body.gives_own_list_iff_renamed :
    ∃ q selection, Query.ofText? .postgresql
        "SELECT u.id AS user_id, 1 AS one FROM users u, (SELECT name FROM orders)" = some q ∧
      q.body.selection? = some selection ∧
      (q.body.scope.read ⟨.ofTables [⟨"users", ["id"]⟩], 32⟩ [] [] 0).outputs = ["user_id", "one"] := by
  have facts : (Query.ofText? .postgresql
      "SELECT u.id AS user_id, 1 AS one FROM users u, (SELECT name FROM orders)").map (fun q =>
        q.body.selection?.map fun s => (s.hasNamedSource, s.items.map SelectItem.output)) =
      some (some (true, [.named "user_id", .named "one"])) := by decide +kernel
  obtain ⟨q, read, same⟩ := Option.map_eq_some_iff.mp facts
  obtain ⟨selection, select, same⟩ := Option.map_eq_some_iff.mp same
  obtain ⟨named, outputs⟩ := Prod.mk.inj same
  refine ⟨q, selection, read, select, ?_⟩
  rw [(Body.gives_own_list_iff select).1, named, outputs]
  rfl

/-- A renamed column of a subquery without a name is given under its old name. -/
theorem renaming_lost :
    let r : Resolver := ⟨.ofTables [⟨"users", ["id"]⟩], 32⟩
    let given := fun text => (readStatement .postgresql text).toOption.map fun s => (s.read r).outputs
    given "SELECT * FROM (SELECT id AS new_id FROM (SELECT id FROM users) u) x" = some ["new_id"] ∧
      given "SELECT * FROM (SELECT id AS new_id FROM (SELECT id FROM users)) x" = some ["id"] := by
  decide +kernel

end TableAccess.Sql
