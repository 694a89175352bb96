import TableAccess.Proofs.Binding.Outputs
import TableAccess.Proofs.Collection
import TableAccess.Proofs.Sql.ReadClauses

/-! Set operations that are sorted by what they give. The scope of a set operation reads no source with a name,
so a bare name that is read there belongs to no table. Among its keys only those are left out that the select
list of the leftmost side spells out; a name that a wildcard of that side covers is noted and recorded as
unknown, although it is a column of the result. -/
namespace TableAccess

namespace Resolver
variable {r : Resolver} {frames : Frames} {names : List String}

/-- What is read of bare names where there is no table. -/
def readStray (names : List String) : Reading where
  tables := []
  columns := names.map (unknownBucket, ·)
  notes := names.filterMap fun name => (Attribution.unknown .noTables).note ⟨none, name⟩
  outputs := []

theorem append_readStray_nil (reading : Reading) :
    { reading ++ readStray [] with outputs := reading.outputs } = reading := by
  change Reading.mk (reading.tables ++ []) (reading.columns ++ []) (reading.notes ++ []) _ = _
  simp only [List.append_nil]

theorem mention_stray (tables : frames.aliases.tables = []) (name : String) :
    r.mention frames ⟨none, name⟩ = readStray [name] := by
  have belongs : r.catalog.attributionOf frames ⟨none, name⟩ = .unknown .noTables := by
    simp only [Catalog.attributionOf, tables]
  rw [mention, belongs]
  rfl

theorem readAll_stray {ctes : LocalTables} {depth : Nat} (tables : frames.aliases.tables = []) :
    Place.readAll r frames ctes depth (names.map fun name => .column ⟨none, name⟩) = readStray names := by
  induction names with
  | nil => rfl
  | cons name rest ih =>
    rw [List.map_cons, Place.readAll, ih, Place.read, mention_stray tables]
    rfl

end Resolver

namespace Scope
variable {r : Resolver} {ctes : LocalTables} {outer : Frames} {depth : Nat} {s : Scope}

/-- Bare names that a combination reads belong to no table. -/
theorem read_combination_names (combination : s.isCombination = true) (names : List String) :
    ({ s with nodes := s.nodes ++ names.map fun name => .column ⟨none, name⟩ } : Scope).read
        r ctes outer depth =
      { s.read r ctes outer depth ++ Resolver.readStray names with
        outputs := (s.read r ctes outer depth).outputs } := by
  have combined : (s.sources r ctes outer depth).aliases.entries = [] ∧
      ∃ columns, (s.sources r ctes outer depth).branch = some columns :=
    sources_of_isCombination combination
  obtain ⟨entries, columns, branch⟩ := combined
  have places : Node.placesOf (names.map fun name => .column ⟨none, name⟩) =
      names.map fun name => .column ⟨none, name⟩ := by
    induction names with
    | nil => rfl
    | cons name rest ih => exact congrArg (List.cons _) ih
  have tables : (Frames.aliases (s.frame r ctes outer depth :: outer)).tables = [] := by
    change AliasMap.distinctNames [] ((s.sources r ctes outer depth).aliases.entries.map _) = []
    rw [entries]
    rfl
  rw [read_eq_finish, read_eq_finish, Node.placesOf_append, places, Place.readAll_append]
  change Sources.finish (s.sources r ctes outer depth)
    (Place.readAll r (s.frame r ctes outer depth :: outer) _ depth (Node.placesOf s.nodes) ++
      Place.readAll r (s.frame r ctes outer depth :: outer) _ depth _) _ = _
  rw [Resolver.readAll_stray tables]
  simp only [Sources.finish, branch, entries]
  rw [← Reading.append_assoc]
  rfl

end Scope

/-- Whether a resolution leaves none of some names unknown: no note says that a column of such a name is, and
none of them is recorded under no table. -/
structure Resolution.Knows (resolution : Resolution) (names : List String) : Prop where
  unnoted : ∀ n ∈ resolution.notes, n.finding = .unknownColumn → ∀ name ∈ names, n.subject ≠ some name
  unrecorded : ∀ name ∈ names, name ∉ resolution.access.columnsOf unknownBucket

/-- A stray name is recorded and noted. -/
theorem Resolver.not_mem_of_knows {r : Resolver} {s : Statement} {id : Option StatementId}
    {reading : Reading} {names stray : List String} (knows : (r.resolve s id).Knows names)
    (read : s.read r = { reading ++ readStray stray with outputs := reading.outputs }) :
    ∀ name ∈ names, name ∉ stray := by
  intro name asked member
  have recorded : (unknownBucket, name) ∈ (s.read r).columns := by
    rw [read]
    exact List.mem_append_right _ (List.mem_map_of_mem member)
  exact knows.unrecorded name asked (mem_columnsOf_resolve.mpr recorded)

namespace Sql

/-- The bare name that a query is sorted by, in whatever direction. -/
def Expr.sortName? : Expr → Option String
  | .sorted (.name i) _ _ => some i.value
  | _ => none

mutual

/-- The sides of the set operation that a query is, parentheses apart. -/
def Query.sides? : Query → Option (Body × Body)
  | ⟨_, _, body, _, _, _, _, _⟩ => body.sides?

/-- The sides of the set operation that a body is, parentheses apart. -/
def Body.sides? : Body → Option (Body × Body)
  | .query query => query.sides?
  | .operation left _ right => some (left, right)
  | _ => none

end

/-- Whether the select list of a body, that of its leftmost side, spells out a name. -/
def Body.Spells (b : Body) (name : String) : Prop :=
  ∃ written, .named written ∈ b.outputs ∧ sameName written name = true

theorem Body.spells_iff {b : Body} {name : String} :
    b.Spells name ↔ mentionsOutput b.outputs (.column ⟨none, name⟩) = true := by
  refine Iff.trans ⟨?_, ?_⟩ List.any_eq_true.symm
  · rintro ⟨written, listed, same⟩
    exact ⟨_, listed, same⟩
  · rintro ⟨written | _, listed, same⟩
    · exact ⟨written, listed, same⟩
    · cases same

section
variable {left right : Body}

theorem Query.sides?_eq (q : Query) : q.sides? = q.body.sides? := by
  cases q
  rfl

mutual

theorem Query.isCombination_scope : ∀ q : Query, q.sides? = some (left, right) →
    q.scope.isCombination = true
  | ⟨_, _, body, _, _, _, _, _⟩, sides => by
    rw [Query.scope, Scope.readBesideOutputs]
    split <;> exact Body.isCombination_scope body sides

theorem Body.isCombination_scope : ∀ b : Body, b.sides? = some (left, right) →
    b.scope.isCombination = true
  | .query q, sides => Query.isCombination_scope q sides
  | .operation _ _ _, _ => rfl

end

mutual

theorem Query.outputs_sides : ∀ q : Query, q.sides? = some (left, right) → q.outputs = left.outputs
  | ⟨_, _, body, _, _, _, _, _⟩, sides => Body.outputs_sides body sides

theorem Body.outputs_sides : ∀ b : Body, b.sides? = some (left, right) → b.outputs = left.outputs
  | .query q, sides => Query.outputs_sides q sides
  | .operation _ _ _, sides => by cases sides; rfl

end

theorem nodesOf_sortNames {order : List Expr} {names : List String}
    (keys : order.map Expr.sortName? = names.map some) :
    Expr.nodesOf order = names.map fun name => .column ⟨none, name⟩ := by
  induction order generalizing names with
  | nil =>
    obtain rfl := List.map_eq_nil_iff.mp keys.symm
    rfl
  | cons e rest ih =>
    obtain ⟨name, others, rfl, key, later⟩ := List.map_eq_cons_iff.mp keys.symm
    unfold Expr.sortName? at key
    split at key
    · cases key
      rw [Expr.nodesOf, ih later.symm]
      rfl
    · cases key

variable {q : Query} {names : List String}

/-- Without its keys, a query reads all but what the keys do. -/
theorem Query.scope_sorted (keys : q.order.map Expr.sortName? = names.map some) :
    let unsorted := ({ q with order := [] } : Query).scope
    q.scope = { unsorted with
      nodes := unsorted.nodes ++ (names.filter fun name =>
        !mentionsOutput q.body.outputs (.column ⟨none, name⟩)).map fun name => .column ⟨none, name⟩ } := by
  obtain ⟨isRecursive, ctes, body, orderShape, order, limitShape, limits, suffix⟩ := q
  have kept : (Expr.nodesOf order).filter (fun n => !mentionsOutput body.outputs n) =
      (names.filter fun name => !mentionsOutput body.outputs (.column ⟨none, name⟩)).map
        fun name => .column ⟨none, name⟩ := by
    rw [nodesOf_sortNames keys, List.filter_map]
    rfl
  rw [← Body.outputs_scope body] at kept
  simp only [scope, Scope.readBesideOutputs, Expr.nodesOf, List.filter_nil, List.append_nil,
    ← Body.outputs_scope body]
  split <;> simp only [kept]

/-- **Sorting a set operation by bare names leaves none of them unknown exactly if each is spelled out in the
select list of the leftmost side, and none is unknown without the sorting.** -/
theorem Query.sorts_cleanly_iff (r : Resolver) (id : Option StatementId)
    (sides : q.body.sides? = some (left, right)) (keys : q.order.map Expr.sortName? = names.map some) :
    (r.resolve (.select q.scope) id).Knows names ↔ (∀ name ∈ names, left.Spells name) ∧
      (r.resolve (.select ({ q with order := [] } : Query).scope) id).Knows names := by
  let unsorted : Query := { q with order := [] }
  let stray := names.filter fun name => !mentionsOutput q.body.outputs (.column ⟨none, name⟩)
  have stray_iff (name : String) : name ∈ stray ↔ name ∈ names ∧ ¬ left.Spells name := by
    rw [Body.spells_iff, ← Body.outputs_sides q.body sides, List.mem_filter]
    simp
  have read : (TableAccess.Statement.select q.scope).read r =
      { (TableAccess.Statement.select unsorted.scope).read r ++ Resolver.readStray stray with
        outputs := ((TableAccess.Statement.select unsorted.scope).read r).outputs } := by
    have combination : unsorted.scope.isCombination = true :=
      Query.isCombination_scope unsorted (unsorted.sides?_eq.trans sides)
    rw [TableAccess.Statement.read, Query.scope_sorted keys]
    exact Scope.read_combination_names combination stray
  have same (spelled : ∀ name ∈ names, left.Spells name) :
      r.resolve (.select q.scope) id = r.resolve (.select unsorted.scope) id := by
    have none_ : stray = [] := List.eq_nil_iff_forall_not_mem.mpr fun name kept =>
      ((stray_iff name).mp kept).2 (spelled name ((stray_iff name).mp kept).1)
    rw [none_, Resolver.append_readStray_nil] at read
    simp only [Resolver.resolve, read, TableAccess.Statement.kind]
  constructor
  · intro knows
    have spelled : ∀ name ∈ names, left.Spells name := by
      intro name asked
      by_contra unspelled
      exact Resolver.not_mem_of_knows knows read name asked ((stray_iff name).mpr ⟨asked, unspelled⟩)
    exact ⟨spelled, same spelled ▸ knows⟩
  · rintro ⟨spelled, knows⟩
    rw [same spelled]
    exact knows

end

/-- A name that the select list of the left side spells out in another case. -/
theorem Query.sorts_cleanly_iff_spelled :
    ∃ q, Query.ofText? .generic
        "SELECT total AS n, * FROM a UNION SELECT * FROM b ORDER BY N DESC" = some q ∧
      (Resolver.resolve ⟨.ofTables [], 32⟩ (.select q.scope) none).Knows ["N"] := by
  let r : Resolver := ⟨.ofTables [], 32⟩
  have facts : (Query.ofText? .generic
      "SELECT total AS n, * FROM a UNION SELECT * FROM b ORDER BY N DESC").map (fun q =>
        let unsorted := r.resolve (.select ({ q with order := [] } : Query).scope) none
        (q.body.sides?.map fun sides => sides.1.outputs, q.order.map Expr.sortName?, unsorted.notes,
          unsorted.access.columnsOf unknownBucket)) =
      some (some [.named "n", .wildcard none], ["N"].map some, [], []) := by decide +kernel
  obtain ⟨q, read, same⟩ := Option.map_eq_some_iff.mp facts
  obtain ⟨sides, same⟩ := Prod.mk.inj same
  obtain ⟨keys, same⟩ := Prod.mk.inj same
  obtain ⟨notes, unknown⟩ := Prod.mk.inj same
  obtain ⟨⟨left, right⟩, sides, outputs⟩ := Option.map_eq_some_iff.mp sides
  have outputs : left.outputs = [.named "n", .wildcard none] := outputs
  refine ⟨q, read, (Query.sorts_cleanly_iff r none sides keys).mpr ⟨?_, ?_, ?_⟩⟩
  · refine List.forall_mem_singleton.mpr ⟨"n", ?_, by decide +kernel⟩
    rw [outputs]
    exact List.mem_cons_self
  · rw [notes]
    exact List.forall_mem_nil _
  · rw [unknown]
    exact fun _ _ => List.not_mem_nil

/-- A column of the result is unknown to the sorting if only a wildcard covers it. -/
theorem covered_key_unknown :
    let r : Resolver := ⟨.ofTables [⟨"users", ["id"]⟩, ⟨"customers", ["id"]⟩], 32⟩
    let found := fun text => (readStatement .generic text).toOption.map fun s =>
      ((s.read r).outputs, (r.resolve s none).notes.map fun n => (n.finding, n.subject),
        (r.resolve s none).access.columnsOf unknownBucket)
    found "SELECT id FROM users UNION SELECT id FROM customers ORDER BY id" = some (["id"], [], []) ∧
      found "SELECT * FROM users UNION SELECT * FROM customers ORDER BY id" =
        some (["id"], [(.unknownColumn, some "id")], ["id"]) := by
  intro r found
  constructor <;> decide +kernel

end Sql
end TableAccess
