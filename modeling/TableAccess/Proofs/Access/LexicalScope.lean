import TableAccess.Proofs.Access.ColumnNotes

/-! Qualifiers are scoped lexically. A qualified column belongs to what its qualifier means
in the innermost scope of its chain that gives it a meaning, and the last source of that
name gives it there. Where no scope of the chain does, the column is recorded as unknown,
and each such mention is noted once. -/
namespace TableAccess

/-- What a visited scope means by a name: its last source of that name, the subqueries among
its sources coming after its tables. -/
def Visit.means (r : Resolver) (outer : Chain) (v : Visit) (name : String) : Option String :=
  AliasMap.lastDeclared (v.declarations r outer) name

/-- The binding of a qualifier along a chain, by the innermost scope that has a meaning for it. -/
inductive Chain.Binds (r : Resolver) (qualifier table : String) : Chain → Prop where
  | here {v : Visit} {outer : Chain} (means : v.means r outer qualifier = some table) :
      Binds r qualifier table (v :: outer)
  | outward {v : Visit} {outer : Chain} (unbound : v.means r outer qualifier = none)
      (bound : Binds r qualifier table outer) : Binds r qualifier table (v :: outer)

namespace Chain
variable {r : Resolver} {chain : Chain} {qualifier table : String}

private theorem lookup_cons {v : Visit} {outer : Chain} :
    (Chain.frames r (v :: outer)).lookup qualifier =
      (v.means r outer qualifier).or ((outer.frames r).lookup qualifier) := by
  rw [frames, Frames.lookup, Scope.find?_frame, Option.orElse_eq_or]
  rfl

/-- Looking a qualifier up along a chain finds what the chain binds it to. -/
theorem lookup_eq_some_iff_binds :
    (chain.frames r).lookup qualifier = some table ↔ chain.Binds r qualifier table := by
  induction chain with
  | nil =>
    constructor
    · intro found
      cases found
    · intro bound
      cases bound
  | cons v outer ih =>
    rw [lookup_cons]
    cases means : v.means r outer qualifier with
    | some own =>
      rw [Option.some_or]
      constructor
      · rintro ⟨⟩
        exact .here means
      · intro bound
        cases bound with
        | here found => exact means.symm.trans found
        | outward unbound => exact absurd (means.symm.trans unbound) (by simp)
    | none =>
      rw [Option.none_or, ih]
      constructor
      · exact .outward means
      · intro bound
        cases bound with
        | here found => exact absurd (means.symm.trans found) (by simp)
        | outward _ bound => exact bound

end Chain

namespace Statement
variable {chain : Chain} {column : ColumnRef} {qualifier : String}

/-- **Qualifiers are scoped lexically.** -/
theorem qualifiers_lexically_scoped (r : Resolver) (s : Statement) (id : Option StatementId)
    (visited : s.Visited r chain) (mentions : column ∈ chain.scope.columns)
    (qualified : column.qualifier = some qualifier) :
    (∀ table, r.catalog.attributionOf (chain.frames r) column = .table table ↔
      chain.Binds r qualifier table) ∧
    ((∀ table, ¬ chain.Binds r qualifier table) →
      r.catalog.attributionOf (chain.frames r) column = .unknown (.unboundQualifier qualifier) ∧
      column.name ∈ (r.resolve s id).access.columnsOf unknownBucket ∧
      ⟨chain, column⟩ ∈ s.mentions r ∧
      (s.read r).notes.countP (fun n => n.finding == .unknownColumn &&
          n.subject == some (qualifier ++ "." ++ column.name)) =
        (s.mentions r).countP fun m => (m.attribution r).isUnknown &&
          m.column.written == qualifier ++ "." ++ column.name) := by
  have belongs : r.catalog.attributionOf (chain.frames r) column = _ :=
    Catalog.attributionOf_qualified qualified
  constructor
  · intro table
    rw [belongs, ← Chain.lookup_eq_some_iff_binds]
    cases (chain.frames r).lookup qualifier <;> simp
  · intro unbound
    have unknown : (chain.frames r).lookup qualifier = none :=
      Option.eq_none_iff_forall_not_mem.mpr fun table found =>
        unbound table (Chain.lookup_eq_some_iff_binds.mp found)
    simp only [unknown] at belongs
    refine ⟨belongs, Resolver.mem_columnsOf_resolve.mpr ?_, ?_, s.countP_unknown r _⟩
    · refine mem_columns_of_mention visited mentions ?_
      simp [Resolver.mention, belongs, Attribution.bucket]
    · exact List.mem_flatMap.mpr ⟨chain, mem_visits_iff_visited.mpr visited,
        List.mem_map_of_mem (List.mem_append_left _ mentions)⟩

/-- A subquery among the sources, which mentions an alias of a scope around it and one of the
scope that declares it. -/
def correlatedSource : Scope where
  ctes := []
  tables := [⟨"stock", none⟩]
  derived := []
  nodes := [.column ⟨some "o", "id"⟩, .column ⟨some "i", "id"⟩]
  outputs := [.wildcard none]

/-- A subquery of a condition that has such a source. -/
def correlatedCondition : Scope where
  ctes := []
  tables := [⟨"items", some "i"⟩]
  derived := [⟨some "d", [], correlatedSource⟩]
  nodes := []
  outputs := [.wildcard none]

/-- A query with such a condition. -/
def correlatedQuery : Scope where
  ctes := []
  tables := [⟨"orders", some "o"⟩]
  derived := []
  nodes := [.subquery correlatedCondition]
  outputs := [.named "id"]

theorem qualifiers_lexically_scoped_in_source :
    let r : Resolver := ⟨.empty, 2⟩
    let s : Statement := .select correlatedQuery
    let chain : Chain := [⟨correlatedSource, [], 2⟩, ⟨correlatedQuery, [], 0⟩]
    s.Visited r chain ∧
      (chain.Binds r "o" "orders" ∧
        r.catalog.attributionOf (chain.frames r) ⟨some "o", "id"⟩ = .table "orders") ∧
      r.catalog.attributionOf (chain.frames r) ⟨some "i", "id"⟩ = .unknown (.unboundQualifier "i") ∧
      "id" ∈ (r.resolve s none).access.columnsOf unknownBucket ∧
      ⟨chain, ⟨some "i", "id"⟩⟩ ∈ s.mentions r ∧
      (s.read r).notes.countP (fun n => n.finding == .unknownColumn &&
          n.subject == some ("i" ++ "." ++ "id")) =
        (s.mentions r).countP fun m => (m.attribution r).isUnknown &&
          m.column.written == "i" ++ "." ++ "id" := by
  intro r s chain
  have condition : correlatedQuery.Visited r
      [⟨correlatedCondition, [], 1⟩, ⟨correlatedQuery, [], 0⟩] :=
    .subquery .whole Nat.zero_lt_two (List.mem_singleton_self _)
  have visited : s.Visited r chain :=
    ⟨correlatedQuery, List.mem_singleton_self _,
      .derived condition Nat.one_lt_two (List.mem_singleton_self _)⟩
  have order : ⟨some "o", "id"⟩ ∈ chain.scope.columns := List.mem_cons_self
  have item : ⟨some "i", "id"⟩ ∈ chain.scope.columns := List.mem_cons_of_mem _ List.mem_cons_self
  have bound : chain.Binds r "o" "orders" :=
    Chain.lookup_eq_some_iff_binds.mp (by decide +kernel)
  have unbound (table : String) : ¬ chain.Binds r "i" table := by
    rw [← Chain.lookup_eq_some_iff_binds,
      show (chain.frames r).lookup "i" = none by decide +kernel]
    exact nofun
  exact ⟨visited, ⟨bound, ((qualifiers_lexically_scoped r s none visited order rfl).1 _).mpr bound⟩,
    (qualifiers_lexically_scoped r s none visited item rfl).2 unbound⟩

end Statement
end TableAccess
