import TableAccess.Proofs.Access.Contents
import TableAccess.Proofs.Binding.Lookup

/-! Which columns a table is taken to have. Columns are looked up by the name of a table and not
by the source that brought the table in, and subqueries among the sources are found before the
database. A table that no visible named query hides has the columns that the database declares
for it as long as no subquery among the sources of its scope, or of a scope around it, is called
like it. Otherwise it is taken for that subquery, which a reference by that name never means. -/
namespace TableAccess

/-- Whether two lists have the same columns in the same spelling, whichever column is looked for. -/
def SameColumns (a b : List String) : Prop :=
  ∀ column, a.find? (sameName column) = b.find? (sameName column)

/-- The innermost subquery among the sources that is called by a name. -/
def Frames.source? : Frames → String → Option TableSchema
  | [], _ => none
  | frame :: outer, name => (frame.derived.find? name).orElse fun _ => source? outer name

/-- Whether the table that a name refers to in a visited scope has the columns that the database
declares under that name, in their declared spelling. -/
structure Visit.KnowsAsDeclared (r : Resolver) (outer : Chain) (v : Visit) (name : String) :
    Prop where
  has : ∀ column, r.catalog.tableHas (Chain.frames r (v :: outer))
    (r.catalog.canonical (v.visible r outer) name) column = r.catalog.hasColumn name column
  spelled : ∀ column, r.catalog.spelling (Chain.frames r (v :: outer))
    (r.catalog.canonical (v.visible r outer) name) column = r.catalog.spelling [] name column

theorem Frames.localTable?_eq_source? {frames : Frames} {name : String}
    (free : ∀ frame ∈ frames, ∀ t ∈ frame.ctes, sameName t.name name = false) :
    frames.localTable? name = frames.source? name := by
  induction frames with
  | nil => rfl
  | cons frame outer ih =>
    obtain ⟨own, others⟩ := List.forall_mem_cons.mp free
    have absent : frame.ctes.find? name = none := LocalTables.find?_eq_none_iff.mpr own
    simp only [localTable?, source?, absent, ih others, Option.orElse_none]

/-- No subquery is found by a name exactly when none along the chain is called so. -/
theorem Chain.source?_eq_none_iff {r : Resolver} {chain : Chain} {name : String} :
    (chain.frames r).source? name = none ↔
      ∀ v ∈ chain, ∀ d ∈ v.scope.derived, ∀ own ∈ d.aliasName, sameName own name = false := by
  induction chain with
  | nil => simp [frames, Frames.source?]
  | cons v outer ih =>
    have own : (v.scope.frame r v.ctes (frames r outer) v.depth).derived.find? name = none ↔
        ∀ d ∈ v.scope.derived, ∀ own ∈ d.aliasName, sameName own name = false := by
      rw [LocalTables.find?_eq_none_iff_hasName, v.scope.frame_derived, hasName,
        List.any_eq_false]
      constructor
      · intro free d declared own named
        rw [sameName_comm, ← Bool.not_eq_true]
        exact free own (List.mem_reverse.mpr (List.mem_filterMap.mpr ⟨d, declared, named⟩))
      · intro free own member
        obtain ⟨d, declared, named⟩ := List.mem_filterMap.mp (List.mem_reverse.mp member)
        rw [sameName_comm, free d declared own named]
        exact Bool.false_ne_true
    rw [frames, Frames.source?, Option.orElse_eq_or, Option.or_eq_none_iff, own, ih,
      List.forall_mem_cons]

/-- Columns are the same if no lookup finds them in one list only, or in another spelling. -/
theorem sameColumns_iff {a b : List String} : SameColumns a b ↔
    ∀ column, hasName a column = hasName b column ∧
      (a.find? (sameName column)).getD column = (b.find? (sameName column)).getD column := by
  simp only [hasName_eq_isSome_find?]
  constructor
  · intro same column
    rw [same column]
    exact ⟨rfl, rfl⟩
  · intro alike column
    obtain ⟨found, spelled⟩ := alike column
    cases inA : a.find? (sameName column) with
    | none => cases inB : b.find? (sameName column) <;> simp_all
    | some here => cases inB : b.find? (sameName column) <;> simp_all

/-- Two tables cannot be told apart by their columns exactly when neither is known or both are
known to have the same ones. -/
theorem Catalog.columns_alike_iff {c : Catalog} {inner outer : Frames} {a b : String} :
    ((∀ column, c.tableHas inner a column = c.tableHas outer b column) ∧
      ∀ column, c.spelling inner a column = c.spelling outer b column) ↔
    Option.Rel SameColumns (c.columnsOf? inner a) (c.columnsOf? outer b) := by
  simp only [tableHas_eq, spelling]
  cases c.columnsOf? inner a with
  | none => cases c.columnsOf? outer b <;> simp
  | some known =>
    cases c.columnsOf? outer b with
    | none => simp
    | some declared =>
      rw [Option.rel_some_some, sameColumns_iff]
      simp only [Option.map_some, Option.some.injEq]
      exact forall_and.symm

namespace Statement
variable {r : Resolver} {s : Statement} {v : Visit} {outer : Chain} {name : String}

/-- Where no named query hides a table, its columns are those of the innermost subquery that is
called like it, and those that the database declares only if there is none. -/
theorem columnsOf_unhidden (visited : s.Visited r (v :: outer))
    (free : ∀ c ∈ v.visible r outer, sameName c.name name = false) :
    r.catalog.columnsOf? (Chain.frames r (v :: outer))
        (r.catalog.canonical (v.visible r outer) name) =
      (((Chain.frames r (v :: outer)).source? name).or (r.catalog.find? name)).map
        TableSchema.columns := by
  obtain ⟨whole, _, visited⟩ := visited
  have unhidden : ∀ frame ∈ Chain.frames r (v :: outer), ∀ t ∈ frame.ctes,
      sameName t.name name = false := by
    intro frame member t visible
    rcases List.mem_cons.mp member with rfl | member
    · exact free t visible
    · exact free t (Cte.mem_readAll_of_mem (visited.sees_outer v outer rfl frame member t visible))
  rw [Catalog.columnsOf?_congr Catalog.sameName_canonical, Catalog.columnsOf?,
    Frames.localTable?_eq_source? unhidden, Option.orElse_eq_or]

/-- **A table has its declared columns exactly when no subquery is called like it**, or when the
innermost one that is called so happens to have the same columns. -/
theorem schema_as_declared_iff (r : Resolver) (s : Statement) (visited : s.Visited r (v :: outer))
    (free : ∀ c ∈ v.visible r outer, sameName c.name name = false) :
    v.KnowsAsDeclared r outer name ↔
      (∀ w ∈ v :: outer, ∀ d ∈ w.scope.derived, ∀ own ∈ d.aliasName, sameName own name = false) ∨
      ∃ source declared, (Chain.frames r (v :: outer)).source? name = some source ∧
        r.catalog.find? name = some declared ∧ SameColumns source.columns declared.columns := by
  have known := columnsOf_unhidden visited free
  have outside :
      r.catalog.columnsOf? [] name = (r.catalog.find? name).map TableSchema.columns := rfl
  have declares (column : String) :
      r.catalog.tableHas [] name column = r.catalog.hasColumn name column := rfl
  have alike : v.KnowsAsDeclared r outer name ↔ Option.Rel SameColumns
      (r.catalog.columnsOf? (Chain.frames r (v :: outer))
        (r.catalog.canonical (v.visible r outer) name)) (r.catalog.columnsOf? [] name) := by
    rw [← Catalog.columns_alike_iff]
    simp only [declares]
    constructor
    · rintro ⟨has, spelled⟩
      exact ⟨has, spelled⟩
    · rintro ⟨has, spelled⟩
      exact ⟨has, spelled⟩
  rw [alike, known, outside, ← Chain.source?_eq_none_iff]
  cases called : (Chain.frames r (v :: outer)).source? name with
  | none =>
    cases r.catalog.find? name <;> simp [SameColumns]
  | some source =>
    cases r.catalog.find? name with
    | none => simp
    | some declared => simp

/-- A condition that reads a column of one of two tables without saying of which. -/
def pricedItems : Scope where
  ctes := []
  tables := [⟨"items", some "i"⟩, ⟨"orders", some "o"⟩]
  derived := []
  nodes := [.column ⟨none, "price"⟩, .column ⟨some "i", "order_id"⟩, .column ⟨some "o", "id"⟩]
  outputs := [.named "price"]

/-- A query with that condition, whose only source is a subquery. -/
def pricedStock (called : String) : Scope where
  ctes := []
  tables := []
  derived := [⟨some called, [], ⟨[], [⟨"stock", none⟩], [], [.column ⟨none, "n"⟩], [.named "n"]⟩⟩]
  nodes := [.column ⟨some called, "n"⟩, .subquery pricedItems]
  outputs := [.named "n"]

/-- The tables that such a condition reads. -/
def pricedSchema : Resolver :=
  ⟨.ofTables [⟨"items", ["order_id", "price"]⟩, ⟨"orders", ["id"]⟩], 32⟩

private theorem visited_pricedItems (called : String) :
    (Statement.select (pricedStock called)).Visited pricedSchema
      [⟨pricedItems, [], 1⟩, ⟨pricedStock called, [], 0⟩] := by
  refine ⟨pricedStock called, List.mem_singleton_self _, .subquery .whole (Nat.succ_pos 31) ?_⟩
  exact List.mem_cons_of_mem _ (List.mem_singleton_self _)

theorem schema_as_declared_beside_stock :
    let v : Visit := ⟨pricedItems, [], 1⟩
    let outer : Chain := [⟨pricedStock "s", [], 0⟩]
    (Statement.select (pricedStock "s")).Visited pricedSchema (v :: outer) ∧
      (∀ c ∈ v.visible pricedSchema outer, sameName c.name "items" = false) ∧
      v.KnowsAsDeclared pricedSchema outer "items" := by
  intro v outer
  have visited : (Statement.select (pricedStock "s")).Visited pricedSchema (v :: outer) :=
    visited_pricedItems "s"
  have free : ∀ c ∈ v.visible pricedSchema outer, sameName c.name "items" = false := by
    decide +kernel
  refine ⟨visited, free, (schema_as_declared_iff _ _ visited free).mpr (.inl ?_)⟩
  decide +kernel

/-- A subquery of the scope around it that is called like the table takes the column away. -/
theorem schema_hidden_by_outer_subquery :
    let v : Visit := ⟨pricedItems, [], 1⟩
    let outer : Chain := [⟨pricedStock "items", [], 0⟩]
    (Statement.select (pricedStock "items")).Visited pricedSchema (v :: outer) ∧
      ⟨"items", some "i"⟩ ∈ v.scope.tables ∧ v.visible pricedSchema outer = [] ∧
      ¬ v.KnowsAsDeclared pricedSchema outer "items" ∧
      "price" ∈ (pricedSchema.resolve (.select (pricedStock "items")) none).access.columnsOf
        unknownBucket := by
  intro v outer
  have hidden : pricedSchema.catalog.tableHas (Chain.frames pricedSchema (v :: outer))
      (pricedSchema.catalog.canonical (v.visible pricedSchema outer) "items") "price" =
        some false := by
    decide +kernel
  have declared : pricedSchema.catalog.hasColumn "items" "price" = some true := by decide +kernel
  refine ⟨visited_pricedItems "items", List.mem_cons_self, by decide +kernel, ?_, by decide +kernel⟩
  intro known
  have has := known.has "price"
  rw [hidden, declared] at has
  cases has

end Statement
end TableAccess
