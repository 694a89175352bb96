import TableAccess.Proofs.Binding.Findings
import TableAccess.Proofs.Catalog.Entries

/-! Where the columns of a table are looked up. Every lookup folds the name that it is given,
so names that are the same find the same table. A named query stays visible in everything that
is nested after it, so a scope sees every named query that the scopes around it see; what is
left to them is only what their subqueries are called. -/
namespace TableAccess

/-- A name is among others exactly when it is found there. -/
theorem hasName_eq_isSome_find? (names : List String) (name : String) :
    hasName names name = (names.find? (sameName name)).isSome := by
  rw [Bool.eq_iff_iff, hasName, List.any_eq_true, List.find?_isSome]

/-- Whether a table has a column can be read off its known columns, wherever they are declared. -/
theorem Catalog.tableHas_eq (c : Catalog) (frames : Frames) (table column : String) :
    c.tableHas frames table column =
      (c.columnsOf? frames table).map fun columns => hasName columns column := by
  rw [tableHas, columnsOf?, Option.orElse_eq_or]
  cases frames.localTable? table with
  | some declared => rfl
  | none =>
    rw [Option.none_or, Option.map_map]
    exact c.hasColumn_eq table column

section
variable {a b : String}

theorem LocalTables.find?_congr {tables : LocalTables} (same : sameName a b = true) :
    tables.find? a = tables.find? b := by
  simp only [find?, sameName, sameName_iff.mp same]

theorem Catalog.find?_congr {c : Catalog} (same : sameName a b = true) : c.find? a = c.find? b := by
  simp only [find?, entry?, sameName_iff.mp same]

theorem Frames.localTable?_congr {frames : Frames} (same : sameName a b = true) :
    frames.localTable? a = frames.localTable? b := by
  induction frames with
  | nil => rfl
  | cons frame outer ih =>
    simp only [Frames.localTable?, LocalTables.find?_congr same, ih]

theorem Catalog.columnsOf?_congr {c : Catalog} {frames : Frames} (same : sameName a b = true) :
    c.columnsOf? frames a = c.columnsOf? frames b := by
  simp only [Catalog.columnsOf?, Frames.localTable?_congr same, Catalog.find?_congr same]

end

namespace LocalTables
variable {tables : LocalTables} {name : String}

/-- A name finds nothing exactly when no local table has it. -/
theorem find?_eq_none_iff :
    tables.find? name = none ↔ ∀ t ∈ tables, sameName t.name name = false := by
  simp [find?]

theorem find?_eq_none_iff_hasName :
    tables.find? name = none ↔ hasName (tables.map TableSchema.name) name = false := by
  simp [find?_eq_none_iff, hasName, sameName_comm name]

theorem sameName_of_find? {t : TableSchema} (found : tables.find? name = some t) :
    sameName t.name name = true := by
  unfold find? at found
  simpa using List.find?_some found

end LocalTables

namespace Catalog
variable {c : Catalog} {ctes : LocalTables} {table : String}

theorem sameName_of_find? {t : TableSchema} (found : c.find? table = some t) :
    sameName t.name table = true := by
  rw [find?_eq] at found
  simpa using List.find?_some found

/-- A table is found by the order of the tables as well as by its name. -/
theorem find?_eq_find?_order :
    c.find? table = c.tables.find? fun t => t.order ⟨table, []⟩ == .eq := by
  have alike : (fun t : TableSchema => sameName t.name table) = fun t => t.order ⟨table, []⟩ == .eq := by
    funext t
    exact t.sameName_eq_order ⟨table, []⟩
  rw [find?_eq, alike]

/-- A table that is added is found by its name, and tables of other names are found as before. -/
theorem find?_insert {t : TableSchema} :
    (c.insert t).find? table = if sameName t.name table then some t else c.find? table := by
  rw [find?_eq_find?_order, tables_insert, find?_insertOver, ← find?_eq_find?_order,
    ← t.sameName_eq_order ⟨table, []⟩]

/-- A table that is added leaves tables of other names alone. -/
theorem find?_insert_of_other {t : TableSchema} (other : sameName t.name table = false) :
    (c.insert t).find? table = c.find? table :=
  find?_insert.trans (if_neg (Bool.not_eq_true _ ▸ other))

/-- A table keeps its name up to case, however it is declared. -/
theorem sameName_canonical : sameName (c.canonical ctes table) table = true := by
  unfold canonical
  cases found : (ctes.find? table).orElse fun _ => c.find? table with
  | none => exact sameName_refl table
  | some declared =>
    rw [Option.orElse_eq_or] at found
    rcases Option.or_eq_some_iff.mp found with visible | ⟨_, known⟩
    · exact LocalTables.sameName_of_find? visible
    · exact sameName_of_find? known

theorem canonical_of_unhidden (unhidden : ∀ t ∈ ctes, sameName t.name table = false) :
    c.canonical ctes table = c.canonical [] table := by
  have absent : ctes.find? table = none := LocalTables.find?_eq_none_iff.mpr unhidden
  rw [canonical, absent]
  rfl

end Catalog

namespace Cte

theorem readAll_names (r : Resolver) (frames : Frames) (depth : Nat) (declared : List Cte) :
    ∀ ctes, (Cte.readAll r ctes frames depth declared).1.map TableSchema.name =
      (declared.map Cte.aliasName).reverse ++ ctes.map TableSchema.name := by
  induction declared with
  | nil => exact fun _ => rfl
  | cons c rest ih =>
    intro ctes
    cases c
    simp only [Cte.readAll, ih, List.map_cons, List.reverse_cons, List.append_assoc,
      List.singleton_append]

/-- Named queries hide others but take none away. -/
theorem mem_readAll_of_mem {r : Resolver} {frames : Frames} {depth : Nat} {declared : List Cte}
    {t : TableSchema} {ctes : LocalTables} (visible : t ∈ ctes) :
    t ∈ (Cte.readAll r ctes frames depth declared).1 := by
  induction declared generalizing ctes with
  | nil => exact visible
  | cons c rest ih =>
    cases c
    exact ih (List.mem_cons_of_mem _ visible)

end Cte

/-- A table that no named query of a scope is called like is known there as outside. -/
theorem Scope.canonical_visible {r : Resolver} {s : Scope} {table : String}
    (unhidden : ∀ c ∈ s.ctes, sameName c.aliasName table = false) :
    r.catalog.canonical (s.visible r [] [] 0) table = r.catalog.canonical [] table := by
  refine Catalog.canonical_of_unhidden fun declared visible => ?_
  have named := List.mem_map_of_mem (f := TableSchema.name) visible
  rw [Scope.visible, Cte.readAll_names] at named
  obtain ⟨c, member, same⟩ : ∃ c ∈ s.ctes, c.aliasName = declared.name := by
    simpa using named
  exact same ▸ unhidden c member

/-- All that a scope without subqueries declares are its tables. -/
theorem Scope.declarations_of_unhidden {r : Resolver} {s : Scope} (derived : s.derived = [])
    (unhidden : ∀ c ∈ s.ctes, ∀ t ∈ s.tables, sameName c.aliasName t.name = false) :
    s.declarations (r.catalog.canonical (s.visible r [] [] 0)) =
      s.tables.map fun t => ⟨t.key, r.catalog.canonical [] t.name⟩ := by
  have known : (s.tables.map fun t =>
      (⟨t.key, r.catalog.canonical (s.visible r [] [] 0) t.name⟩ : AliasEntry)) =
      s.tables.map fun t => ⟨t.key, r.catalog.canonical [] t.name⟩ :=
    List.map_congr_left fun t member => by
      rw [canonical_visible fun c named => unhidden c named t member]
  rw [declarations, derived, known]
  exact List.append_nil _

/-- A visited scope sees every named query that a scope around it sees. -/
theorem Scope.Visited.sees_outer {r : Resolver} {whole : Scope} {chain : Chain}
    (visited : whole.Visited r chain) :
    ∀ v outer, chain = v :: outer →
      ∀ frame ∈ Chain.frames r outer, ∀ t ∈ frame.ctes, t ∈ v.ctes := by
  induction visited with
  | whole =>
    rintro v outer ⟨⟩ frame member
    cases member
  | cte seen within declared ih =>
    rintro v outer ⟨⟩ frame member t visible
    exact Cte.mem_readAll_of_mem (ih _ _ rfl frame member t visible)
  | derived seen within declared ih =>
    rintro v outer ⟨⟩ frame member t visible
    exact Cte.mem_readAll_of_mem (ih _ _ rfl frame member t visible)
  | subquery seen within mentioned ih =>
    rintro v outer ⟨⟩ frame member t visible
    rcases List.mem_cons.mp member with rfl | member
    · exact visible
    · exact Cte.mem_readAll_of_mem (ih _ _ rfl frame member t visible)

end TableAccess
