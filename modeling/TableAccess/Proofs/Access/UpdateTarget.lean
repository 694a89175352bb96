import TableAccess.Proofs.Access.Contents
import TableAccess.Proofs.Binding.Lookup

/-! Where the columns that an update sets are recorded. The changed table is what the first
table of its scope is called there, once all sources of the scope have their names. The
columns that are set are recorded for what that table is called outside the statement, so
they reach the changed table unless a named query or another source takes its name; then
they do so only where the scope reads the same columns itself. -/
namespace TableAccess

namespace Update
variable {r : Resolver} {u : Update} {id : Option StatementId} {table : String}

/-- The table that is changed: what the scope of an update means in the end by the name of
its first table. -/
def target (r : Resolver) (u : Update) : Option String :=
  u.table?.bind fun t => (u.scope.frame r [] [] 0).aliases.find? t.key

/-- Whether an access has all columns that an update sets in the table that is changed, and
lists that table. -/
structure TargetsRecorded (r : Resolver) (u : Update) (a : Access) : Prop where
  listed : ∀ table ∈ u.target r, table ∈ a.tables
  recorded : ∀ column ∈ u.targets, ∃ table ∈ u.target r,
    ∃ name ∈ a.columnsOf table, sameName name column = true

/-- The changed table keeps the name that it has outside the statement if no other source is
called like it and no named query has its name. -/
theorem target_of_sole_name {t : TableRef} {others : List TableRef}
    (tables : u.scope.tables = t :: others)
    (sole : ∀ other ∈ others, sameName other.key t.key = false)
    (derived : ∀ d ∈ u.scope.derived, ∀ name ∈ d.aliasName, sameName name t.key = false)
    (unhidden : ∀ c ∈ u.scope.ctes, sameName c.aliasName t.name = false) :
    u.target r = some (r.catalog.canonical [] t.name) := by
  have canonical : r.catalog.canonical (u.scope.visible r [] [] 0) t.name =
      r.catalog.canonical [] t.name := Scope.canonical_visible unhidden
  have later : AliasMap.lastDeclared
      (others.map (fun t => ⟨t.key, r.catalog.canonical (u.scope.visible r [] [] 0) t.name⟩)
        ++ (u.scope.derived.filterMap Derived.aliasName).map fun name => ⟨name, name⟩) t.key =
      none := by
    refine AliasMap.lastDeclared_eq_none_iff.mpr fun e declared => ?_
    rcases List.mem_append.mp declared with table | subquery
    · obtain ⟨other, member, rfl⟩ := List.mem_map.mp table
      exact sole other member
    · obtain ⟨name, named, rfl⟩ := List.mem_map.mp subquery
      obtain ⟨d, member, named⟩ := List.mem_filterMap.mp named
      exact derived d member name named
  rw [target, table?, tables, List.head?_cons, Option.bind_some, Scope.find?_frame,
    Scope.declarations, tables, List.map_cons, List.cons_append, AliasMap.lastDeclared_cons, later,
    canonical]
  simp

private theorem target_listed (denoted : u.target r = some table) :
    table ∈ (r.resolve (.update u) id).access.tables := by
  obtain ⟨t, _, found⟩ := Option.bind_eq_some_iff.mp denoted
  refine Resolver.mem_tables_resolve.mpr (Statement.mem_tables_read.mpr (.inr ?_))
  exact ⟨⟨u.scope, [], 0⟩, [], ⟨u.scope, List.mem_singleton_self _, .whole⟩,
    .inr (AliasMap.mem_tables_of_find? found)⟩

theorem mem_columns_read {pair : String × String} : pair ∈ (u.read r).columns ↔
    pair ∈ (u.scope.read r [] [] 0).columns ∨ ∃ t, u.table? = some t ∧
      pair.1 = r.catalog.canonical [] t.name ∧
      ∃ column ∈ u.targets, pair.2 = r.catalog.spelling [] pair.1 column := by
  obtain ⟨table, name⟩ := pair
  unfold Update.read
  cases first : u.table? with
  | none => simp
  | some t =>
    refine List.mem_append.trans (or_congr_right ?_)
    simp only [Resolver.write, Reading.ofColumns, List.mem_map]
    constructor
    · rintro ⟨column, member, ⟨⟩⟩
      exact ⟨t, rfl, rfl, column, member, rfl⟩
    · rintro ⟨_, ⟨⟩, known, column, member, spelled⟩
      exact ⟨column, member, Prod.ext known.symm (spelled.trans (by rw [known])).symm⟩

/-- **An update has all its targets recorded in the table that it changes exactly when, for
each of them, its scope means by the name of that table what the name means outside the
statement, or reads the same column of the table itself.** -/
theorem targets_recorded_iff (r : Resolver) (u : Update) (id : Option StatementId) :
    u.TargetsRecorded r (r.resolve (.update u) id).access ↔
      ∀ column ∈ u.targets, ∃ table ∈ u.target r,
        (∃ t ∈ u.table?, table = r.catalog.canonical [] t.name) ∨
        ∃ name, (table, name) ∈ (u.scope.read r [] [] 0).columns ∧ sameName name column = true := by
  constructor
  · rintro ⟨_, recorded⟩ column member
    obtain ⟨table, denoted, name, held, same⟩ := recorded column member
    refine ⟨table, denoted, ?_⟩
    rcases mem_columns_read.mp (Resolver.mem_columnsOf_resolve.mp held) with
      read | ⟨t, first, known, _⟩
    · exact .inr ⟨name, read, same⟩
    · exact .inl ⟨t, first, known⟩
  · intro reached
    refine ⟨fun table denoted => target_listed denoted, fun column member => ?_⟩
    obtain ⟨table, denoted, ⟨t, first, known⟩ | ⟨name, read, same⟩⟩ := reached column member
    · exact ⟨table, denoted, r.catalog.spelling [] table column,
        Resolver.mem_columnsOf_resolve.mpr
          (mem_columns_read.mpr (.inr ⟨t, first, known, column, member, rfl⟩)),
        Catalog.sameName_spelling column⟩
    · exact ⟨table, denoted, name,
        Resolver.mem_columnsOf_resolve.mpr (mem_columns_read.mpr (.inl read)), same⟩

/-- An update of an alias that another source gives to a table. -/
def aliasedUpdate : Update :=
  ⟨["name"], ⟨[], [⟨"u", none⟩, ⟨"users", some "u"⟩], [], [], []⟩⟩

/-- The alias is nothing outside the statement, but what is set is recorded for it. -/
theorem targets_lost_to_alias :
    let r : Resolver := ⟨.ofTables [⟨"users", ["id", "name"]⟩], 32⟩
    aliasedUpdate.target r = some "users" ∧
      ¬ aliasedUpdate.TargetsRecorded r (r.resolve (.update aliasedUpdate) none).access := by
  intro r
  have denoted : aliasedUpdate.target r = some "users" := by decide +kernel
  have columns : (aliasedUpdate.read r).columns = [("u", "name")] := by decide +kernel
  refine ⟨denoted, fun ⟨_, recorded⟩ => ?_⟩
  obtain ⟨table, found, name, held, _⟩ := recorded "name" List.mem_cons_self
  obtain rfl := Option.some.inj (found.symm.trans denoted)
  have read : ("users", name) ∈ (aliasedUpdate.read r).columns :=
    Resolver.mem_columnsOf_resolve.mp held
  simp [columns] at read

end Update
end TableAccess
