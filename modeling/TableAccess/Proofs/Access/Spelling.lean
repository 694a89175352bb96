import TableAccess.Proofs.Access.RecordedColumns

/-! In how many spellings an answer has a name. Names are looked up without regard to case, but what
is found is put into sets where every spelling stands by itself. A place that sees a declaration of
what it names takes the spelling from there, and all others keep their own. So an answer has each
name in one spelling exactly when all places that mean one table, and all places that mean one
column of a table, agree on it. -/
namespace TableAccess

/-- Whether names that are the same are spelled alike, among some. -/
def SpelledAlike (among : String → Prop) : Prop :=
  ∀ a b, among a → among b → sameName a b = true → a = b

/-- Whether an access has each name in one spelling. -/
structure Access.SpelledOnce (a : Access) : Prop where
  tables : SpelledAlike (· ∈ a.tables)
  keys : SpelledAlike (· ∈ a.columns.map Prod.fst)
  columns : ∀ entry ∈ a.columns, SpelledAlike (· ∈ entry.2)

/-- A mentioned column as the table that it belongs to declares it, or else as it is written. -/
def Resolver.spelled (r : Resolver) (frames : Frames) (column : ColumnRef) : String :=
  match r.catalog.attributionOf frames column with
  | .table table => r.catalog.spelling frames table column.name
  | _ => column.name

/-- The tables that a statement names, as each place spells them. -/
inductive Statement.NamesTable (r : Resolver) (s : Statement) : String → Prop where
  /-- The statement adds rows to the table. -/
  | filled {table : String} (fills : table ∈ s.filled r) : NamesTable r s table
  /-- A visited scope declares a named query. -/
  | declared {v : Visit} {outer : Chain} {c : Cte} (visited : s.Visited r (v :: outer))
      (declares : c ∈ v.scope.ctes) : NamesTable r s c.aliasName
  /-- A visited scope has a name for the table among its sources. -/
  | source {v : Visit} {outer : Chain} {name table : String} (visited : s.Visited r (v :: outer))
      (means : AliasMap.lastDeclared (v.declarations r outer) name = some table) :
      NamesTable r s table

/-- The columns that a statement names under a key, as each place spells them. -/
inductive Statement.NamesColumn (r : Resolver) (s : Statement) (key : String) : String → Prop where
  /-- A visited scope mentions the column. -/
  | mentioned {chain : Chain} {column : ColumnRef} (visited : s.Visited r chain)
      (mentions : column ∈ chain.scope.columns)
      (belongs : (r.catalog.attributionOf (chain.frames r) column).bucket = key) :
      NamesColumn r s key (r.spelled (chain.frames r) column)
  /-- The statement writes the column. -/
  | written {column : String} (writes : (key, column) ∈ s.written r) :
      NamesColumn r s key (r.catalog.spelling [] key column)
  /-- A call has a qualified column of the table among its arguments. -/
  | called {chain : Chain} {call : String} {column : ColumnRef} (visited : s.Visited r chain)
      (argument : .argument call column ∈ Node.placesOf chain.scope.nodes)
      (qualified : column.qualifier.isSome = true)
      (belongs : r.catalog.attributionOf (chain.frames r) column = .table key) :
      NamesColumn r s key call

/-- Whether a wildcard of a visited scope covers a key. -/
def Statement.Covers (r : Resolver) (s : Statement) (key : String) : Prop :=
  ∃ chain, s.Visited r chain ∧ chain.scope.isCombination = false ∧ chain.Covers r key

/-- The keys under which a statement names columns, one by one or all. -/
def Statement.NamesKey (r : Resolver) (s : Statement) (key : String) : Prop :=
  (∃ name, s.NamesColumn r key name) ∨ s.Covers r key

section
variable {among other : String → Prop}

theorem spelledAlike_congr (same : ∀ name, among name ↔ other name) :
    SpelledAlike among ↔ SpelledAlike other := by
  simp only [SpelledAlike, same]

/-- The name for all columns is like no other, so it does no harm. -/
theorem spelledAlike_or_everyColumn {all : Prop} :
    SpelledAlike (fun name => among name ∨ (name = everyColumn ∧ all)) ↔ SpelledAlike among := by
  constructor
  · exact fun alike a b held held' => alike a b (.inl held) (.inl held')
  · rintro alike a b (held | ⟨rfl, _⟩) (held' | ⟨rfl, _⟩) same
    · exact alike a b held held' same
    · exact eq_everyColumn_of_same same
    · exact (eq_everyColumn_of_same ((sameName_comm ..).trans same)).symm
    · rfl

end

namespace Resolver
variable {r : Resolver} {frames : Frames} {column : ColumnRef}

theorem columns_mention : (r.mention frames column).columns =
    [((r.catalog.attributionOf frames column).bucket, r.spelled frames column)] := rfl

theorem spelled_everyColumn {qualifier : Option String} :
    r.spelled frames ⟨qualifier, everyColumn⟩ = everyColumn := by
  unfold spelled
  split
  · exact eq_everyColumn_of_same (Catalog.sameName_spelling _)
  · rfl

end Resolver

namespace Statement
variable {r : Resolver} {s : Statement} {id : Option StatementId} {chain : Chain}
  {table key name : String}

/-- The tables that are found are those that are named. -/
theorem mem_tables_iff_namesTable : table ∈ (s.read r).tables ↔ s.NamesTable r table := by
  have meant (v : Visit) (outer : Chain) :
      table ∈ (v.frame r outer).aliases.entries.map AliasEntry.table ↔
        ∃ name, AliasMap.lastDeclared (v.declarations r outer) name = some table := by
    rw [Visit.frame, Scope.frame_aliases]
    exact AliasMap.mem_tables_declareAll
  simp only [mem_tables_read, meant]
  constructor
  · rintro (fills | ⟨v, outer, visited, ⟨c, declares, rfl⟩ | ⟨name, means⟩⟩)
    · exact .filled fills
    · exact .declared visited declares
    · exact .source visited means
  · rintro (fills | ⟨visited, declares⟩ | ⟨visited, means⟩)
    · exact .inl fills
    · exact .inr ⟨_, _, visited, .inl ⟨_, declares, rfl⟩⟩
    · exact .inr ⟨_, _, visited, .inr ⟨_, means⟩⟩

private theorem names_of_place {depth : Nat} {p : Place} (visited : s.Visited r chain)
    (place : p ∈ Node.placesOf chain.scope.nodes)
    (found : (key, name) ∈ Findings.columns (p.own r (chain.frames r) depth)) :
    s.NamesColumn r key name := by
  have mentioned {column : ColumnRef} (at_ : p.column? = some column)
      (found : (key, name) ∈ (r.mention (chain.frames r) column).columns) :
      s.NamesColumn r key name := by
    rw [Resolver.columns_mention, List.mem_singleton] at found
    cases found
    exact .mentioned visited (Scope.mem_columns.mpr ⟨p, place, at_⟩) rfl
  match p with
  | .column c => exact mentioned rfl found
  | .subquery body => simp [Place.own] at found
  | .argument call c =>
    rcases Resolver.mem_mentionInCall.mp found with found | ⟨qualified, belongs, rfl⟩
    · exact mentioned rfl found
    · exact .called visited place qualified belongs

private theorem covers_of_output {o : Output} (output : o ∈ chain.scope.outputs)
    (found : (key, name) ∈ (r.output (chain.frames r) o).columns) :
    name = everyColumn ∧ chain.Covers r key := by
  match o with
  | .named _ => cases found
  | .wildcard none =>
    rw [r.columns_output_all] at found
    obtain ⟨table, held, ⟨⟩⟩ := List.mem_map.mp found
    exact ⟨rfl, .inl ⟨output, held⟩⟩
  | .wildcard (some qualifier) =>
    rw [r.columns_output_qualified, Resolver.columns_mention, List.mem_singleton] at found
    cases found
    exact ⟨Resolver.spelled_everyColumn, .inr ⟨qualifier, output, rfl⟩⟩

private theorem output_of_covers (covers : chain.Covers r key) :
    ∃ o ∈ chain.scope.outputs, (key, everyColumn) ∈ (r.output (chain.frames r) o).columns := by
  rcases covers with ⟨output, held⟩ | ⟨qualifier, output, rfl⟩
  · refine ⟨_, output, ?_⟩
    rw [r.columns_output_all]
    exact List.mem_map_of_mem held
  · refine ⟨_, output, ?_⟩
    rw [r.columns_output_qualified, Resolver.columns_mention, Resolver.spelled_everyColumn]
    exact List.mem_singleton_self _

/-- The columns that are found are those that are named, one by one or all. -/
theorem mem_columns_iff_namesColumn : (key, name) ∈ (s.read r).columns ↔
    s.NamesColumn r key name ∨ (name = everyColumn ∧ s.Covers r key) := by
  constructor
  · intro found
    rcases mem_columns_read.mp found with ⟨column, writes, spelled⟩ | ⟨v, outer, visited, found⟩
    · obtain rfl : name = r.catalog.spelling [] key column := spelled
      exact .inl (.written writes)
    · rcases Visit.mem_columns_own.mp found with ⟨p, place, found⟩ | ⟨given, o, output, found⟩
      · exact .inl (names_of_place visited place found)
      · obtain ⟨all, covers⟩ : name = everyColumn ∧ Chain.Covers r (v :: outer) key :=
          covers_of_output output found
        exact .inr ⟨all, v :: outer, visited, given, covers⟩
  · rintro ((⟨visited, mentions, rfl⟩ | writes | ⟨visited, argument, qualified, belongs⟩) |
      ⟨rfl, chain, visited, given, covers⟩)
    · exact mem_columns_of_mention visited mentions List.mem_cons_self
    · exact mem_columns_read.mpr (.inl ⟨_, writes, rfl⟩)
    · rename_i chain column
      cases chain with
      | nil => cases argument
      | cons v outer =>
        exact mem_columns_read.mpr (.inr ⟨v, outer, visited, Visit.mem_columns_own.mpr
          (.inl ⟨_, argument, Resolver.mem_mentionInCall.mpr (.inr ⟨qualified, belongs, rfl⟩)⟩)⟩)
    · obtain ⟨o, output, found⟩ := output_of_covers covers
      cases chain with
      | nil => cases output
      | cons v outer =>
        exact mem_columns_read.mpr (.inr ⟨v, outer, visited,
          Visit.mem_columns_own.mpr (.inr ⟨given, o, output, found⟩)⟩)

private theorem exists_mem_columns_iff :
    (∃ name, (key, name) ∈ (s.read r).columns) ↔ s.NamesKey r key := by
  simp only [mem_columns_iff_namesColumn, exists_or, exists_eq_left, NamesKey]

/-- **An answer has each name in one spelling exactly when the places of the statement agree on the
spelling of each table, of each key of columns, and of each column under one key.** -/
theorem spelled_once_iff (r : Resolver) (s : Statement) (id : Option StatementId) :
    (r.resolve s id).access.SpelledOnce ↔ SpelledAlike (s.NamesTable r) ∧
      SpelledAlike (s.NamesKey r) ∧ ∀ key, SpelledAlike (s.NamesColumn r key) := by
  have tables : SpelledAlike (· ∈ (r.resolve s id).access.tables) ↔ SpelledAlike (s.NamesTable r) :=
    spelledAlike_congr fun table => Resolver.mem_tables_resolve.trans mem_tables_iff_namesTable
  have keys : SpelledAlike (· ∈ (r.resolve s id).access.columns.map Prod.fst) ↔
      SpelledAlike (s.NamesKey r) :=
    spelledAlike_congr fun key => Resolver.mem_columns_keys_resolve.trans exists_mem_columns_iff
  have columns (entry : String × List String) (present : entry ∈ (r.resolve s id).access.columns) :
      SpelledAlike (· ∈ entry.2) ↔ SpelledAlike (s.NamesColumn r entry.1) := by
    rw [spelledAlike_congr fun name =>
      (mem_entry_nameTable present).trans mem_columns_iff_namesColumn]
    exact spelledAlike_or_everyColumn
  constructor
  · rintro ⟨oneTable, oneKey, oneColumn⟩
    refine ⟨tables.mp oneTable, keys.mp oneKey, fun key a b names names' => ?_⟩
    have recorded : key ∈ (r.resolve s id).access.columns.map Prod.fst :=
      Resolver.mem_columns_keys_resolve.mpr ⟨a, mem_columns_iff_namesColumn.mpr (.inl names)⟩
    obtain ⟨entry, present, rfl⟩ := List.mem_map.mp recorded
    exact (columns entry present).mp (oneColumn entry present) a b names names'
  · rintro ⟨oneTable, oneKey, oneColumn⟩
    exact ⟨tables.mpr oneTable, keys.mpr oneKey, fun entry present =>
      (columns entry present).mpr (oneColumn entry.1)⟩

/-- A query that reads one column of one table in two spellings, and has the table in two spellings
too, one of them in a subquery. -/
def mixedCase : Scope where
  ctes := []
  tables := [⟨"Users", none⟩]
  derived := []
  nodes := [.column ⟨none, "id"⟩, .column ⟨none, "ID"⟩, .column ⟨none, "id"⟩,
    .subquery ⟨[], [⟨"users", none⟩], [], [.column ⟨none, "id"⟩], [.named "id"]⟩]
  outputs := [.named "id", .named "ID"]

/-- Without a catalog all spellings are kept: of the table, of the key, and of the column. -/
theorem spellings_kept_apart :
    let access := (Resolver.resolve ⟨.empty, 32⟩ (.select mixedCase) none).access
    ¬ SpelledAlike (· ∈ access.tables) ∧ ¬ SpelledAlike (· ∈ access.columns.map Prod.fst) ∧
      ¬ ∀ entry ∈ access.columns, SpelledAlike (· ∈ entry.2) := by
  intro access
  have tables : (Statement.read ⟨.empty, 32⟩ (.select mixedCase)).tables = ["Users", "users"] := by
    decide +kernel
  have columns : (Statement.read ⟨.empty, 32⟩ (.select mixedCase)).columns =
      [("Users", "id"), ("Users", "ID"), ("Users", "id"), ("users", "id")] := by
    decide +kernel
  have sameTable : sameName "Users" "users" = true :=
    sameName_iff.mpr (fold_eq_fold_iff.mpr (by decide))
  have sameColumn : sameName "id" "ID" = true := sameName_iff.mpr (fold_eq_fold_iff.mpr (by decide))
  have upper : "Users" ∈ access.columns.map Prod.fst :=
    Resolver.mem_columns_keys_resolve.mpr ⟨"id", by simp [columns]⟩
  have lower : "users" ∈ access.columns.map Prod.fst :=
    Resolver.mem_columns_keys_resolve.mpr ⟨"id", by simp [columns]⟩
  refine ⟨fun alike => ?_, fun alike => ?_, fun alike => ?_⟩
  · have one := alike "Users" "users" (Resolver.mem_tables_resolve.mpr (by simp [tables]))
      (Resolver.mem_tables_resolve.mpr (by simp [tables])) sameTable
    exact absurd one (by decide)
  · exact absurd (alike "Users" "users" upper lower sameTable) (by decide)
  · obtain ⟨⟨key, names⟩, present, rfl⟩ := List.mem_map.mp upper
    have one := alike _ present "id" "ID" ((mem_entry_nameTable present).mpr (by simp [columns]))
      ((mem_entry_nameTable present).mpr (by simp [columns])) sameColumn
    exact absurd one (by decide)

end Statement
end TableAccess
