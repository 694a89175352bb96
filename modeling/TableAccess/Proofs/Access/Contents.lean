import TableAccess.Proofs.Binding.Findings
import TableAccess.Proofs.Binding.Mentions

/-! What a statement is found to read and write, one visit at a time. A table is found
where a visited scope has a name for it or declares it as a named query, and where an
insertion changes it. A column is found at a place of a visited scope, at one of its
outputs, or among the columns that the statement writes. -/
namespace TableAccess

namespace Findings

/-- The tables that were found. -/
def tables : Findings →+ Multiset String := AddMonoidHom.fst _ _

/-- The columns that were found, each with its table. -/
def columns : Findings →+ Multiset (String × String) :=
  (AddMonoidHom.fst _ _).comp (AddMonoidHom.snd _ _)

/-- The notes that were made. -/
def notes : Findings →+ Multiset Diagnostic := (AddMonoidHom.snd _ _).comp (AddMonoidHom.snd _ _)

@[simp] theorem tables_findings (a : Reading) : tables a.findings = (a.tables : Multiset String) := rfl

@[simp] theorem columns_findings (a : Reading) :
    columns a.findings = (a.columns : Multiset (String × String)) := rfl

/-- What is found in a sum is found in one of its parts. -/
theorem mem_sum {α β : Type} (part : Findings →+ Multiset β) {items : List α} {f : α → Findings}
    {x : β} : x ∈ part (items.map f).sum ↔ ∃ a ∈ items, x ∈ part (f a) := by
  induction items with
  | nil => simp
  | cons a rest ih => simp [ih]

end Findings

namespace Resolver
variable {r : Resolver} {frames : Frames}

@[simp] theorem tables_cut {depth : Nat} {what : String} {subject : Option String} :
    Findings.tables (r.cut depth what subject) = 0 := by
  unfold cut
  split <;> rfl

@[simp] theorem columns_cut {depth : Nat} {what : String} {subject : Option String} :
    Findings.columns (r.cut depth what subject) = 0 := by
  unfold cut
  split <;> rfl

theorem output_all (r : Resolver) (frames : Frames) :
    { r.output frames (.wildcard none) with outputs := [] } =
      Reading.ofColumns (frames.aliases.tables.map fun table => (table, everyColumn)) := by
  have all (tables : List String) (start : Reading) :
      { (tables.map (r.mentionAll frames)).foldl Reading.append start with outputs := [] } =
        { start with
          columns := start.columns ++ tables.map fun table => (table, everyColumn), outputs := [] } := by
    induction tables generalizing start with
    | nil => simp
    | cons table rest ih =>
      rw [List.map_cons, List.foldl_cons, ih]
      simp [Reading.append, mentionAll, Reading.empty]
  exact all frames.aliases.tables .empty

theorem columns_output_all (r : Resolver) (frames : Frames) :
    (r.output frames (.wildcard none)).columns =
      frames.aliases.tables.map fun table => (table, everyColumn) := by
  have same := congrArg Reading.columns (r.output_all frames)
  exact same

theorem columns_output_qualified (r : Resolver) (frames : Frames) (qualifier : String) :
    (r.output frames (.wildcard (some qualifier))).columns =
      (r.mention frames ⟨some qualifier, everyColumn⟩).columns := by
  have same := congrArg Reading.columns (r.output_qualified frames qualifier)
  exact same

theorem notes_output_all (r : Resolver) (frames : Frames) :
    (r.output frames (.wildcard none)).notes = [] := by
  have same := congrArg Reading.notes (r.output_all frames)
  exact same

theorem notes_output_qualified (r : Resolver) (frames : Frames) (qualifier : String) :
    (r.output frames (.wildcard (some qualifier))).notes =
      (r.mention frames ⟨some qualifier, everyColumn⟩).notes := by
  have same := congrArg Reading.notes (r.output_qualified frames qualifier)
  exact same

theorem tables_output (o : Output) : (r.output frames o).tables = [] := by
  match o with
  | .named name => rfl
  | .wildcard none => exact congrArg Reading.tables (r.output_all frames)
  | .wildcard (some qualifier) => exact congrArg Reading.tables (r.output_qualified frames qualifier)

end Resolver

/-- The columns that a scope mentions are those at its places. -/
theorem Scope.mem_columns {s : Scope} {column : ColumnRef} :
    column ∈ s.columns ↔ ∃ p ∈ Node.placesOf s.nodes, p.column? = some column := by
  rw [Scope.columns, Node.columnsOf_eq_places, List.mem_filterMap]

/-- A place records the mention of its column like any other mention. -/
theorem Place.mem_own_of_mention {r : Resolver} {frames : Frames} {depth : Nat} {p : Place}
    {column : ColumnRef} {pair : String × String} (at_ : p.column? = some column)
    (recorded : pair ∈ (r.mention frames column).columns) :
    pair ∈ Findings.columns (p.own r frames depth) := by
  match p with
  | .column c => cases at_; exact recorded
  | .argument call c => cases at_; exact Resolver.mem_mentionInCall.mpr (.inl recorded)
  | .subquery body => cases at_

theorem Place.tables_own {r : Resolver} {frames : Frames} {depth : Nat} (p : Place) :
    Findings.tables (p.own r frames depth) = 0 := by
  match p with
  | .column c => rfl
  | .subquery body => exact Resolver.tables_cut
  | .argument call c =>
    simp only [Place.own, Findings.tables_findings, Resolver.mentionInCall]
    split <;> rfl

namespace Visit
variable {r : Resolver} {outer : Chain} {v : Visit} {table : String} {pair : String × String}

/-- The tables of a visit are its named queries and those that its scope has names for. -/
theorem mem_tables_own : table ∈ Findings.tables (v.own r outer) ↔
    (∃ c ∈ v.scope.ctes, c.aliasName = table) ∨
      table ∈ (v.frame r outer).aliases.entries.map AliasEntry.table := by
  have outputs : table ∉ Findings.tables (if v.scope.isCombination then 0 else
      (r.outputs (Chain.frames r (v :: outer)) v.scope.outputs).findings) := by
    split
    · simp
    · simp [r.findings_outputs, Findings.mem_sum, Resolver.tables_output]
  simp only [own, map_add, Multiset.mem_add, Findings.mem_sum, outputs, or_false, Cte.own,
    Derived.own, Place.tables_own, Resolver.tables_cut]
  simp [Reading.ofNotes, Reading.ofTables, Reading.empty, eq_comm]

/-- The columns of a visit are those of its places, and those of its outputs if they are
read. -/
theorem mem_columns_own : pair ∈ Findings.columns (v.own r outer) ↔
    (∃ p ∈ Node.placesOf v.scope.nodes,
      pair ∈ Findings.columns (p.own r (Chain.frames r (v :: outer)) v.depth)) ∨
    (v.scope.isCombination = false ∧
      ∃ o ∈ v.scope.outputs, pair ∈ (r.output (Chain.frames r (v :: outer)) o).columns) := by
  simp only [own, map_add, Multiset.mem_add, Findings.mem_sum, Cte.own, Derived.own,
    Resolver.columns_cut, Findings.columns_findings, r.findings_outputs]
  simp only [Reading.ofNotes, Reading.ofTables, Reading.empty]
  cases v.scope.isCombination <;> simp [Findings.mem_sum]

end Visit

namespace Statement

/-- The scopes that a statement is made of. -/
def scopes : Statement → List Scope
  | .select scope => [scope]
  | .insert i => i.source.toList ++ (i.onConflict.map Update.scope).toList
  | .update u => [u.scope]
  | .delete scope => [scope]
  | .unknown => []

/-- The visits of all scopes of a statement. -/
def visits (r : Resolver) (s : Statement) : List Chain :=
  s.scopes.flatMap (Scope.visits r [] [] 0)

/-- Whether a scope is visited, in its chain, when a statement is read. -/
def Visited (r : Resolver) (s : Statement) (chain : Chain) : Prop :=
  ∃ whole ∈ s.scopes, whole.Visited r chain

theorem mem_visits_iff_visited {r : Resolver} {s : Statement} {chain : Chain} :
    chain ∈ s.visits r ↔ s.Visited r chain := by
  simp only [visits, Visited, List.mem_flatMap, Scope.mem_visits_iff_visited]

end Statement

/-- The columns that an update writes, as they are written there, each with the table that
is changed. -/
def Update.written (r : Resolver) (u : Update) : List (String × String) :=
  match u.table? with
  | some t => u.targets.map fun column => (r.catalog.canonical [] t.name, column)
  | none => []

namespace Statement

/-- The columns that a statement writes, each with the table that is changed. -/
def written (r : Resolver) : Statement → List (String × String)
  | .insert i =>
    (i.columns.map fun column => (r.catalog.canonical [] i.table.name, column))
      ++ (i.onConflict.map (Update.written r)).getD []
  | .update u => u.written r
  | _ => []

/-- The table that a statement adds rows to. -/
def filled (r : Resolver) : Statement → List String
  | .insert i => [r.catalog.canonical [] i.table.name]
  | _ => []

/-- What a statement is found to write, in the spelling of the database. -/
def writing (r : Resolver) (s : Statement) : Reading :=
  { Reading.empty with
    tables := s.filled r
    columns := (s.written r).map fun (table, column) => (table, r.catalog.spelling [] table column) }

end Statement

private theorem findings_scope (r : Resolver) (s : Scope) :
    (s.read r [] [] 0).findings = Chain.ownAll r (s.visits r [] [] 0) := s.accounted [] [] 0

private theorem findings_write (r : Resolver) (table : String) (columns : List String) :
    (r.write table columns).findings = (Reading.ofColumns ((columns.map fun column => (table, column)).map
      fun (table, column) => (table, r.catalog.spelling [] table column))).findings := by
  simp [Resolver.write, Function.comp_def]

private theorem findings_update (r : Resolver) (u : Update) : (u.read r).findings =
    (Reading.ofColumns ((u.written r).map
      fun (table, column) => (table, r.catalog.spelling [] table column))).findings
      + Chain.ownAll r (u.scope.visits r [] [] 0) := by
  unfold Update.read Update.written
  cases u.table? with
  | none => exact (findings_scope r u.scope).trans (zero_add _).symm
  | some t =>
    refine (Reading.findings_append _ _).trans ?_
    rw [findings_scope, findings_write, add_comm]

/-- **Every finding of a statement is written by it or belongs to a visit.** -/
theorem Statement.read_findings (r : Resolver) (s : Statement) :
    (s.read r).findings = (s.writing r).findings + Chain.ownAll r (s.visits r) := by
  match s with
  | .select scope | .delete scope =>
    simp only [read, visits, scopes, List.flatMap_cons, List.flatMap_nil, List.append_nil]
    exact (findings_scope r scope).trans (zero_add _).symm
  | .update u =>
    simp only [read, visits, scopes, List.flatMap_cons, List.flatMap_nil, List.append_nil]
    exact findings_update r u
  | .unknown => exact (add_zero _).symm
  | .insert ⟨table, columns, source, onConflict⟩ =>
    have split (pairs more : List (String × String)) (tables : List String) :
        { Reading.empty with tables, columns := pairs ++ more }.findings =
          (Reading.ofColumns pairs).findings + (Reading.ofTables tables).findings
            + (Reading.ofColumns more).findings := by
      simp [Reading.findings, Reading.ofColumns, Reading.ofTables, Reading.empty]
    simp only [read, Insert.read, visits, scopes, writing, written, Statement.filled,
      Reading.findings_append, findings_write, List.map_append, split, List.flatMap_append]
    cases source <;> cases onConflict <;>
      simp [findings_scope, findings_update, Reading.ofColumns] <;> abel

namespace Statement
variable {r : Resolver} {s : Statement} {table : String} {pair : String × String}

private theorem mem_read {β : Type} (part : Findings →+ Multiset β) {x : β} :
    x ∈ part (s.read r).findings ↔ x ∈ part (s.writing r).findings ∨
      ∃ v outer, s.Visited r (v :: outer) ∧ x ∈ part (v.own r outer) := by
  rw [read_findings, map_add, Multiset.mem_add, Chain.ownAll, Findings.mem_sum]
  refine or_congr_right ⟨?_, ?_⟩
  · rintro ⟨chain, visited, found⟩
    cases chain with
    | nil => simp [Chain.own] at found
    | cons v outer => exact ⟨v, outer, mem_visits_iff_visited.mp visited, found⟩
  · rintro ⟨v, outer, visited, found⟩
    exact ⟨v :: outer, mem_visits_iff_visited.mpr visited, found⟩

/-- A table is found where a statement adds rows to it, or where a visited scope declares
it or has a name for it. -/
theorem mem_tables_read : table ∈ (s.read r).tables ↔ table ∈ s.filled r ∨
    ∃ v outer, s.Visited r (v :: outer) ∧ ((∃ c ∈ v.scope.ctes, c.aliasName = table) ∨
      table ∈ (v.frame r outer).aliases.entries.map AliasEntry.table) := by
  have found := mem_read (s := s) (r := r) Findings.tables (x := table)
  simp only [Findings.tables_findings, Multiset.mem_coe, Visit.mem_tables_own] at found
  exact found

/-- A column is found where a statement writes it, or at a visit. -/
theorem mem_columns_read : pair ∈ (s.read r).columns ↔
    (∃ column, (pair.1, column) ∈ s.written r ∧ pair.2 = r.catalog.spelling [] pair.1 column) ∨
    ∃ v outer, s.Visited r (v :: outer) ∧ pair ∈ Findings.columns (v.own r outer) := by
  have found := mem_read (s := s) (r := r) Findings.columns (x := pair)
  simp only [Findings.columns_findings, Multiset.mem_coe] at found
  rw [found, writing, List.mem_map]
  refine or_congr_left ⟨?_, ?_⟩
  · rintro ⟨⟨table, column⟩, written, rfl⟩
    exact ⟨column, written, rfl⟩
  · rintro ⟨column, written, spelled⟩
    exact ⟨_, written, Prod.ext rfl spelled.symm⟩

/-- A note is made at a visit. -/
theorem mem_notes_read {n : Diagnostic} : n ∈ (s.read r).notes ↔
    ∃ v outer, s.Visited r (v :: outer) ∧ n ∈ Findings.notes (v.own r outer) := by
  have found : n ∈ Findings.notes (s.read r).findings ↔ _ := mem_read Findings.notes
  have unwritten : n ∉ Findings.notes (s.writing r).findings := Multiset.notMem_zero n
  exact found.trans (or_iff_right unwritten)

/-- What a mention of a column records in a visited scope is found in the statement. -/
theorem mem_columns_of_mention {chain : Chain} {column : ColumnRef} (visited : s.Visited r chain)
    (mentions : column ∈ chain.scope.columns)
    (recorded : pair ∈ (r.mention (chain.frames r) column).columns) : pair ∈ (s.read r).columns := by
  obtain ⟨p, place, at_⟩ := Scope.mem_columns.mp mentions
  cases chain with
  | nil => cases place
  | cons v outer =>
    exact mem_columns_read.mpr (.inr ⟨v, outer, visited,
      Visit.mem_columns_own.mpr (.inl ⟨p, place, Place.mem_own_of_mention at_ recorded⟩)⟩)

end Statement

end TableAccess
