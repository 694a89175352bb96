import TableAccess.Proofs.Access.Contents

/-! The recorded columns are accounted for in both directions. Every column that a visited
scope mentions is recorded in the bucket that it is attributed to, under its own name up to
case. And every recorded name has a reason: such a mention, a column that the statement
writes, a wildcard, or a call with a qualified column directly among its arguments. -/
namespace TableAccess

/-- Whether a wildcard among the outputs of a scope covers a bucket: all tables of the scope
without a qualifier, or else the one that the qualifier is attributed to. -/
def Chain.Covers (r : Resolver) (chain : Chain) (key : String) : Prop :=
  (.wildcard none ∈ chain.scope.outputs ∧ key ∈ (chain.frames r).aliases.tables) ∨
  ∃ qualifier, .wildcard (some qualifier) ∈ chain.scope.outputs ∧
    (r.catalog.attributionOf (chain.frames r) ⟨some qualifier, everyColumn⟩).bucket = key

/-- The reasons for which a statement has a name recorded under a key. -/
inductive Statement.Reason (r : Resolver) (s : Statement) (key name : String) : Prop where
  /-- A visited scope mentions the column, and it is attributed to the key. -/
  | mentioned {chain : Chain} {column : ColumnRef} (visited : s.Visited r chain)
      (mentions : column ∈ chain.scope.columns)
      (belongs : (r.catalog.attributionOf (chain.frames r) column).bucket = key)
      (same : sameName name column.name = true)
  /-- The statement writes the column in the table. -/
  | written {column : String} (writes : (key, column) ∈ s.written r)
      (same : sameName name column = true)
  /-- A wildcard of a visited scope covers the key. -/
  | covered {chain : Chain} (visited : s.Visited r chain) (covers : chain.Covers r key)
      (all : name = everyColumn)
  /-- A call, by its written form, has a qualified column of the table among its arguments. -/
  | called {chain : Chain} {column : ColumnRef} (visited : s.Visited r chain)
      (argument : .argument name column ∈ Node.placesOf chain.scope.nodes)
      (qualified : column.qualifier.isSome = true)
      (belongs : r.catalog.attributionOf (chain.frames r) column = .table key)

namespace Statement
variable {r : Resolver} {s : Statement} {chain : Chain} {column : ColumnRef}

/-- No mention of a column is lost. -/
theorem mention_recorded (visited : s.Visited r chain) (mentions : column ∈ chain.scope.columns) :
    ∃ name, sameName name column.name = true ∧
      ((r.catalog.attributionOf (chain.frames r) column).bucket, name) ∈ (s.read r).columns := by
  obtain ⟨name, same, recorded⟩ := r.mention_columns (chain.frames r) column
  refine ⟨name, same, mem_columns_of_mention visited mentions ?_⟩
  rw [recorded]
  exact List.mem_cons_self

private theorem reason_of_mention {pair : String × String} (visited : s.Visited r chain)
    (mentions : column ∈ chain.scope.columns)
    (recorded : pair ∈ (r.mention (chain.frames r) column).columns) :
    s.Reason r pair.1 pair.2 := by
  obtain ⟨name, same, columns⟩ := r.mention_columns (chain.frames r) column
  rw [columns, List.mem_singleton] at recorded
  subst recorded
  exact .mentioned visited mentions rfl same

private theorem reason_of_place {pair : String × String} {depth : Nat} {p : Place}
    (visited : s.Visited r chain) (place : p ∈ Node.placesOf chain.scope.nodes)
    (recorded : pair ∈ Findings.columns (p.own r (chain.frames r) depth)) :
    s.Reason r pair.1 pair.2 := by
  match p with
  | .column c => exact reason_of_mention visited (Scope.mem_columns.mpr ⟨_, place, rfl⟩) recorded
  | .subquery body => simp [Place.own] at recorded
  | .argument call c =>
    rcases Resolver.mem_mentionInCall.mp recorded with recorded | ⟨qualified, belongs, rfl⟩
    · exact reason_of_mention visited (Scope.mem_columns.mpr ⟨_, place, rfl⟩) recorded
    · exact .called visited place qualified belongs

private theorem reason_of_output {pair : String × String} {o : Output}
    (visited : s.Visited r chain) (output : o ∈ chain.scope.outputs)
    (recorded : pair ∈ (r.output (chain.frames r) o).columns) : s.Reason r pair.1 pair.2 := by
  match o with
  | .named name => cases recorded
  | .wildcard none =>
    rw [r.columns_output_all] at recorded
    obtain ⟨table, held, rfl⟩ := List.mem_map.mp recorded
    exact .covered visited (.inl ⟨output, held⟩) rfl
  | .wildcard (some qualifier) =>
    rw [r.columns_output_qualified] at recorded
    obtain ⟨name, same, columns⟩ := r.mention_columns (chain.frames r) ⟨some qualifier, everyColumn⟩
    rw [columns, List.mem_singleton] at recorded
    subst recorded
    exact .covered visited (.inr ⟨qualifier, output, rfl⟩) (eq_everyColumn_of_same same)

/-- No column is recorded without a reason. -/
theorem reason_of_recorded {key name : String} (recorded : (key, name) ∈ (s.read r).columns) :
    s.Reason r key name := by
  rcases mem_columns_read.mp recorded with ⟨column, writes, spelled⟩ | ⟨v, outer, visited, recorded⟩
  · refine .written writes ?_
    rw [show name = _ from spelled]
    exact Catalog.sameName_spelling column
  · rcases Visit.mem_columns_own.mp recorded with ⟨p, place, recorded⟩ | ⟨_, o, output, recorded⟩
    · exact reason_of_place visited place recorded
    · exact reason_of_output visited output recorded

/-- **The recorded columns are exactly accounted for.** -/
theorem columns_accounted_for (r : Resolver) (s : Statement) (id : Option StatementId) :
    (∀ chain, s.Visited r chain → ∀ column ∈ chain.scope.columns,
      ∃ name ∈ (r.resolve s id).access.columnsOf
          (r.catalog.attributionOf (chain.frames r) column).bucket,
        sameName name column.name = true) ∧
    ∀ key, ∀ name ∈ (r.resolve s id).access.columnsOf key, s.Reason r key name := by
  constructor
  · intro chain visited column mentions
    obtain ⟨name, same, recorded⟩ := mention_recorded visited mentions
    exact ⟨name, Resolver.mem_columnsOf_resolve.mpr recorded, same⟩
  · intro key name recorded
    exact reason_of_recorded (Resolver.mem_columnsOf_resolve.mp recorded)

end Statement
end TableAccess
