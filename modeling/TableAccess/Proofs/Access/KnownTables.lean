import TableAccess.Proofs.Access.Contents

/-! Columns are recorded for known tables only. Whatever a scope records belongs to a table
that some scope of its chain has a name for. Its own output need not list that table, but
the scopes of the chain are all visited, and each lists the tables that it names; so in the
whole statement nothing is recorded for a table that is not listed. An update breaks this
where its target is not what its scope calls by that name. -/
namespace TableAccess

theorem Chain.mem_frames {r : Resolver} {chain : Chain} {frame : Frame} :
    frame ∈ chain.frames r ↔
      ∃ inner v outer, chain = inner ++ v :: outer ∧ frame = v.frame r outer := by
  induction chain with
  | nil => simp [Chain.frames]
  | cons head rest ih =>
    rw [Chain.frames, List.mem_cons, ih]
    constructor
    · rintro (rfl | ⟨inner, v, outer, rfl, rfl⟩)
      · exact ⟨[], head, rest, rfl, rfl⟩
      · exact ⟨head :: inner, v, outer, rfl, rfl⟩
    · rintro ⟨inner, v, outer, split, rfl⟩
      cases inner with
      | nil =>
        obtain ⟨rfl, rfl⟩ := List.cons.inj split
        exact .inl rfl
      | cons first inner =>
        obtain ⟨rfl, rfl⟩ := List.cons.inj split
        exact .inr ⟨inner, v, outer, rfl, rfl⟩

/-- Whether columns may be recorded under a name along a chain: it is a table that the chain
has a name for, or one of the buckets. -/
def Frames.Admits (frames : Frames) (key : String) : Prop :=
  frames.Names key ∨ key = ambiguousBucket ∨ key = unknownBucket

section
variable {r : Resolver} {frames : Frames} {pair : String × String}

private theorem mention_admitted {column : ColumnRef}
    (found : pair ∈ (r.mention frames column).columns) : frames.Admits pair.1 := by
  obtain ⟨name, _, recorded⟩ := r.mention_columns frames column
  rw [recorded, List.mem_singleton] at found
  exact found ▸ Catalog.names_of_bucket

theorem Place.columns_admitted {depth : Nat} {p : Place}
    (found : pair ∈ Findings.columns (p.own r frames depth)) : frames.Admits pair.1 := by
  match p with
  | .column c => exact mention_admitted found
  | .subquery body => simp [Place.own] at found
  | .argument call c =>
    rcases Resolver.mem_mentionInCall.mp found with found | ⟨_, belongs, _⟩
    · exact mention_admitted found
    · exact .inl (Catalog.names_of_attributionOf belongs)

theorem Resolver.output_admitted {o : Output} (found : pair ∈ (r.output frames o).columns) :
    frames.Admits pair.1 := by
  match o with
  | .named name => cases found
  | .wildcard none =>
    rw [r.columns_output_all] at found
    obtain ⟨table, held, rfl⟩ := List.mem_map.mp found
    exact .inl (Frames.names_of_mem_tables held)
  | .wildcard (some qualifier) =>
    rw [r.columns_output_qualified] at found
    exact mention_admitted found

/-- A visit records columns only where its chain admits them. -/
theorem Visit.columns_admitted {v : Visit} {outer : Chain}
    (found : pair ∈ Findings.columns (v.own r outer)) :
    (Chain.frames r (v :: outer)).Admits pair.1 := by
  rcases Visit.mem_columns_own.mp found with ⟨p, _, found⟩ | ⟨_, o, _, found⟩
  · exact p.columns_admitted found
  · exact Resolver.output_admitted found

end

namespace Statement
variable {r : Resolver} {s : Statement} {chain : Chain} {table : String}

/-- The scopes that a visited scope sees list their tables themselves. -/
theorem mem_tables_of_names (visited : s.Visited r chain)
    (named : (chain.frames r).Names table) : table ∈ (s.read r).tables := by
  obtain ⟨whole, part, visited⟩ := visited
  obtain ⟨frame, member, held⟩ := named
  obtain ⟨inner, v, outer, rfl, rfl⟩ := Chain.mem_frames.mp member
  exact mem_tables_read.mpr (.inr ⟨v, outer, ⟨whole, part, visited.outward⟩, .inr held⟩)

/-- Whether a statement writes in no table but one that it adds rows to. The update that an
insertion falls back to names the table of the insertion. -/
def WritesWhereItFills : Statement → Prop
  | .insert i => ∀ update ∈ i.onConflict, ∀ t ∈ update.scope.tables, t.name = i.table.name
  | .update _ => False
  | _ => True

private theorem filled_of_written (shape : s.WritesWhereItFills) {column : String}
    (written : (table, column) ∈ s.written r) : table ∈ s.filled r := by
  match s with
  | .select _ | .delete _ | .unknown => cases written
  | .update _ => cases shape
  | .insert ⟨target, columns, source, onConflict⟩ =>
    simp only [Statement.filled, List.mem_singleton]
    rcases List.mem_append.mp written with written | written
    · obtain ⟨_, _, same⟩ := List.mem_map.mp written
      exact (congrArg Prod.fst same).symm
    · cases onConflict with
      | none => cases written
      | some update =>
        simp only [Option.map_some, Option.getD_some, Update.written] at written
        cases first : update.table? with
        | none => simp [first] at written
        | some t =>
          rw [first] at written
          obtain ⟨_, _, same⟩ := List.mem_map.mp written
          rw [← shape update rfl t (List.mem_of_head? first)]
          exact (congrArg Prod.fst same).symm

/-- **Columns are recorded for known tables only.** -/
theorem recorded_tables_known (r : Resolver) (s : Statement) (id : Option StatementId)
    (shape : s.WritesWhereItFills) :
    ∀ key ∈ (r.resolve s id).access.columns.map Prod.fst,
      key ∈ (r.resolve s id).access.tables ∨ key = ambiguousBucket ∨ key = unknownBucket := by
  intro key recorded
  obtain ⟨name, found⟩ := Resolver.mem_columns_keys_resolve.mp recorded
  rcases mem_columns_read.mp found with ⟨column, written, _⟩ | ⟨v, outer, visited, found⟩
  · exact .inl (Resolver.mem_tables_resolve.mpr
      (mem_tables_read.mpr (.inl (filled_of_written shape written))))
  · exact (Visit.columns_admitted found).imp_left fun named =>
      Resolver.mem_tables_resolve.mpr (mem_tables_of_names visited named)

/-- An insertion from a named query, where a subquery of a condition reads a column of the
scope around it and one of no scope, and an update for the rows that exist already. -/
def correlatedInsertion : Insert where
  table := ⟨"Orders", none⟩
  columns := ["user_id"]
  source := some
    { ctes := [⟨"recent", [], ⟨[], [⟨"orders", some "o"⟩], [], [], [.wildcard none]⟩⟩]
      tables := [⟨"recent", some "r"⟩, ⟨"users", some "u"⟩], derived := []
      nodes :=
        [.call "lower" "lower(u.name)" [.column ⟨some "u", "name"⟩],
          .subquery ⟨[], [⟨"items", some "i"⟩], [],
            [.column ⟨some "r", "user_id"⟩, .column ⟨some "x", "id"⟩], [.named "id"]⟩]
      outputs := [.wildcard (some "r")] }
  onConflict := some
    ⟨["user_id"], ⟨[], [⟨"Orders", none⟩], [], [.column ⟨some "excluded", "user_id"⟩], []⟩⟩

theorem recorded_tables_known_correlated :
    let r : Resolver := ⟨.ofTables [⟨"orders", ["id", "user_id"]⟩], 2⟩
    let access := (r.resolve (.insert correlatedInsertion) none).access
    (Statement.insert correlatedInsertion).WritesWhereItFills ∧
      "recent" ∈ access.columns.map Prod.fst ∧
      ∀ key ∈ access.columns.map Prod.fst,
        key ∈ access.tables ∨ key = ambiguousBucket ∨ key = unknownBucket := by
  have shape : (Statement.insert correlatedInsertion).WritesWhereItFills := by
    rintro update ⟨⟩ t present
    exact List.mem_singleton.mp present ▸ rfl
  have recorded : ("recent", "user_id") ∈ (Statement.read
      ⟨.ofTables [⟨"orders", ["id", "user_id"]⟩], 2⟩ (.insert correlatedInsertion)).columns := by
    decide +kernel
  exact ⟨shape, Resolver.mem_columns_keys_resolve.mpr ⟨_, recorded⟩,
    recorded_tables_known _ _ _ shape⟩

end Statement
end TableAccess
