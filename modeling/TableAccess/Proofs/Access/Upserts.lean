import TableAccess.Proofs.Access.BucketNotes
import TableAccess.Proofs.Access.QualifiedTargets
import TableAccess.Proofs.Access.RecordedColumns

/-! What an insertion does to rows that exist already. It is read as an update whose scope has the table
of the insertion under several names and nothing else, so a column belongs to that table without a name
in front of it, and with any of the names that the scope has; whatever the rows come from is another
scope. A name is not found there if it is not what the scope took it for when it was read. -/
namespace TableAccess

/-- Whether a scope has one table for its only source, under one or more names. -/
structure Scope.Single (s : Scope) (table : String) : Prop where
  ctes : s.ctes = []
  derived : s.derived = []
  some_ : s.tables ≠ []
  named : ∀ t ∈ s.tables, t.name = table

theorem Scope.single_of_aliases {s : Scope} {table : String} {first : Option String} (names : List String)
    (ctes : s.ctes = []) (derived : s.derived = [])
    (tables : s.tables = ⟨table, first⟩ :: names.map fun name => ⟨table, some name⟩) : s.Single table where
  ctes := ctes
  derived := derived
  some_ := tables ▸ List.cons_ne_nil _ _
  named := tables ▸ List.forall_mem_cons.mpr ⟨rfl, List.forall_mem_map.mpr fun _ _ => rfl⟩

namespace Scope.Single
variable {r : Resolver} {s : Scope} {table : String} {c : ColumnRef}

/-- All that such a scope declares is its table. -/
theorem declarations_eq (single : s.Single table) :
    s.declarations (r.catalog.canonical (s.visible r [] [] 0)) =
      s.tables.map fun t => ⟨t.key, r.catalog.canonical [] table⟩ := by
  have unhidden : ∀ c ∈ s.ctes, ∀ t ∈ s.tables, sameName c.aliasName t.name = false := by simp [single.ctes]
  rw [declarations_of_unhidden single.derived unhidden]
  exact List.map_congr_left fun t member => by rw [single.named t member]

/-- A column without a qualifier belongs to the table. -/
theorem attributionOf_bare (single : s.Single table) (bare : c.qualifier = none) :
    r.catalog.attributionOf (Chain.frames r [⟨s, [], 0⟩]) c = .table (r.catalog.canonical [] table) := by
  have tables : (s.frame r [] [] 0).aliases.tables = [r.catalog.canonical [] table] := by
    rw [s.frame_aliases, single.declarations_eq]
    refine AliasMap.tables_of_table (fun none_ => ?_) fun e held => ?_
    · exact single.some_ (List.map_eq_nil_iff.mp (AliasMap.entries_declareAll_eq_nil.mp none_).2)
    · have declared := (AliasMap.mem_declarations_of_mem_entries held).resolve_left List.not_mem_nil
      obtain ⟨t, _, rfl⟩ := List.mem_map.mp declared
      rfl
  have only : (Chain.frames r [⟨s, [], 0⟩]).aliases.tables = [r.catalog.canonical [] table] := tables
  simp only [Catalog.attributionOf, bare, only]

/-- A column with a qualifier belongs to the table if the qualifier is one of its names. -/
theorem attributionOf_qualified {q : String} (single : s.Single table) (qualified : c.qualifier = some q) :
    r.catalog.attributionOf (Chain.frames r [⟨s, [], 0⟩]) c =
      if hasName (s.tables.map TableRef.key) q then .table (r.catalog.canonical [] table)
      else .unknown (.unboundQualifier q) := by
  have own : (s.frame r [] [] 0).aliases.find? q =
      if hasName (s.tables.map TableRef.key) q then some (r.catalog.canonical [] table) else none := by
    have same : ∀ e ∈ s.tables.map fun t => (⟨t.key, r.catalog.canonical [] table⟩ : AliasEntry),
        e.table = r.catalog.canonical [] table := List.forall_mem_map.mpr fun _ _ => rfl
    rw [s.find?_frame, single.declarations_eq, AliasMap.lastDeclared_of_table same, List.map_map]
    rfl
  have means : (Chain.frames r [⟨s, [], 0⟩]).lookup q =
      if hasName (s.tables.map TableRef.key) q then some (r.catalog.canonical [] table) else none := by
    rw [Chain.frames, Frames.lookup, Chain.frames, own, Frames.lookup, Option.orElse_eq_or, Option.or_none]
  rw [Catalog.attributionOf_qualified qualified, means]
  cases hasName (s.tables.map TableRef.key) q <;> simp

end Scope.Single

namespace Sql.Insertion
variable {i : Insertion} {u : TableAccess.Update} {r : Resolver} {id : Option StatementId}

/-- The table that an insertion adds rows to, as it is known. -/
def target (r : Resolver) (i : Insertion) : String := r.catalog.canonical [] (Name.last i.table)

/-- What a name of several parts is called: its last part without its quotes, or as it is rendered. -/
def lastNames (n : Name) : List String := [Name.last n] ++ (n.getLast?.map Ident.value).toList

/-- The names that the row of an insertion has where it exists already, and the new row, if it has a name:
the alias or the name of the table, and what the clause calls the new row. -/
def rowNames (i : Insertion) : List String :=
  (match i.aliasName with
    | some aliasName => [aliasName.value]
    | none => lastNames i.table) ++
  match i.upsert with
  | some .duplicateKey => (i.rowAlias.map lastNames).getD []
  | some (.update _) => ["excluded"]
  | _ => []

/-- Whether a column has no name in front of it, or one of those of the row. -/
def CallsRow (i : Insertion) (c : ColumnRef) : Prop :=
  ∀ q ∈ c.qualifier, hasName i.rowNames q = true

/-- Where something happens to rows that exist already, its scope has the table of the insertion only. -/
theorem single_upsert (upserts : i.outline.onConflict = some u) :
    u.scope.Single (Name.last i.table) ∧
    u.table? = some ⟨Name.last i.table, i.aliasName.map Ident.value⟩ := by
  have found : i.upsertOutline ⟨Name.last i.table, i.aliasName.map Ident.value⟩ = some u := upserts
  unfold upsertOutline at found
  split at found
  · cases found
  · obtain rfl := Option.some.inj found
    cases i.rowAlias with
    | none => exact ⟨Scope.single_of_aliases [] rfl rfl rfl, rfl⟩
    | some row => exact ⟨Scope.single_of_aliases [Name.last row] rfl rfl rfl, rfl⟩
  · dsimp only at found
    split at found
    · cases found
    · obtain rfl := Option.some.inj found
      exact ⟨Scope.single_of_aliases [] rfl rfl rfl, rfl⟩
  · obtain rfl := Option.some.inj found
    exact ⟨Scope.single_of_aliases ["excluded"] rfl rfl rfl, rfl⟩

/-- The mention of a column in what happens to rows that exist already. -/
def upsertMention (u : TableAccess.Update) (c : ColumnRef) : Mention := ⟨[⟨u.scope, [], 0⟩], c⟩

/-- Whether what happens to rows that exist already stays with the table of the insertion: each column
that is set is recorded for it, and so is each mention of a column of the row, without a note. -/
structure KeepsUpsert (r : Resolver) (i : Insertion) (u : TableAccess.Update) (a : Access) : Prop where
  targets : ∀ column ∈ u.targets, a.HasColumn (i.target r) column
  mentions : ∀ c ∈ u.scope.columns, i.CallsRow c →
    upsertMention u c ∈ (TableAccess.Statement.insert i.outline).mentions r ∧
      a.HasColumn (i.target r) c.name ∧ (upsertMention u c).attribution r = .table (i.target r) ∧
      (upsertMention u c).note r = none

/-- **What an insertion does to rows that exist already stays with its table exactly if each name of the
row that stands in front of a column is one that the scope has for it.** -/
theorem keepsUpsert_iff (upserts : i.outline.onConflict = some u) :
    i.KeepsUpsert r u (r.resolve (.insert i.outline) id).access ↔
      ∀ c ∈ u.scope.columns, ∀ q ∈ c.qualifier, hasName i.rowNames q = true →
        hasName (u.scope.tables.map TableRef.key) q = true := by
  obtain ⟨single, first⟩ := single_upsert upserts
  have visited : (TableAccess.Statement.insert i.outline).Visited r [⟨u.scope, [], 0⟩] :=
    ⟨u.scope, List.mem_append_right _ (by simp [upserts]), .whole⟩
  constructor
  · rintro ⟨_, mentioned⟩ c member q qualified named
    have calls : i.CallsRow c := fun q' same => Option.some.inj (qualified.symm.trans same) ▸ named
    by_contra unknown
    have attributed : (upsertMention u c).attribution r = .unknown (.unboundQualifier q) :=
      (single.attributionOf_qualified qualified).trans (if_neg unknown)
    cases attributed.symm.trans (mentioned c member calls).2.2.1
  · intro named
    refine ⟨fun column member => ?_, fun c member calls => ?_⟩
    · have written : (i.target r, column) ∈ (TableAccess.Statement.insert i.outline).written r := by
        refine List.mem_append_right _ ?_
        rw [upserts, Option.map_some, Option.getD_some, TableAccess.Update.written, first]
        exact List.mem_map_of_mem member
      exact ⟨_, Resolver.mem_columnsOf_resolve.mpr (TableAccess.Statement.mem_columns_read.mpr
        (.inl ⟨column, written, rfl⟩)), Catalog.sameName_spelling column⟩
    · have belongs : (upsertMention u c).attribution r = .table (i.target r) := by
        cases qualified : c.qualifier with
        | none => exact single.attributionOf_bare qualified
        | some q =>
          have known := named c member q qualified (calls q qualified)
          exact (single.attributionOf_qualified qualified).trans (if_pos known)
      obtain ⟨name, same, recorded⟩ := TableAccess.Statement.mention_recorded visited member
      have bucket : (r.catalog.attributionOf (Chain.frames r [⟨u.scope, [], 0⟩]) c).bucket = i.target r :=
        congrArg Attribution.bucket belongs
      rw [bucket] at recorded
      refine ⟨TableAccess.Statement.mem_mentions.mpr ⟨visited, List.mem_append_left _ member⟩,
        ⟨name, Resolver.mem_columnsOf_resolve.mpr recorded, same⟩, belongs, ?_⟩
      rw [Mention.note, belongs]
      rfl

/-- The insertion that a text is, with what happens to rows that exist already, if it is nothing else. -/
def ofText? (d : Dialect) (text : String) : Option (Insertion × TableAccess.Update) :=
  match statements d text with
  | .ok [.insertion i] => i.outline.onConflict.map fun u => (i, u)
  | _ => none

private theorem exists_of_ofText? {β : Type} {d : Dialect} {text : String}
    {f : Insertion × TableAccess.Update → β} {b : β} (facts : (ofText? d text).map f = some b) :
    ∃ i u, ofText? d text = some (i, u) ∧ i.outline.onConflict = some u ∧ f (i, u) = b := by
  obtain ⟨⟨i, u⟩, read, same⟩ := Option.map_eq_some_iff.mp facts
  refine ⟨i, u, read, ?_, same⟩
  unfold ofText? at read
  split at read
  · obtain ⟨u', upserts, pair⟩ := Option.map_eq_some_iff.mp read
    obtain ⟨rfl, rfl⟩ := Prod.mk.inj pair
    exact upserts
  · cases read

/-- The row that was to be inserted has its usual name. -/
theorem keepsUpsert_iff_excluded :
    ∃ i u, ofText? .postgresql
        "INSERT INTO t SELECT a, b FROM s ON CONFLICT (a) DO UPDATE SET b = EXCLUDED.b + t.b" = some (i, u) ∧
      i.outline.onConflict = some u ∧
      u.scope.columns = [⟨none, "a"⟩, ⟨some "EXCLUDED", "b"⟩, ⟨some "t", "b"⟩] ∧
      i.KeepsUpsert ⟨.ofTables [], 32⟩ u
        (Resolver.resolve ⟨.ofTables [], 32⟩ (.insert i.outline) none).access := by
  have facts : (ofText? .postgresql
      "INSERT INTO t SELECT a, b FROM s ON CONFLICT (a) DO UPDATE SET b = EXCLUDED.b + t.b").map
        (fun (_, u) => (u.scope.columns, u.scope.tables.map TableRef.key)) =
      some ([⟨none, "a"⟩, ⟨some "EXCLUDED", "b"⟩, ⟨some "t", "b"⟩], ["t", "excluded"]) := by decide +kernel
  obtain ⟨i, u, read, upserts, same⟩ := exists_of_ofText? facts
  obtain ⟨columns, keys⟩ : u.scope.columns = [⟨none, "a"⟩, ⟨some "EXCLUDED", "b"⟩, ⟨some "t", "b"⟩] ∧
      u.scope.tables.map TableRef.key = ["t", "excluded"] := by simpa using same
  have row : hasName ["t", "excluded"] "EXCLUDED" = true :=
    List.any_eq_true.mpr ⟨"excluded", by simp, sameName_iff.mpr (fold_eq_fold_iff.mpr (by decide))⟩
  have table : hasName ["t", "excluded"] "t" = true :=
    List.any_eq_true.mpr ⟨"t", by simp, sameName_refl "t"⟩
  refine ⟨i, u, read, upserts, columns, (keepsUpsert_iff upserts).mpr ?_⟩
  rw [columns, keys]
  simp [row, table]

/-- A new row whose name has a quote in it is not found by that name. -/
theorem row_not_found :
    ∃ i u, ofText? .mysql
        "INSERT INTO t (a) VALUES (1) AS \x60n\x60\x60w\x60 ON DUPLICATE KEY UPDATE a = \x60n\x60\x60w\x60.a" =
          some (i, u) ∧
      i.outline.onConflict = some u ∧
      i.rowAlias.map (·.map Ident.value) = some ["n\x60w"] ∧ u.scope.columns = [⟨some "n\x60w", "a"⟩] ∧
      ¬ i.KeepsUpsert ⟨.ofTables [], 32⟩ u
        (Resolver.resolve ⟨.ofTables [], 32⟩ (.insert i.outline) none).access := by
  have facts : (ofText? .mysql
      "INSERT INTO t (a) VALUES (1) AS \x60n\x60\x60w\x60 ON DUPLICATE KEY UPDATE a = \x60n\x60\x60w\x60.a").map
        (fun (i, u) => (i.rowAlias.map (·.map Ident.value), i.rowNames, u.scope.columns,
          u.scope.tables.map TableRef.key)) =
      some (some ["n\x60w"], ["t", "t", "n\x60\x60w", "n\x60w"], [⟨some "n\x60w", "a"⟩],
        ["t", "n\x60\x60w"]) := by decide +kernel
  obtain ⟨i, u, read, upserts, same⟩ := exists_of_ofText? facts
  obtain ⟨row, names, columns, keys⟩ : i.rowAlias.map (·.map Ident.value) = some ["n\x60w"] ∧
      i.rowNames = ["t", "t", "n\x60\x60w", "n\x60w"] ∧ u.scope.columns = [⟨some "n\x60w", "a"⟩] ∧
      u.scope.tables.map TableRef.key = ["t", "n\x60\x60w"] := by simpa using same
  refine ⟨i, u, read, upserts, row, columns, fun ⟨_, mentioned⟩ => ?_⟩
  have calls : i.CallsRow ⟨some "n\x60w", "a"⟩ := by
    rintro q ⟨⟩
    exact List.any_eq_true.mpr ⟨"n\x60w", by simp [names], sameName_refl _⟩
  have unbound : hasName (u.scope.tables.map TableRef.key) "n\x60w" = false := by
    rw [keys, hasName, List.any_eq_false]
    simp only [List.forall_mem_cons, sameName_iff, fold_eq_fold_iff]
    decide
  have unknown : (upsertMention u ⟨some "n\x60w", "a"⟩).attribution ⟨.ofTables [], 32⟩ =
      .unknown (.unboundQualifier "n\x60w") :=
    ((single_upsert upserts).1.attributionOf_qualified rfl).trans (if_neg (Bool.eq_false_iff.mp unbound))
  obtain ⟨_, _, belongs, _⟩ := mentioned _ (columns ▸ List.mem_singleton_self _) calls
  cases unknown.symm.trans belongs

end Sql.Insertion
end TableAccess
