import TableAccess.Proofs.Binding.Aliases

/-! What one mention of a column leaves behind. A column belongs to a table that some scope
of the chain names, or to one of the buckets, and is recorded there under its own name up
to case. A wildcard with a qualifier is recorded just like a column. -/
namespace TableAccess

namespace Frames
variable {frames : Frames} {qualifier table : String}

theorem lookup_of_own (found : frames.aliases.find? qualifier = some table) :
    frames.lookup qualifier = some table := by
  cases frames with
  | nil => cases found
  | cons frame outer =>
    rw [lookup, show frame.aliases.find? qualifier = some table from found]
    rfl

/-- Whether some scope of the chain has a name for a table. -/
def Names (frames : Frames) (table : String) : Prop :=
  ∃ frame ∈ frames, table ∈ frame.aliases.entries.map AliasEntry.table

theorem names_of_lookup (found : frames.lookup qualifier = some table) : frames.Names table := by
  induction frames with
  | nil => cases found
  | cons head rest ih =>
    rw [lookup, Option.orElse_eq_or] at found
    rcases Option.or_eq_some_iff.mp found with own | ⟨_, found⟩
    · exact ⟨head, List.mem_cons_self, AliasMap.mem_tables_of_find? own⟩
    · obtain ⟨frame, member, held⟩ := ih found
      exact ⟨frame, List.mem_cons_of_mem _ member, held⟩

theorem names_of_mem_tables (held : table ∈ frames.aliases.tables) : frames.Names table := by
  cases frames with
  | nil => cases held
  | cons frame outer => exact ⟨frame, List.mem_cons_self, AliasMap.mem_entries_of_mem_tables held⟩

end Frames

namespace Attribution
variable {tables several : List String} {table : String} {reason : UnknownReason}

/-- A table is chosen if it is the only one. -/
theorem ofMatches_eq_table_iff : ofMatches tables = .table table ↔ tables = [table] := by
  rcases tables with _ | ⟨only, _ | ⟨second, rest⟩⟩ <;> simp [ofMatches]

theorem ofMatches_eq_ambiguous_iff :
    ofMatches tables = .ambiguous several ↔ 1 < tables.length ∧ several = tables := by
  rcases tables with _ | ⟨only, _ | ⟨second, rest⟩⟩ <;> simp [ofMatches, eq_comm]

theorem ofMatches_eq_unknown_iff :
    ofMatches tables = .unknown reason ↔ tables = [] ∧ reason = .noMatchingTable := by
  rcases tables with _ | ⟨only, _ | ⟨second, rest⟩⟩ <;> simp [ofMatches, eq_comm]

end Attribution

namespace Catalog
variable {c : Catalog} {frames : Frames} {column : ColumnRef} {table : String}

theorem attributionOf_qualified {qualifier : String} (qualified : column.qualifier = some qualifier) :
    c.attributionOf frames column = match frames.lookup qualifier with
      | some table => .table table
      | none => .unknown (.unboundQualifier qualifier) := by
  cases known : frames.lookup qualifier <;> simp [attributionOf, qualified, known]

/-- A column belongs to no table that the chain has no name for. -/
theorem names_of_attributionOf (belongs : c.attributionOf frames column = .table table) :
    frames.Names table := by
  unfold attributionOf at belongs
  split at belongs
  · split at belongs
    · cases belongs
      exact Frames.names_of_lookup ‹_›
    · cases belongs
  · split at belongs
    · cases belongs
    · rename_i only
      cases belongs
      exact Frames.names_of_mem_tables (by rw [only]; exact List.mem_cons_self)
    · exact Frames.names_of_mem_tables (List.mem_of_mem_filter
        (Attribution.ofMatches_eq_table_iff.mp belongs ▸ List.mem_singleton_self _))

theorem names_of_bucket : frames.Names (c.attributionOf frames column).bucket ∨
    (c.attributionOf frames column).bucket = ambiguousBucket ∨
    (c.attributionOf frames column).bucket = unknownBucket := by
  cases belongs : c.attributionOf frames column with
  | table name => exact .inl (names_of_attributionOf belongs)
  | ambiguous tables => exact .inr (.inl rfl)
  | unknown reason => exact .inr (.inr rfl)

/-- The spelling of a column changes no more than its case. -/
theorem sameName_spelling (name : String) : sameName (c.spelling frames table name) name = true := by
  unfold spelling
  split
  · rename_i columns known
    cases found : columns.find? (sameName name) with
    | none => exact sameName_refl name
    | some declared => exact (sameName_comm _ _).trans (List.find?_some found)
  · exact sameName_refl name

end Catalog

namespace Resolver
variable {r : Resolver} {frames : Frames} {column : ColumnRef} {pair : String × String}

/-- A mention is recorded once, in its bucket, under its own name up to case. -/
theorem mention_columns (r : Resolver) (frames : Frames) (column : ColumnRef) :
    ∃ name, sameName name column.name = true ∧
      (r.mention frames column).columns =
        [((r.catalog.attributionOf frames column).bucket, name)] := by
  refine ⟨_, ?_, rfl⟩
  split
  · exact Catalog.sameName_spelling _
  · exact sameName_refl _

theorem mem_mentionInCall {call : String} : pair ∈ (r.mentionInCall frames call column).columns ↔
    pair ∈ (r.mention frames column).columns ∨
      (column.qualifier.isSome = true ∧
        r.catalog.attributionOf frames column = .table pair.1 ∧ pair.2 = call) := by
  obtain ⟨table, name⟩ := pair
  unfold mentionInCall
  refine List.mem_append.trans (or_congr_right ?_)
  split
  · rename_i qualifier t qualified belongs
    simp [Reading.ofColumns, qualified, belongs, eq_comm]
  · rename_i other
    simp only [Reading.empty, List.not_mem_nil, false_iff]
    rintro ⟨qualified, belongs, rfl⟩
    obtain ⟨qualifier, qualified⟩ := Option.isSome_iff_exists.mp qualified
    exact other _ _ qualified belongs

/-- A mention in a call notes what the column notes by itself. -/
theorem notes_mentionInCall (r : Resolver) (frames : Frames) (call : String) (column : ColumnRef) :
    (r.mentionInCall frames call column).notes = (r.mention frames column).notes := by
  unfold mentionInCall
  split <;> exact List.append_nil _

/-- A wildcard with a qualifier finds what a mention of all columns would. -/
theorem output_qualified (r : Resolver) (frames : Frames) (qualifier : String) :
    { r.output frames (.wildcard (some qualifier)) with outputs := [] } =
      r.mention frames ⟨some qualifier, everyColumn⟩ := by
  cases found : frames.aliases.find? qualifier with
  | none => simp only [output, found]; rfl
  | some table =>
    have belongs : r.catalog.attributionOf frames ⟨some qualifier, everyColumn⟩ = .table table := by
      rw [Catalog.attributionOf_qualified rfl, Frames.lookup_of_own found]
    have spelled : r.catalog.spelling frames table everyColumn = everyColumn :=
      eq_everyColumn_of_same (Catalog.sameName_spelling _)
    simp [output, found, mention, mentionAll, belongs, spelled, Attribution.bucket,
      Attribution.note, Reading.empty]

end Resolver
end TableAccess
