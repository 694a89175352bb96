import TableAccess.Proofs.Binding.Lookup
import TableAccess.Proofs.Binding.Mentions
import TableAccess.Proofs.Binding.ReusedNames

/-! Columns that are mentioned without a qualifier. The tables that they may belong to are those of the
scope itself, each counted once however many names it has. A single table takes every column; among
several one has to be known to have it, and if more than one is, the column stays between all of
them. The scopes around say what is known of a table, but lend none of their own. -/
namespace TableAccess

/-- The tables among which a column without a qualifier is looked for, each in the spelling in which
it is named first. -/
def Frame.candidates (f : Frame) : List String :=
  (f.aliases.entries.map AliasEntry.table).eraseDupsBy sameName

/-- What is known of tables where some scopes are visible, in the order in which it counts: scope by
scope outwards, the subqueries of each before the named queries, and the database last. -/
def Catalog.known (c : Catalog) (frames : Frames) : List TableSchema :=
  (frames.flatMap fun f => f.derived ++ f.ctes) ++ c.tables

/-- Those among some tables whose schema has a column. -/
def Catalog.holders (c : Catalog) (frames : Frames) (column : String) (tables : List String) :
    List String :=
  tables.filter fun table =>
    ((c.known frames).find? fun t => sameName t.name table).any fun t =>
      t.columns.any fun declared => sameName declared column

/-- The tables that an attribution speaks of. -/
def Attribution.tables : Attribution → List String
  | .table name => [name]
  | .ambiguous names => names
  | .unknown _ => []

/-- Whether a column is attributed as it should be, given the tables in question and those of them that
are known to have it. -/
structure Attribution.Fits (candidates holders : List String) (a : Attribution) : Prop where
  noTables : a = .unknown .noTables ↔ candidates = []
  /-- A single table takes the column, whatever is known of it. -/
  table : ∀ t, a = .table t ↔ candidates = [t] ∨ 1 < candidates.length ∧ holders = [t]
  ambiguous : ∀ tables, a = .ambiguous tables ↔ 1 < holders.length ∧ tables = holders
  noMatch : a = .unknown .noMatchingTable ↔ 1 < candidates.length ∧ holders = []
  bound : ∀ qualifier, a ≠ .unknown (.unboundQualifier qualifier)

namespace Catalog
variable {c : Catalog} {frames : Frames} {table column : String}

theorem columnsOf?_eq_known : c.columnsOf? frames table =
    ((c.known frames).find? fun t => sameName t.name table).map TableSchema.columns := by
  rw [columnsOf?, Option.orElse_eq_or]
  refine congrArg (Option.map TableSchema.columns) ?_
  induction frames with
  | nil => exact c.find?_eq
  | cons frame outer ih =>
    have split : c.known (frame :: outer) = frame.derived ++ (frame.ctes ++ c.known outer) := by
      simp only [known, List.flatMap_cons, List.append_assoc]
    rw [split, List.find?_append, List.find?_append, ← ih, Frames.localTable?,
      Option.orElse_eq_or, Option.orElse_eq_or, Option.or_assoc, Option.or_assoc]
    rfl

theorem tableHas_eq_known : (c.tableHas frames table column == some true) =
    ((c.known frames).find? fun t => sameName t.name table).any fun t =>
      t.columns.any fun declared => sameName declared column := by
  rw [tableHas_eq, columnsOf?_eq_known, Option.map_map]
  cases (c.known frames).find? fun t => sameName t.name table with
  | none => rfl
  | some t =>
    have alike : sameName column = fun declared => sameName declared column :=
      funext (sameName_comm column)
    simp [hasName, alike]

theorem holders_eq_filter {tables : List String} : c.holders frames column tables =
    tables.filter fun table => c.tableHas frames table column == some true := by
  simp only [holders, tableHas_eq_known]

end Catalog

/-- The tables in question of a scope are those that its names stand for. -/
theorem Frame.candidates_eq_tables (f : Frame) : f.candidates = f.aliases.tables :=
  AliasMap.tables_eq.symm

namespace Attribution
variable {candidates holders : List String}

/-- Without a table in question there is none to choose. -/
theorem fits_nil : Fits [] [] (.unknown .noTables) where
  noTables := by simp
  table := by simp
  ambiguous := by simp
  noMatch := by simp
  bound := by simp

/-- A single table is chosen, whatever is known of it. -/
theorem fits_singleton {only : String} (among : holders.Sublist [only]) :
    Fits [only] holders (.table only) where
  noTables := by simp
  table := by simp
  ambiguous := by
    have few : holders.length ≤ 1 := among.length_le
    simp [Nat.not_lt.mpr few]
  noMatch := by simp
  bound := by simp

/-- Among several tables those count that are known to have the column. -/
theorem fits_ofMatches (several : 1 < candidates.length) :
    Fits candidates holders (ofMatches holders) := by
  have occupied : candidates ≠ [] := List.ne_nil_of_length_pos (Nat.zero_lt_of_lt several)
  have unsingle (t : String) : candidates ≠ [t] := by
    rintro rfl
    exact Nat.lt_irrefl 1 several
  exact {
    noTables := by simp [ofMatches_eq_unknown_iff, occupied]
    table := by simp [ofMatches_eq_table_iff, unsingle, several]
    ambiguous := fun _ => ofMatches_eq_ambiguous_iff
    noMatch := by simp [ofMatches_eq_unknown_iff, several]
    bound := by simp [ofMatches_eq_unknown_iff] }

/-- Only tables in question are spoken of. -/
theorem Fits.mem_candidates {a : Attribution} (fits : Fits candidates holders a)
    (among : holders ⊆ candidates) {t : String} (spoken : t ∈ a.tables) : t ∈ candidates := by
  cases a with
  | table name =>
    obtain rfl := List.mem_singleton.mp spoken
    rcases (fits.table t).mp rfl with only | ⟨_, one⟩
    · exact only ▸ List.mem_singleton_self t
    · exact among (one ▸ List.mem_singleton_self t)
  | ambiguous names =>
    obtain ⟨_, rfl⟩ := (fits.ambiguous names).mp rfl
    exact among spoken
  | unknown _ => cases spoken

end Attribution

namespace Catalog
variable {c : Catalog} {frame : Frame} {outer : Frames} {name : String}

/-- A column without a qualifier goes where its own scope's tables and their schemas say. -/
theorem attributionOf_fits : (c.attributionOf (frame :: outer) ⟨none, name⟩).Fits frame.candidates
    (c.holders (frame :: outer) name frame.candidates) := by
  rw [holders_eq_filter, Frame.candidates_eq_tables]
  simp only [attributionOf, Frames.aliases]
  rcases frame.aliases.tables with _ | ⟨only, _ | ⟨second, rest⟩⟩
  · exact Attribution.fits_nil
  · exact Attribution.fits_singleton List.filter_sublist
  · exact Attribution.fits_ofMatches (Nat.succ_lt_succ rest.length.succ_pos)

/-- What is known of tables does not depend on what the scopes call them. -/
theorem known_renamed (names : Frame → AliasMap) :
    c.known (frame :: outer.map fun f => { f with aliases := names f }) = c.known (frame :: outer) := by
  simp only [known, List.flatMap_cons, List.flatMap_map]

/-- **A column without a qualifier belongs to the one table of its scope, or else to the one that is
known to have it**, and is left open between several. The tables of the scopes around are never in
question, whatever their names mean. -/
theorem unqualified_attributed (c : Catalog) (frame : Frame) (outer : Frames) (name : String) :
    (c.attributionOf (frame :: outer) ⟨none, name⟩).Fits frame.candidates
        (c.holders (frame :: outer) name frame.candidates) ∧
      (∀ t ∈ (c.attributionOf (frame :: outer) ⟨none, name⟩).tables,
        ∃ e ∈ frame.aliases.entries, e.table = t) ∧
      (frame.candidates.Pairwise fun a b => sameName a b = false) ∧
      ∀ names : Frame → AliasMap,
        c.attributionOf (frame :: outer.map fun f => { f with aliases := names f }) ⟨none, name⟩ =
          c.attributionOf (frame :: outer) ⟨none, name⟩ := by
  refine ⟨attributionOf_fits, ?_, ?_, fun names => ?_⟩
  · intro t spoken
    have held := attributionOf_fits.mem_candidates List.filter_sublist.subset spoken
    rw [Frame.candidates_eq_tables] at held
    exact List.mem_map.mp (AliasMap.mem_entries_of_mem_tables held)
  · rw [Frame.candidates_eq_tables]
    exact AliasMap.pairwise_distinctNames
  · have kept : (c.holders (frame :: outer.map fun f => { f with aliases := names f }) name) =
        c.holders (frame :: outer) name := by
      funext tables
      simp only [holders, known_renamed]
    simp only [attributionOf, Frames.aliases, ← holders_eq_filter, kept]

/-- A stock of orders, their items and an audit. -/
def shop : Catalog := ofTables [⟨"audit", ["note"]⟩, ⟨"items", ["total"]⟩, ⟨"orders", ["id", "total"]⟩]

/-- Orders under two names, beside a subquery that is called like the items. -/
def besideItems : Frame :=
  ⟨⟨[⟨"o", "orders"⟩, ⟨"items", "items"⟩, ⟨"p", "orders"⟩]⟩, [⟨"items", ["id"]⟩], []⟩

/-- Orders, and an audit that is not among the tables of the scope itself. -/
def audited : Frames := [⟨⟨[⟨"a", "audit"⟩]⟩, [], []⟩]

theorem unqualified_attributed_hidden :
    shop.attributionOf (besideItems :: audited) ⟨none, "id"⟩ = .ambiguous ["orders", "items"] ∧
      shop.attributionOf (besideItems :: audited) ⟨none, "total"⟩ = .table "orders" ∧
      shop.attributionOf (besideItems :: audited) ⟨none, "note"⟩ = .unknown .noMatchingTable := by
  have fits (name : String) := (unqualified_attributed shop besideItems audited name).1
  refine ⟨((fits "id").ambiguous _).mpr ?_, ((fits "total").table _).mpr (.inr ?_),
    (fits "note").noMatch.mpr ?_⟩
  · decide +kernel
  · decide +kernel
  · decide +kernel

end Catalog

end TableAccess
