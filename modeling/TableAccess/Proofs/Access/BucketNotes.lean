import TableAccess.Proofs.Access.ColumnNotes
import TableAccess.Proofs.Access.KnownTables
import TableAccess.Proofs.Repetition

/-! The buckets and the notes about columns say the same. A mention that belongs to no single
table is recorded in a bucket under its own name and noted once, and nothing else is recorded
there as long as no table is called like a bucket. A resolution drops a note only where an
earlier one says the same about the same thing, so a bucket holds a name exactly when a note of
its kind is left. -/
namespace TableAccess

/-- The bucket of the columns that a finding is about. -/
def Finding.bucket? : Finding → Option String
  | .ambiguousColumn => some ambiguousBucket
  | .unknownColumn => some unknownBucket
  | _ => none

section
variable {kind : Finding} {bucket : String}

theorem Finding.isBucket_of_bucket? (about : kind.bucket? = some bucket) :
    Access.isBucket bucket = true := by
  cases kind <;> cases about <;> rfl

/-- A column is noted as what its bucket says, if no table is called like a bucket. -/
theorem Attribution.any_note_eq {a : Attribution} {column : ColumnRef}
    (about : kind.bucket? = some bucket)
    (spared : ∀ table, a = .table table → Access.isBucket table = false) :
    (a.note column).any (fun n => n.finding == kind) = (a.bucket == bucket) := by
  cases a with
  | table name =>
    have free := spared name rfl
    have other : name ≠ bucket := by
      rintro rfl
      rw [Finding.isBucket_of_bucket? about] at free
      cases free
    simpa [note, Attribution.bucket] using other
  | ambiguous tables => cases kind <;> cases about <;> rfl
  | unknown reason => cases kind <;> cases about <;> rfl

end

/-- A note about a column is known by what it says. -/
theorem Attribution.note_ext {a b : Attribution} {c d : ColumnRef} {m n : Diagnostic}
    (first : a.note c = some m) (second : b.note d = some n) (same : m.key = n.key) : m = n := by
  have shape {a : Attribution} {c : ColumnRef} {m : Diagnostic} (noted : a.note c = some m) :
      m = { Diagnostic.of m.finding m.message with subject := m.subject } := by
    cases a <;> cases noted <;> rfl
  obtain ⟨finding, subject, message⟩ : m.finding = n.finding ∧ m.subject = n.subject ∧
      m.message = n.message := by
    simpa [Diagnostic.key] using same
  rw [shape first, shape second, finding, subject, message]

/-- The names that the scope at the head of a chain declares. -/
def Chain.declarations (r : Resolver) : Chain → List AliasEntry
  | [] => []
  | v :: outer => v.declarations r outer

/-- Whether no table of a statement is called like a bucket: none that a visited scope reads or
calls a subquery, as it is known there, and none that the statement writes. -/
structure Statement.SparesBuckets (r : Resolver) (s : Statement) : Prop where
  declared : ∀ chain ∈ s.visits r, ∀ e ∈ chain.declarations r, Access.isBucket e.table = false
  written : ∀ pair ∈ s.written r, Access.isBucket pair.1 = false

namespace Statement
variable {r : Resolver} {s : Statement} {id : Option StatementId} {chain : Chain} {m : Mention}
  {kind : Finding} {bucket table name : String}

theorem mem_mentions : m ∈ s.mentions r ↔
    s.Visited r m.chain ∧ m.column ∈ m.chain.scope.columns ++ m.chain.scope.wildcards := by
  rw [mentions, List.mem_flatMap]
  constructor
  · rintro ⟨chain, visited, member⟩
    obtain ⟨column, held, rfl⟩ := List.mem_map.mp member
    exact ⟨mem_visits_iff_visited.mp visited, held⟩
  · rintro ⟨visited, member⟩
    exact ⟨m.chain, mem_visits_iff_visited.mpr visited, List.mem_map.mpr ⟨m.column, member, rfl⟩⟩

namespace SparesBuckets

/-- A visited scope sees no table that is called like a bucket. -/
theorem of_names (spares : s.SparesBuckets r) (visited : s.Visited r chain)
    (named : (chain.frames r).Names table) : Access.isBucket table = false := by
  obtain ⟨whole, part, visited⟩ := visited
  obtain ⟨frame, member, held⟩ := named
  obtain ⟨inner, v, outer, rfl, rfl⟩ := Chain.mem_frames.mp member
  obtain ⟨e, entry, rfl⟩ := List.mem_map.mp held
  have listed : (v :: outer) ∈ s.visits r :=
    mem_visits_iff_visited.mpr ⟨whole, part, visited.outward⟩
  rw [Visit.frame, Scope.frame_aliases] at entry
  rcases AliasMap.mem_declarations_of_mem_entries entry with none_ | declared
  · cases none_
  · exact spares.declared _ listed e declared

theorem of_attribution (spares : s.SparesBuckets r) (mentioned : m ∈ s.mentions r)
    (belongs : m.attribution r = .table table) : Access.isBucket table = false :=
  spares.of_names (mem_mentions.mp mentioned).1 (Catalog.names_of_attributionOf belongs)

/-- A mention in a bucket is recorded there as it is written. -/
theorem mention_columns_bucket (spares : s.SparesBuckets r) (visited : s.Visited r chain)
    {column : ColumnRef} (reserved : Access.isBucket bucket = true) :
    (bucket, name) ∈ (r.mention (chain.frames r) column).columns ↔
      (r.catalog.attributionOf (chain.frames r) column).bucket = bucket ∧ column.name = name := by
  cases belongs : r.catalog.attributionOf (chain.frames r) column with
  | table own =>
    have free := spares.of_names visited (Catalog.names_of_attributionOf belongs)
    have other : own ≠ bucket := by
      rintro rfl
      rw [free] at reserved
      cases reserved
    simp [Resolver.mention, belongs, Attribution.bucket, other, other.symm]
  | ambiguous tables => simp [Resolver.mention, belongs, eq_comm]
  | unknown reason => simp [Resolver.mention, belongs, eq_comm]

end SparesBuckets

/-- The output of a visited scope that mentions a column records it like any other mention. -/
private theorem wildcard_recorded {v : Visit} {outer : Chain} {column : ColumnRef}
    {pair : String × String} (wildcard : column ∈ v.scope.wildcards)
    (recorded : pair ∈ (r.mention (Chain.frames r (v :: outer)) column).columns) :
    pair ∈ Findings.columns (v.own r outer) := by
  unfold Scope.wildcards at wildcard
  split at wildcard
  · cases wildcard
  · rename_i single
    obtain ⟨o, output, column?⟩ := List.mem_filterMap.mp wildcard
    refine Visit.mem_columns_own.mpr (.inr ⟨Bool.eq_false_iff.mpr single, o, output, ?_⟩)
    match o with
    | .named _ | .wildcard none => cases column?
    | .wildcard (some qualifier) =>
      cases column?
      rw [r.columns_output_qualified]
      exact recorded

private theorem mention_recorded_bucket (visited : s.Visited r chain) {column : ColumnRef}
    {pair : String × String} (member : column ∈ chain.scope.columns ++ chain.scope.wildcards)
    (recorded : pair ∈ (r.mention (chain.frames r) column).columns) :
    pair ∈ (s.read r).columns := by
  rcases List.mem_append.mp member with mentions | wildcard
  · exact mem_columns_of_mention visited mentions recorded
  · cases chain with
    | nil => cases wildcard
    | cons v outer =>
      exact mem_columns_read.mpr (.inr ⟨v, outer, visited, wildcard_recorded wildcard recorded⟩)

/-- What a visited scope records in a bucket is a mention of it. -/
private theorem mention_of_bucket {v : Visit} {outer : Chain} (spares : s.SparesBuckets r)
    (visited : s.Visited r (v :: outer)) (reserved : Access.isBucket bucket = true)
    (recorded : (bucket, name) ∈ Findings.columns (v.own r outer)) :
    ∃ column ∈ v.scope.columns ++ v.scope.wildcards,
      (bucket, name) ∈ (r.mention (Chain.frames r (v :: outer)) column).columns := by
  have unnamed : ¬ (Chain.frames r (v :: outer)).Names bucket := by
    intro named
    rw [spares.of_names visited named] at reserved
    cases reserved
  rcases Visit.mem_columns_own.mp recorded with ⟨p, place, recorded⟩ | ⟨single, o, output, recorded⟩
  · cases p with
    | column c =>
      exact ⟨c, List.mem_append_left _ (Scope.mem_columns.mpr ⟨_, place, rfl⟩), recorded⟩
    | subquery body => simp [Place.own] at recorded
    | argument call c =>
      rcases Resolver.mem_mentionInCall.mp recorded with recorded | ⟨_, belongs, _⟩
      · exact ⟨c, List.mem_append_left _ (Scope.mem_columns.mpr ⟨_, place, rfl⟩), recorded⟩
      · exact absurd (Catalog.names_of_attributionOf belongs) unnamed
  · rcases o with _ | (_ | qualifier)
    · cases recorded
    · rw [r.columns_output_all] at recorded
      obtain ⟨table, held, same⟩ := List.mem_map.mp recorded
      cases same
      exact absurd (Frames.names_of_mem_tables held) unnamed
    · rw [r.columns_output_qualified] at recorded
      refine ⟨⟨some qualifier, everyColumn⟩, List.mem_append_right _ ?_, recorded⟩
      rw [Scope.wildcards, single]
      exact List.mem_filterMap.mpr ⟨_, output, rfl⟩

/-- A bucket holds the names of the columns that are attributed to it, as they are written. -/
theorem mem_bucket_iff (spares : s.SparesBuckets r) (reserved : Access.isBucket bucket = true) :
    (bucket, name) ∈ (s.read r).columns ↔
      ∃ m ∈ s.mentions r, (m.attribution r).bucket = bucket ∧ m.column.name = name := by
  constructor
  · intro recorded
    rcases mem_columns_read.mp recorded with ⟨column, written, _⟩ | ⟨v, outer, visited, recorded⟩
    · rw [spares.written _ written] at reserved
      cases reserved
    · obtain ⟨column, member, recorded⟩ := mention_of_bucket spares visited reserved recorded
      exact ⟨⟨v :: outer, column⟩, mem_mentions.mpr ⟨visited, member⟩,
        (spares.mention_columns_bucket visited reserved).mp recorded⟩
  · rintro ⟨m, mentioned, belongs⟩
    obtain ⟨visited, member⟩ := mem_mentions.mp mentioned
    exact mention_recorded_bucket visited member
      ((spares.mention_columns_bucket visited reserved).mpr belongs)

private theorem map_some_filter {α β : Type} {items : List α} {note : α → Option β}
    {kind : β → Bool} {inBucket : α → Bool}
    (each : ∀ a ∈ items, (note a).any kind = inBucket a) :
    ((items.filterMap note).filter kind).map some = (items.filter inBucket).map note := by
  induction items with
  | nil => rfl
  | cons a rest ih =>
    obtain ⟨first, others⟩ := List.forall_mem_cons.mp each
    cases noted : note a with
    | none =>
      rw [noted, Option.any_none] at first
      rw [List.filterMap_cons_none noted, List.filter_cons_of_neg (by simp [← first]), ih others]
    | some n =>
      rw [noted, Option.any_some] at first
      rw [List.filterMap_cons_some noted, List.filter_cons, List.filter_cons, first]
      cases inBucket a <;> simp [ih others, noted]

/-- The notes of a kind are those of the mentions in its bucket, one for each. -/
theorem notes_of_kind (spares : s.SparesBuckets r) (about : kind.bucket? = some bucket) :
    (((s.read r).notes.filter fun n => n.finding == kind).map some).Perm
      (((s.mentions r).filter fun m => (m.attribution r).bucket == bucket).map
        (Mention.note r)) := by
  have narrowed : ((s.read r).notes.filter fun n => n.finding == kind) =
      ((s.read r).notes.filter Diagnostic.isAboutColumn).filter fun n => n.finding == kind := by
    rw [List.filter_filter]
    refine List.filter_congr fun n _ => ?_
    cases same : n.finding == kind with
    | false => rfl
    | true =>
      have kinds : n.isAboutColumn = true := by
        rw [Diagnostic.isAboutColumn, beq_iff_eq.mp same]
        cases kind <;> cases about <;> rfl
      rw [kinds, Bool.true_and]
  have each : ∀ m ∈ s.mentions r, (m.note r).any (fun n => n.finding == kind) =
      ((m.attribution r).bucket == bucket) := by
    intro m mentioned
    exact Attribution.any_note_eq about fun table belongs => spares.of_attribution mentioned belongs
  rw [narrowed, ← map_some_filter each]
  exact ((s.column_notes r).filter _).map some

private theorem mem_notes_iff (spares : s.SparesBuckets r) (about : kind.bucket? = some bucket)
    {n : Diagnostic} : n ∈ (s.read r).notes ∧ n.finding = kind ↔
      ∃ m ∈ s.mentions r, (m.attribution r).bucket = bucket ∧ m.note r = some n := by
  have listed := (notes_of_kind spares about).mem_iff (a := some n)
  simpa [and_assoc] using listed

/-- A resolution reports what is said for the first time, with the identifier of the statement. -/
theorem notes_resolve : (r.resolve s id).notes =
    (firstNotes (s.read r).notes).map (Diagnostic.tagged id) := by
  rw [← withoutRepeats_nil]
  rfl

/-- How the buckets of a statement go with the notes about its columns. -/
structure BucketsNoted (r : Resolver) (s : Statement) (id : Option StatementId) : Prop where
  /-- Each mention that fits several tables is noted once, and no other is noted so. -/
  ambiguous_noted : (((s.read r).notes.filter fun n => n.finding == .ambiguousColumn).map some).Perm
    (((s.mentions r).filter fun m => (m.attribution r).bucket == ambiguousBucket).map
      (Mention.note r))
  /-- Each mention that fits no table is noted once, and no other is noted so. -/
  unknown_noted : (((s.read r).notes.filter fun n => n.finding == .unknownColumn).map some).Perm
    (((s.mentions r).filter fun m => (m.attribution r).bucket == unknownBucket).map
      (Mention.note r))
  /-- A mention that belongs to a table is not noted. -/
  tables_unnoted : ∀ m ∈ s.mentions r, ∀ table, m.attribution r = .table table → m.note r = none
  /-- What is reported is what was noted for the first time, in that order. -/
  reported : (r.resolve s id).notes = (firstNotes (s.read r).notes).map (Diagnostic.tagged id)
  ambiguous_iff : ∀ name, name ∈ (r.resolve s id).access.columnsOf ambiguousBucket ↔
    ∃ n ∈ (r.resolve s id).notes, n.finding = .ambiguousColumn ∧ n.subject = some name
  unknown_iff : (r.resolve s id).access.columnsOf unknownBucket ≠ [] ↔
    ∃ n ∈ (r.resolve s id).notes, n.finding = .unknownColumn
  /-- Every unknown name is that of a mention whose note is reported. -/
  unknown_names : ∀ name ∈ (r.resolve s id).access.columnsOf unknownBucket,
    ∃ m ∈ s.mentions r, m.column.name = name ∧
      ∃ n, m.note r = some n ∧ n.finding = .unknownColumn ∧ n.tagged id ∈ (r.resolve s id).notes

private theorem subject_of_ambiguous {n : Diagnostic} (noted : m.note r = some n)
    (kind : n.finding = .ambiguousColumn) : n.subject = some m.column.name := by
  unfold Mention.note at noted
  cases belongs : m.attribution r with
  | table name =>
    rw [belongs] at noted
    cases noted
  | ambiguous tables =>
    rw [belongs] at noted
    cases noted
    rfl
  | unknown reason =>
    rw [belongs] at noted
    cases noted
    cases kind

private theorem exists_reported_iff {P : Diagnostic → Prop} :
    (∃ n ∈ (r.resolve s id).notes, P n) ↔
      ∃ n ∈ firstNotes (s.read r).notes, P (n.tagged id) := by
  rw [notes_resolve]
  constructor
  · rintro ⟨_, reported, holds⟩
    obtain ⟨n, kept, rfl⟩ := List.mem_map.mp reported
    exact ⟨n, kept, holds⟩
  · rintro ⟨n, kept, holds⟩
    exact ⟨n.tagged id, List.mem_map_of_mem kept, holds⟩

/-- A bucket holds a name exactly when a note of its kind about a column of that name is left. -/
theorem mem_columnsOf_bucket_iff (spares : s.SparesBuckets r) (about : kind.bucket? = some bucket) :
    name ∈ (r.resolve s id).access.columnsOf bucket ↔
      ∃ n ∈ firstNotes (s.read r).notes, n.finding = kind ∧
        ∃ m ∈ s.mentions r, m.note r = some n ∧ m.column.name = name := by
  have any_note {m : Mention} (mentioned : m ∈ s.mentions r) :
      (m.note r).any (fun n => n.finding == kind) = ((m.attribution r).bucket == bucket) :=
    Attribution.any_note_eq about fun table belongs => spares.of_attribution mentioned belongs
  rw [Resolver.mem_columnsOf_resolve, mem_bucket_iff spares (Finding.isBucket_of_bucket? about)]
  constructor
  · rintro ⟨m, mentioned, belongs, rfl⟩
    have noted := any_note mentioned
    rw [belongs, beq_self_eq_true] at noted
    cases made : m.note r with
    | none => simp [made] at noted
    | some n =>
      have held := (mem_notes_iff spares about).mpr ⟨m, mentioned, belongs, made⟩
      obtain ⟨k, kept, same⟩ := exists_mem_firstNotes held.1
      have kind_k : k.finding = kind := (congrArg Prod.fst same).trans held.2
      obtain ⟨other, _, _, made_k⟩ :=
        (mem_notes_iff spares about).mp ⟨mem_of_mem_firstNotes kept, kind_k⟩
      obtain rfl := Attribution.note_ext made_k made same
      exact ⟨k, kept, kind_k, m, mentioned, made, rfl⟩
  · rintro ⟨n, kept, same, m, mentioned, made, rfl⟩
    have noted := any_note mentioned
    rw [made, Option.any_some, beq_iff_eq.mpr same] at noted
    exact ⟨m, mentioned, beq_iff_eq.mp noted.symm, rfl⟩

private theorem mention_of_kept (spares : s.SparesBuckets r) (about : kind.bucket? = some bucket)
    {n : Diagnostic} (kept : n ∈ firstNotes (s.read r).notes) (same : n.finding = kind) :
    ∃ m ∈ s.mentions r, m.note r = some n := by
  obtain ⟨m, mentioned, _, made⟩ :=
    (mem_notes_iff spares about).mp ⟨mem_of_mem_firstNotes kept, same⟩
  exact ⟨m, mentioned, made⟩

private theorem ambiguous_reported_iff (spares : s.SparesBuckets r) :
    name ∈ (r.resolve s id).access.columnsOf ambiguousBucket ↔
      ∃ n ∈ (r.resolve s id).notes, n.finding = .ambiguousColumn ∧ n.subject = some name := by
  have about : Finding.ambiguousColumn.bucket? = some ambiguousBucket := rfl
  rw [mem_columnsOf_bucket_iff spares about, exists_reported_iff]
  simp only [Diagnostic.finding_tagged, Diagnostic.subject_tagged]
  constructor
  · rintro ⟨n, kept, kind, m, _, made, rfl⟩
    exact ⟨n, kept, kind, subject_of_ambiguous made kind⟩
  · rintro ⟨n, kept, kind, subject⟩
    obtain ⟨m, mentioned, made⟩ := mention_of_kept spares rfl kept kind
    have named := (subject_of_ambiguous made kind).symm.trans subject
    exact ⟨n, kept, kind, m, mentioned, made, Option.some.inj named⟩

private theorem unknown_reported_iff (spares : s.SparesBuckets r) :
    (r.resolve s id).access.columnsOf unknownBucket ≠ [] ↔
      ∃ n ∈ (r.resolve s id).notes, n.finding = .unknownColumn := by
  have about : Finding.unknownColumn.bucket? = some unknownBucket := rfl
  have held (name : String) : name ∈ (r.resolve s id).access.columnsOf unknownBucket ↔ _ :=
    mem_columnsOf_bucket_iff spares about
  rw [exists_reported_iff]
  simp only [Diagnostic.finding_tagged]
  constructor
  · intro some_
    obtain ⟨name, member⟩ := List.exists_mem_of_ne_nil _ some_
    obtain ⟨n, kept, kind, _⟩ := (held name).mp member
    exact ⟨n, kept, kind⟩
  · rintro ⟨n, kept, kind⟩
    obtain ⟨m, mentioned, made⟩ := mention_of_kept spares rfl kept kind
    exact List.ne_nil_of_mem ((held m.column.name).mpr ⟨n, kept, kind, m, mentioned, made, rfl⟩)

/-- **The buckets and the notes about columns agree.** -/
theorem buckets_noted (r : Resolver) (s : Statement) (id : Option StatementId)
    (spares : s.SparesBuckets r) : s.BucketsNoted r id where
  ambiguous_noted := notes_of_kind spares rfl
  unknown_noted := notes_of_kind spares rfl
  tables_unnoted := by
    intro m _ table belongs
    rw [Mention.note, belongs]
    rfl
  reported := notes_resolve
  ambiguous_iff := fun _ => ambiguous_reported_iff spares
  unknown_iff := unknown_reported_iff spares
  unknown_names := by
    intro name held
    have about : Finding.unknownColumn.bucket? = some unknownBucket := rfl
    obtain ⟨n, kept, kind, m, mentioned, made, named⟩ :=
      (mem_columnsOf_bucket_iff spares about).mp held
    rw [notes_resolve]
    exact ⟨m, mentioned, named, n, made, kind, List.mem_map_of_mem kept⟩

/-- A query that mentions a column of two tables, which a condition does too, beside a column
and a wildcard of no table. -/
def sharedColumns : Scope where
  ctes := [⟨"recent", [], ⟨[], [⟨"orders", none⟩], [], [.column ⟨none, "id"⟩], [.named "id"]⟩⟩]
  tables := [⟨"users", some "u"⟩, ⟨"recent", none⟩]
  derived := []
  nodes :=
    [.column ⟨none, "id"⟩,
      .subquery ⟨[], [⟨"orders", some "o"⟩, ⟨"users", none⟩], [],
        [.column ⟨none, "id"⟩, .column ⟨some "x", "id"⟩], [.wildcard (some "y")]⟩]
  outputs := [.named "id"]

theorem buckets_noted_shared :
    let r : Resolver := ⟨.ofTables [⟨"users", ["id"]⟩, ⟨"orders", ["id"]⟩], 1⟩
    let s : Statement := .select sharedColumns
    let id : StatementId := ⟨"Orders", "recent"⟩
    s.SparesBuckets r ∧
      ((s.mentions r).filter fun m => (m.attribution r).bucket == ambiguousBucket).length = 2 ∧
      (r.resolve s (some id)).access.columnsOf unknownBucket = ["*", "id"] ∧
      s.BucketsNoted r (some id) := by
  intro r s id
  have spares : s.SparesBuckets r := ⟨by decide +kernel, by decide +kernel⟩
  exact ⟨spares, by decide +kernel, by decide +kernel, buckets_noted r s (some id) spares⟩

end Statement
end TableAccess
