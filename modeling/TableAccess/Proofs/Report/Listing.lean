import TableAccess.Report.Assembly
import TableAccess.Proofs.Access.NoteOrigins
import TableAccess.Proofs.Sorting

/-! What a report lists, file by file and statement by statement. A file that cannot be read or
decoded gives one note, a statement that does not parse gives one note, and any other statement
gives what its resolution gives by itself. Everything that comes from a file carries its path, so
the order of a report never leaves open which of two files comes first. -/
namespace TableAccess

private theorem optionalOrder_eq_compare : optionalOrder = compare := by
  funext a b
  cases a <;> cases b <;> rfl

instance : Std.TransCmp Diagnostic.order := by
  have lexicographic : Diagnostic.order =
      compareLex (fun a b => compareOn (fun d : Diagnostic => d.severity.rank) b a)
        (compareLex (compareOn Diagnostic.file) (compareLex (compareOn Diagnostic.statement)
          (compareLex (compareOn fun d => d.finding.rank) (compareOn Diagnostic.message)))) := by
    funext a b
    simp only [Diagnostic.order, optionalOrder_eq_compare]
    rfl
  rw [lexicographic]
  infer_instance

instance : Std.TransCmp Report.entryOrder :=
  inferInstanceAs (Std.TransCmp (compareLex
    (compareLex (compareOn fun e : ReportEntry => e.id.space) (compareOn fun e => e.id.id))
    (compareOn ReportEntry.file)))

/-- Diagnostics that a report does not tell apart come from one file. -/
theorem Diagnostic.file_of_order {a b : Diagnostic} (same : a.order b = .eq) : a.file = b.file := by
  simp only [order, Ordering.then_eq_eq, optionalOrder_eq_compare] at same
  exact Std.LawfulEqOrd.eq_of_compare same.2.1

/-- Entries that a report does not tell apart come from one file. -/
theorem ReportEntry.file_of_order {a b : ReportEntry} (same : Report.entryOrder a b = .eq) :
    a.file = b.file :=
  Std.LawfulEqOrd.eq_of_compare (Ordering.then_eq_eq.mp same).2

/-- What the text of a file is decoded to, if it can be read and decoded. -/
def Files.read? {α : Type} (files : Files) (decode : String → String → Except Error α)
    (path : String) : Option α :=
  (files path).bind fun text => (decode path text).toOption

/-- The note about a file, if it cannot be read or decoded. -/
def Files.fault? {α : Type} (files : Files) (decode : String → String → Except Error α)
    (path : String) : Option Diagnostic :=
  match Report.load files path (decode path) with
  | .ok _ => none
  | .error note => some note

/-- A statement where it stands: in which file, and in which namespace. -/
structure PlacedStatement where
  file : String
  space : String
  statement : MapperStatement

namespace PlacedStatement

/-- The identifier of a statement. -/
def id (s : PlacedStatement) : StatementId := ⟨s.space, s.statement.id⟩

/-- The text of a statement once its template is filled. -/
def filled (p : Plan) (s : PlacedStatement) : Filled :=
  p.source.statement (.of p.dialect) s.statement.text

/-- What a statement parses to, if it does. -/
def parsed? (p : Plan) (s : PlacedStatement) : Option Statement :=
  (Sql.readStatement p.dialect (s.filled p).text).toOption

/-- The entry of a statement that parses, with what its resolution finds by itself. -/
def entry? (p : Plan) (r : Resolver) (s : PlacedStatement) : Option ReportEntry :=
  (s.parsed? p).map fun parsed =>
    ⟨s.id, s.file, (r.resolve parsed none).access, (s.filled p).parameters, s.statement.operation⟩

/-- The notes of the resolution of a statement that parses, each with the statement and the
file. -/
def notes (p : Plan) (r : Resolver) (s : PlacedStatement) : List Diagnostic :=
  match s.parsed? p with
  | some parsed => (r.resolve parsed none).notes.map fun d => (d.inStatement s.id.text).inFile s.file
  | none => []

/-- The note that a statement does not parse. -/
def failure (s : PlacedStatement) : Diagnostic :=
  ((Diagnostic.of .parseFailure "Bad request").inStatement s.id.text).inFile s.file

/-- The note about a statement, if it does not parse. -/
def failure? (p : Plan) (s : PlacedStatement) : Option Diagnostic :=
  if (s.parsed? p).isNone then some s.failure else none

/-- Everything that is noted about a statement. -/
def allNotes (p : Plan) (r : Resolver) (s : PlacedStatement) : List Diagnostic :=
  (s.failure? p).toList ++ s.notes p r

end PlacedStatement

/-- The statements of a file, if it can be read and decoded. -/
def Files.statementsIn (files : Files) (path : String) : List PlacedStatement :=
  match files.read? Report.mapperOf path with
  | some mapper => mapper.statements.map (PlacedStatement.mk path mapper.space)
  | none => []

namespace Plan

/-- The schemas and the depth by which the statements of a plan are resolved. -/
def resolver (files : Files) (p : Plan) : Resolver :=
  ⟨(Report.loadSchemas files p.dialect .empty p.schemas).1, p.maxDepth⟩

/-- The statements of all files of a plan that can be read and decoded. -/
def listed (files : Files) (p : Plan) : List PlacedStatement :=
  p.statements.flatMap files.statementsIn

/-- The notes about the files of a plan that cannot be read or decoded. -/
def faults (files : Files) (p : Plan) : List Diagnostic :=
  p.schemas.filterMap (files.fault? (Report.schemaOf p.dialect)) ++
    p.statements.filterMap (files.fault? Report.mapperOf)

end Plan

section
variable {files : Files} {p : Plan} {r : Resolver} {path : String} {d : Diagnostic}
  {e : ReportEntry} {s : PlacedStatement}

section
variable {α : Type} {decode : String → String → Except Error α}

/-- A file can be decoded, or there is one note about it. -/
theorem load_cases (files : Files) (decode : String → String → Except Error α) (path : String) :
    (∃ found, files.read? decode path = some found ∧
      Report.load files path (decode path) = .ok found) ∨
    (files.read? decode path = none ∧
      ∃ e, Report.load files path (decode path) = .error (Report.malformed path e)) := by
  unfold Files.read? Report.load
  cases files path with
  | none => exact .inr ⟨rfl, _, rfl⟩
  | some text =>
    cases decoded : decode path text with
    | ok found => exact .inl ⟨found, by simp [decoded, Except.toOption], by simp [decoded]⟩
    | error e => exact .inr ⟨by simp [decoded, Except.toOption], e, by simp [decoded]⟩

theorem isSome_fault? : (files.fault? decode path).isSome = (files.read? decode path).isNone := by
  rcases load_cases files decode path with ⟨found, read, loaded⟩ | ⟨read, e, loaded⟩
  · simp [Files.fault?, read, loaded]
  · simp [Files.fault?, read, loaded]

theorem of_fault? (noted : files.fault? decode path = some d) :
    d.finding = .malformedInput ∧ d.file = some path := by
  rcases load_cases files decode path with ⟨found, read, loaded⟩ | ⟨read, e, loaded⟩
  · simp [Files.fault?, loaded] at noted
  · simp only [Files.fault?, loaded, Option.some.injEq] at noted
    obtain rfl := noted
    exact ⟨rfl, rfl⟩

/-- There are as many notes about files as files that cannot be read or decoded. -/
theorem length_faults (paths : List String) : (paths.filterMap (files.fault? decode)).length =
    paths.countP fun path => (files.read? decode path).isNone := by
  simp only [List.length_filterMap_eq_countP, isSome_fault?]

end

/-- Loading schemas notes each one that cannot be read or decoded. -/
theorem notes_loadSchemas {dialect : Sql.Dialect} (c : Catalog) (paths : List String) :
    (Report.loadSchemas files dialect c paths).2 =
      paths.filterMap (files.fault? (Report.schemaOf dialect)) := by
  induction paths generalizing c with
  | nil => rfl
  | cons path rest ih =>
    rw [Report.loadSchemas, List.filterMap_cons, Files.fault?]
    cases Report.load files path (Report.schemaOf dialect path) with
    | ok tables => exact ih (c.merge tables)
    | error note => exact congrArg (note :: ·) (ih c)

/-- A statement that does not parse is a bad request, whatever is wrong with it. -/
theorem label_of_readStatement {dialect : Sql.Dialect} {text : String} {e : Error}
    (failed : Sql.readStatement dialect text = .error e) : e.label = "Bad request" := by
  unfold Sql.readStatement at failed
  split at failed
  · cases failed
    rfl
  · cases failed
    rfl
  · cases failed

namespace PlacedStatement

/-- Notes of a resolution are tagged with the statement and the file. -/
private theorem tagged_notes (parsed : Statement) (id : StatementId) (file : String) :
    ((r.resolve parsed (some id)).notes.map fun d => d.inFileIfNone file) =
      (r.resolve parsed none).notes.map fun d => (d.inStatement id.text).inFile file := by
  have plain : (r.resolve parsed (some id)).notes =
      (r.resolve parsed none).notes.map fun d => d.inStatement id.text := by
    simp [Resolver.resolve]
  rw [plain, List.map_map]
  refine List.map_congr_left fun d noted => ?_
  have open_ : (d.inStatement id.text).file = none := (Resolver.notes_ofReading noted).file
  simp [Diagnostic.inFileIfNone, open_]

/-- A statement gives its entry and its notes, as its resolution alone gives them. -/
theorem entryOf_eq (s : PlacedStatement) : Report.entryOf p r s.file s.space s.statement =
    ⟨(s.entry? p r).toList, s.allNotes p r⟩ := by
  unfold Report.entryOf
  cases parsed : Sql.readStatement p.dialect (s.filled p).text with
  | error e =>
    have none_ : s.parsed? p = none := by simp [parsed?, parsed, Except.toOption]
    simp only [filled] at parsed
    simp only [parsed, entry?, allNotes, failure?, notes, none_, label_of_readStatement parsed]
    rfl
  | ok found =>
    have some_ : s.parsed? p = some found := by simp [parsed?, parsed, Except.toOption]
    simp only [filled] at parsed
    simp only [parsed, entry?, allNotes, failure?, notes, some_, tagged_notes]
    rfl

theorem file_of_entry? (listed : s.entry? p r = some e) : e.file = s.file := by
  obtain ⟨parsed, _, rfl⟩ := Option.map_eq_some_iff.mp listed
  rfl

theorem file_of_allNotes (noted : d ∈ s.allNotes p r) : d.file = some s.file := by
  rcases List.mem_append.mp noted with failed | resolved
  · unfold failure? at failed
    split at failed
    · obtain rfl := List.mem_singleton.mp failed
      rfl
    · cases failed
  · unfold notes at resolved
    split at resolved
    · obtain ⟨n, _, rfl⟩ := List.mem_map.mp resolved
      rfl
    · cases resolved

end PlacedStatement

/-- The entries of a file. -/
def Files.entriesIn (files : Files) (p : Plan) (r : Resolver) (path : String) : List ReportEntry :=
  (files.statementsIn path).filterMap (PlacedStatement.entry? p r)

/-- The notes about a file and about the statements in it. -/
def Files.notesIn (files : Files) (p : Plan) (r : Resolver) (path : String) : List Diagnostic :=
  (files.fault? Report.mapperOf path).toList ++
    (files.statementsIn path).flatMap (PlacedStatement.allNotes p r)

theorem entries_flatten (all : List Report.Entries) :
    Report.Entries.flatten all =
      ⟨all.flatMap Report.Entries.entries, all.flatMap Report.Entries.notes⟩ := by
  induction all with
  | nil => rfl
  | cons first rest ih =>
    rw [Report.Entries.flatten, List.foldr_cons, ← Report.Entries.flatten, ih]
    rfl

/-- A file gives what its statements give, or a note if it cannot be read or decoded. -/
theorem entriesOf_eq : Report.entriesOf files p r path =
    ⟨files.entriesIn p r path, files.notesIn p r path⟩ := by
  rcases load_cases files Report.mapperOf path with ⟨mapper, read, loaded⟩ | ⟨read, e, loaded⟩
  · have each : mapper.statements.map (Report.entryOf p r path mapper.space) =
        (files.statementsIn path).map fun s => ⟨(s.entry? p r).toList, s.allNotes p r⟩ := by
      rw [Files.statementsIn, read, List.map_map]
      exact List.map_congr_left fun s _ => PlacedStatement.entryOf_eq ⟨path, mapper.space, s⟩
    have whole : files.fault? Report.mapperOf path = none := by simp [Files.fault?, loaded]
    simp only [Report.entriesOf, loaded]
    rw [each, entries_flatten, Files.entriesIn, Files.notesIn, whole,
      List.filterMap_eq_flatMap_toList, List.flatMap_map, List.flatMap_map]
    rfl
  · have nothing : files.statementsIn path = [] := by rw [Files.statementsIn, read]
    have fault : files.fault? Report.mapperOf path = some (Report.malformed path e) := by
      simp [Files.fault?, loaded]
    rw [Report.entriesOf, loaded, Files.entriesIn, Files.notesIn, nothing, fault]
    rfl

theorem file_of_entriesIn (listed : e ∈ files.entriesIn p r path) : e.file = path := by
  obtain ⟨s, placed, entry⟩ := List.mem_filterMap.mp listed
  rw [PlacedStatement.file_of_entry? entry]
  unfold Files.statementsIn at placed
  split at placed
  · obtain ⟨statement, _, rfl⟩ := List.mem_map.mp placed
    rfl
  · cases placed

theorem file_of_notesIn (noted : d ∈ files.notesIn p r path) : d.file = some path := by
  rcases List.mem_append.mp noted with fault | about
  · exact (of_fault? (Option.mem_toList.mp fault)).2
  · obtain ⟨s, placed, about⟩ := List.mem_flatMap.mp about
    rw [PlacedStatement.file_of_allNotes about]
    unfold Files.statementsIn at placed
    split at placed
    · obtain ⟨statement, _, rfl⟩ := List.mem_map.mp placed
      rfl
    · cases placed

/-- A report has the entries of all files in order. -/
theorem entries_statementReport : (p.statementReport files).entries =
    inOrder Report.entryOrder (p.statements.flatMap (files.entriesIn p (p.resolver files))) := by
  simp only [Plan.statementReport, Report.allEntries, entries_flatten, List.flatMap_map,
    entriesOf_eq]
  rfl

/-- A report has the notes about the schemas and those of all files in order. -/
theorem diagnostics_statementReport : (p.statementReport files).diagnostics =
    inOrder Diagnostic.order (p.schemas.filterMap (files.fault? (Report.schemaOf p.dialect)) ++
      p.statements.flatMap (files.notesIn p (p.resolver files))) := by
  simp only [Plan.statementReport, Report.allEntries, entries_flatten, List.flatMap_map,
    entriesOf_eq, notes_loadSchemas]
  rfl

theorem usage_statementReport : (p.statementReport files).usage =
    .ofAccesses ((p.statementReport files).entries.map ReportEntry.access) := rfl

end
end TableAccess
