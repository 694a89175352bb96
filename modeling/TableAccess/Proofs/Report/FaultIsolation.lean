import TableAccess.Proofs.Report.Listing
import Mathlib.Data.List.Flatten

/-! A fault stays where it is. A file that cannot be read or decoded and a statement that does not
parse are each noted once for every time that they are listed, and nothing that is listed is lost:
each statement either has its entry or is noted as a failure. What is reported of a statement is
what its resolution gives by itself, so a fault that is added to the input adds its note and leaves
the rest of the report as it was, in the same order. -/
namespace TableAccess

/-- Whether a report has, of each listed statement, what its resolution gives by itself against the
catalog of the plan, and beside that only one note for each fault. -/
structure StatementReport.Accounts (files : Files) (p : Plan) (report : StatementReport) :
    Prop where
  /-- One note for each listed file that cannot be read or decoded. -/
  unread : Report.countOfFinding .malformedInput report.diagnostics =
    (p.schemas.countP fun path => (files.read? (Report.schemaOf p.dialect) path).isNone) +
      p.statements.countP fun path => (files.read? Report.mapperOf path).isNone
  /-- An entry or one note for each statement of the other files. -/
  conserved : report.entries.length + Report.countOfFinding .parseFailure report.diagnostics =
    ((p.statements.filterMap (files.read? Report.mapperOf)).map fun m => m.statements.length).sum
  entries : report.entries.Perm
    ((p.listed files).filterMap (PlacedStatement.entry? p (p.resolver files)))
  notes : report.diagnostics.Perm (p.faults files ++
    (p.listed files).filterMap (PlacedStatement.failure? p) ++
    (p.listed files).flatMap (PlacedStatement.notes p (p.resolver files)))

/-- Whether a report is another one with a note more, as often as given. -/
structure StatementReport.Adds (count : Nat) (note : Diagnostic) (old new : StatementReport) :
    Prop where
  entries : new.entries = old.entries
  usage : new.usage = old.usage
  kept : old.diagnostics.Sublist new.diagnostics
  added : new.diagnostics.Perm (List.replicate count note ++ old.diagnostics)

/-- Whether some files are others with one statement more in the document that it is placed in, as
far as a plan can tell. -/
structure Plan.Extends (p : Plan) (s : PlacedStatement) (files more : Files) : Prop where
  document : ∃ before after,
    files.read? Report.mapperOf s.file = some ⟨s.space, before ++ after⟩ ∧
      more.read? Report.mapperOf s.file = some ⟨s.space, before ++ s.statement :: after⟩
  others : ∀ path ∈ p.statements, path ≠ s.file → more path = files path
  schemas : Report.loadSchemas more p.dialect .empty p.schemas =
    Report.loadSchemas files p.dialect .empty p.schemas

section
variable {files more : Files} {p : Plan} {r : Resolver} {path : String} {s : PlacedStatement}

theorem Report.countOfFinding_perm {finding : Finding} {notes others : List Diagnostic}
    (same : notes.Perm others) : countOfFinding finding notes = countOfFinding finding others :=
  same.countP_eq _

theorem Report.countOfFinding_append {finding : Finding} (notes others : List Diagnostic) :
    countOfFinding finding (notes ++ others) =
      countOfFinding finding notes + countOfFinding finding others := List.countP_append

private theorem countOfFinding_eq_length {finding : Finding} {notes : List Diagnostic}
    (all : ∀ d ∈ notes, d.finding = finding) :
    Report.countOfFinding finding notes = notes.length :=
  List.countP_eq_length.mpr fun d noted => beq_iff_eq.mpr (all d noted)

private theorem countOfFinding_eq_zero {finding : Finding} {notes : List Diagnostic}
    (none_ : ∀ d ∈ notes, d.finding ≠ finding) : Report.countOfFinding finding notes = 0 :=
  List.countP_eq_zero.mpr fun d noted same => none_ d noted (beq_iff_eq.mp same)

theorem Plan.finding_of_faults {d : Diagnostic} (noted : d ∈ p.faults files) :
    d.finding = .malformedInput := by
  rcases List.mem_append.mp noted with schema | document
  · obtain ⟨path, _, noted⟩ := List.mem_filterMap.mp schema
    exact (of_fault? noted).1
  · obtain ⟨path, _, noted⟩ := List.mem_filterMap.mp document
    exact (of_fault? noted).1

/-- What a resolution notes is no fault of the input. -/
theorem PlacedStatement.finding_of_notes {d : Diagnostic} (noted : d ∈ s.notes p r) :
    d.finding ≠ .malformedInput ∧ d.finding ≠ .parseFailure := by
  unfold notes at noted
  split at noted
  · obtain ⟨n, made, rfl⟩ := List.mem_map.mp noted
    have known := (Resolver.notes_ofReading made).finding
    have kept : ((n.inStatement s.id.text).inFile s.file).finding = n.finding := rfl
    rw [kept]
    constructor
    · rintro same
      simp [same] at known
    · rintro same
      simp [same] at known
  · cases noted

/-- The notes about statements are failures and what resolutions note. -/
private theorem allNotes_perm (statements : List PlacedStatement) :
    (statements.flatMap (PlacedStatement.allNotes p r)).Perm
      (statements.filterMap (PlacedStatement.failure? p) ++
        statements.flatMap (PlacedStatement.notes p r)) := by
  rw [List.filterMap_eq_flatMap_toList]
  exact (List.flatMap_append_perm ..).symm

/-- The notes about files are faults and the notes about the statements in them. -/
private theorem notesIn_perm (paths : List String) :
    (paths.flatMap (files.notesIn p r)).Perm
      (paths.filterMap (files.fault? Report.mapperOf) ++
        (paths.flatMap files.statementsIn).flatMap (PlacedStatement.allNotes p r)) := by
  rw [List.filterMap_eq_flatMap_toList, List.flatMap_assoc]
  exact (List.flatMap_append_perm ..).symm

theorem PlacedStatement.isSome_entry? (s : PlacedStatement) :
    (s.entry? p r).isSome = (s.parsed? p).isSome := Option.isSome_map

theorem PlacedStatement.isSome_failure? (s : PlacedStatement) :
    (s.failure? p).isSome = (s.parsed? p).isNone := by
  unfold failure?
  split <;> simp [*]

/-- A statement that is listed has an entry or is noted as a failure. -/
private theorem length_conserved (statements : List PlacedStatement) :
    (statements.filterMap (PlacedStatement.entry? p r)).length +
      (statements.filterMap (PlacedStatement.failure? p)).length = statements.length := by
  rw [List.length_filterMap_eq_countP, List.length_filterMap_eq_countP,
    List.length_eq_countP_add_countP (fun s => (s.parsed? p).isSome)]
  congr 1
  · exact List.countP_congr fun s _ => by rw [PlacedStatement.isSome_entry?]
  · exact List.countP_congr fun s _ => by rw [PlacedStatement.isSome_failure?]; simp

/-- The statements that a plan lists are those of the files that can be read and decoded. -/
theorem Plan.length_listed : (p.listed files).length =
    ((p.statements.filterMap (files.read? Report.mapperOf)).map fun m =>
      m.statements.length).sum := by
  rw [Plan.listed]
  induction p.statements with
  | nil => rfl
  | cons path rest ih =>
    rw [List.flatMap_cons, List.length_append, ih, List.filterMap_cons, Files.statementsIn]
    cases files.read? Report.mapperOf path with
    | none => simp
    | some mapper => simp

private theorem diagnostics_perm : (p.statementReport files).diagnostics.Perm (p.faults files ++
    (p.listed files).filterMap (PlacedStatement.failure? p) ++
    (p.listed files).flatMap (PlacedStatement.notes p (p.resolver files))) := by
  rw [diagnostics_statementReport, Plan.faults, List.append_assoc, List.append_assoc]
  refine perm_inOrder.trans (List.Perm.append_left _ ?_)
  exact (notesIn_perm p.statements).trans (List.Perm.append_left _ (allNotes_perm (p.listed files)))

private theorem entries_perm : (p.statementReport files).entries.Perm
    ((p.listed files).filterMap (PlacedStatement.entry? p (p.resolver files))) := by
  rw [entries_statementReport, Plan.listed, List.filterMap_flatMap]
  exact perm_inOrder

/-- What a report counts of a kind of finding is what it counts of faults, failures and notes of
resolutions. -/
private theorem countOfFinding_diagnostics (finding : Finding) :
    Report.countOfFinding finding (p.statementReport files).diagnostics =
      Report.countOfFinding finding (p.faults files) +
      Report.countOfFinding finding ((p.listed files).filterMap (PlacedStatement.failure? p)) +
      Report.countOfFinding finding
        ((p.listed files).flatMap (PlacedStatement.notes p (p.resolver files))) := by
  rw [Report.countOfFinding_perm diagnostics_perm, Report.countOfFinding_append,
    Report.countOfFinding_append]

private theorem finding_of_failures {d : Diagnostic} {statements : List PlacedStatement}
    (noted : d ∈ statements.filterMap (PlacedStatement.failure? p)) :
    d.finding = .parseFailure := by
  obtain ⟨s, _, noted⟩ := List.mem_filterMap.mp noted
  unfold PlacedStatement.failure? at noted
  split at noted
  · obtain rfl := Option.some.inj noted
    rfl
  · cases noted

private theorem accounts (files : Files) (p : Plan) :
    (p.statementReport files).Accounts files p where
  unread := by
    have faults := countOfFinding_eq_length fun d (noted : d ∈ p.faults files) =>
      Plan.finding_of_faults noted
    have failures : Report.countOfFinding .malformedInput
        ((p.listed files).filterMap (PlacedStatement.failure? p)) = 0 :=
      countOfFinding_eq_zero fun d noted => by simp [finding_of_failures noted]
    have notes : Report.countOfFinding .malformedInput
        ((p.listed files).flatMap (PlacedStatement.notes p (p.resolver files))) = 0 :=
      countOfFinding_eq_zero fun d noted => by
        obtain ⟨s, _, noted⟩ := List.mem_flatMap.mp noted
        exact (PlacedStatement.finding_of_notes noted).1
    rw [countOfFinding_diagnostics, faults, failures, notes, Plan.faults, List.length_append,
      length_faults, length_faults]
    rfl
  conserved := by
    have faults : Report.countOfFinding .parseFailure (p.faults files) = 0 :=
      countOfFinding_eq_zero fun d noted => by simp [Plan.finding_of_faults noted]
    have failures := countOfFinding_eq_length fun d
      (noted : d ∈ (p.listed files).filterMap (PlacedStatement.failure? p)) =>
      finding_of_failures noted
    have notes : Report.countOfFinding .parseFailure
        ((p.listed files).flatMap (PlacedStatement.notes p (p.resolver files))) = 0 :=
      countOfFinding_eq_zero fun d noted => by
        obtain ⟨s, _, noted⟩ := List.mem_flatMap.mp noted
        exact (PlacedStatement.finding_of_notes noted).2
    rw [countOfFinding_diagnostics, faults, failures, notes, Nat.zero_add, Nat.add_zero,
      entries_perm.length_eq, length_conserved, Plan.length_listed]
  entries := entries_perm
  notes := diagnostics_perm

/-- A report has a note more if the files that are listed give the same entries and only that note
more. -/
private theorem adds_of {paths : List String} {count : Nat} {note : Diagnostic}
    (schemas : Report.loadSchemas more p.dialect .empty p.schemas =
      Report.loadSchemas files p.dialect .empty p.schemas)
    (entries : paths.flatMap (more.entriesIn p (p.resolver files)) =
      p.statements.flatMap (files.entriesIn p (p.resolver files)))
    (kept : (p.statements.flatMap (files.notesIn p (p.resolver files))).Sublist
      (paths.flatMap (more.notesIn p (p.resolver files))))
    (added : (paths.flatMap (more.notesIn p (p.resolver files))).Perm
      (List.replicate count note ++ p.statements.flatMap (files.notesIn p (p.resolver files)))) :
    StatementReport.Adds count note (p.statementReport files)
      ({ p with statements := paths }.statementReport more) := by
  have resolver : { p with statements := paths }.resolver more = p.resolver files := by
    rw [Plan.resolver, Plan.resolver, schemas]
  have faults : p.schemas.filterMap (more.fault? (Report.schemaOf p.dialect)) =
      p.schemas.filterMap (files.fault? (Report.schemaOf p.dialect)) := by
    rw [← notes_loadSchemas .empty, ← notes_loadSchemas .empty, schemas]
  have sameEntries : ({ p with statements := paths }.statementReport more).entries =
      (p.statementReport files).entries := by
    rw [entries_statementReport, entries_statementReport, resolver]
    exact congrArg _ entries
  refine ⟨sameEntries, ?_, ?_, ?_⟩
  · rw [usage_statementReport, usage_statementReport, sameEntries]
  · rw [diagnostics_statementReport, diagnostics_statementReport, resolver, ← faults]
    exact inOrder_sublist (kept.append_left _)
  · rw [diagnostics_statementReport, diagnostics_statementReport, resolver, ← faults]
    refine perm_inOrder.trans ((added.append_left _).trans ?_)
    exact List.perm_append_comm_assoc .. |>.trans (perm_inOrder.symm.append_left _)

/-- A file that cannot be read or decoded is noted and gives nothing else. -/
private theorem adds_unread (unread : files.read? Report.mapperOf path = none)
    {first last : List String} (split : p.statements = first ++ last) :
    ∃ note, note.finding = .malformedInput ∧ note.file = some path ∧
      StatementReport.Adds 1 note (p.statementReport files)
        ({ p with statements := first ++ path :: last }.statementReport files) := by
  obtain ⟨note, noted⟩ := Option.isSome_iff_exists.mp
    (isSome_fault?.trans (Option.isNone_iff_eq_none.mpr unread))
  obtain ⟨finding, file⟩ := of_fault? noted
  have nothing : files.statementsIn path = [] := by rw [Files.statementsIn, unread]
  have entries : files.entriesIn p (p.resolver files) path = [] := by
    rw [Files.entriesIn, nothing]
    rfl
  have notes : files.notesIn p (p.resolver files) path = [note] := by
    rw [Files.notesIn, nothing, noted]
    rfl
  refine ⟨note, finding, file, adds_of rfl ?_ ?_ ?_⟩
  · rw [split, List.flatMap_append, List.flatMap_cons, entries, List.nil_append,
      List.flatMap_append]
  · rw [split]
    exact ((List.sublist_cons_self path last).append_left first).flatMap _
  · rw [split, List.flatMap_append, List.flatMap_cons, notes, List.flatMap_append]
    exact List.perm_append_comm_assoc ..

/-- Where what one source gives gets an item more, each mention of the source gives it once more. -/
private theorem flatMap_perm_replicate {α β : Type} [DecidableEq β] {f g : β → List α} {x : β}
    {a : α} (more : (g x).Perm (a :: f x)) :
    ∀ {sources : List β}, (∀ y ∈ sources, y ≠ x → g y = f y) →
      (sources.flatMap g).Perm (List.replicate (sources.count x) a ++ sources.flatMap f)
  | [], _ => .nil
  | y :: rest, others => by
    have ih := flatMap_perm_replicate more fun z member => others z (List.mem_cons_of_mem _ member)
    rw [List.flatMap_cons, List.flatMap_cons]
    by_cases same : y = x
    · obtain rfl := same
      rw [List.count_cons_self, List.replicate_succ, List.cons_append]
      refine (more.append ih).trans (.cons _ ?_)
      exact List.perm_append_comm_assoc ..
    · rw [List.count_cons_of_ne same, others y List.mem_cons_self same]
      exact (ih.append_left _).trans (List.perm_append_comm_assoc ..)

/-- Files that are the same give the same. -/
private theorem same_of_same_text (same : more path = files path) :
    more.entriesIn p r path = files.entriesIn p r path ∧
      more.notesIn p r path = files.notesIn p r path := by
  have read : more.read? Report.mapperOf path = files.read? Report.mapperOf path := by
    rw [Files.read?, Files.read?, same]
  have fault : more.fault? Report.mapperOf path = files.fault? Report.mapperOf path := by
    rw [Files.fault?, Files.fault?, Report.load, Report.load, same]
  have statements : more.statementsIn path = files.statementsIn path := by
    rw [Files.statementsIn, Files.statementsIn, read]
  constructor
  · rw [Files.entriesIn, Files.entriesIn, statements]
  · rw [Files.notesIn, Files.notesIn, statements, fault]

/-- A file that can be read and decoded gives what its statements give. -/
private theorem notesIn_of_read {mapper : Mapper}
    (read : files.read? Report.mapperOf path = some mapper) :
    files.notesIn p r path = (files.statementsIn path).flatMap (PlacedStatement.allNotes p r) := by
  have whole : files.fault? Report.mapperOf path = none := by
    rw [← Option.not_isSome_iff_eq_none, isSome_fault?, read]
    simp
  rw [Files.notesIn, whole, Option.toList_none, List.nil_append]

/-- A document with a statement more that does not parse gives the same entries and one note
more. -/
private theorem document_unparsed (extended : p.Extends s files more)
    (unparsed : s.parsed? p = none) :
    more.entriesIn p r s.file = files.entriesIn p r s.file ∧
      ∃ before after, files.notesIn p r s.file = before ++ after ∧
        more.notesIn p r s.file = before ++ s.failure :: after := by
  obtain ⟨first, last, read, readMore⟩ := extended.document
  let place := PlacedStatement.mk s.file s.space
  have statements : files.statementsIn s.file = first.map place ++ last.map place := by
    rw [Files.statementsIn, read]
    exact List.map_append
  have statementsMore :
      more.statementsIn s.file = first.map place ++ s :: last.map place := by
    rw [Files.statementsIn, readMore]
    exact List.map_append
  have noEntry : s.entry? p r = none := by
    rw [PlacedStatement.entry?, unparsed]
    rfl
  have noted : s.allNotes p r = [s.failure] := by
    rw [PlacedStatement.allNotes, PlacedStatement.failure?, PlacedStatement.notes, unparsed]
    rfl
  refine ⟨?_, (first.map place).flatMap (PlacedStatement.allNotes p r),
    (last.map place).flatMap (PlacedStatement.allNotes p r), ?_, ?_⟩
  · rw [Files.entriesIn, Files.entriesIn, statements, statementsMore, List.filterMap_append,
      List.filterMap_append, List.filterMap_cons_none noEntry]
  · rw [notesIn_of_read read, statements, List.flatMap_append]
  · rw [notesIn_of_read readMore, statementsMore, List.flatMap_append, List.flatMap_cons, noted]
    rfl

/-- A statement that does not parse is noted once for every time that its file is listed, and gives
nothing else. -/
private theorem adds_unparsed (extended : p.Extends s files more) (unparsed : s.parsed? p = none) :
    StatementReport.Adds (p.statements.count s.file) s.failure (p.statementReport files)
      (p.statementReport more) := by
  obtain ⟨entries, first, last, notes, notesMore⟩ :=
    document_unparsed (r := p.resolver files) extended unparsed
  have others : ∀ path ∈ p.statements, path ≠ s.file → _ ∧ _ := fun path member other =>
    same_of_same_text (p := p) (r := p.resolver files) (extended.others path member other)
  refine adds_of extended.schemas (List.flatMap_congr fun path member => ?_)
    (List.Sublist.flatMap_right _ fun path member => ?_)
    (flatMap_perm_replicate ?_ fun path member other => (others path member other).2)
  · by_cases own : path = s.file
    · rw [own, entries]
    · exact (others path member own).1
  · by_cases own : path = s.file
    · rw [own, notes, notesMore]
      exact (List.sublist_cons_self _ _).append_left _
    · rw [(others path member own).2]
  · rw [notes, notesMore]
    exact List.perm_middle

/-- **Faults stay where they are.** A report accounts for every file and every statement that a plan
lists: each fault has its note, and each statement that parses has what its resolution gives by
itself. A file more that cannot be read or decoded, or a statement more that does not parse, adds
its note and changes nothing else, the order of the rest included. -/
theorem Plan.faults_isolated (files : Files) (p : Plan) :
    (p.statementReport files).Accounts files p ∧
    (∀ first last path, p.statements = first ++ last →
      files.read? Report.mapperOf path = none →
      ∃ note, note.finding = .malformedInput ∧ note.file = some path ∧
        StatementReport.Adds 1 note (p.statementReport files)
          ({ p with statements := first ++ path :: last }.statementReport files)) ∧
    ∀ more s, p.Extends s files more → s.parsed? p = none →
      s.failure.finding = .parseFailure ∧ s.failure.statement = some s.id.text ∧
        s.failure.file = some s.file ∧
        StatementReport.Adds (p.statements.count s.file) s.failure (p.statementReport files)
          (p.statementReport more) :=
  ⟨accounts files p, fun _ _ _ split unread => adds_unread unread split,
    fun _ _ extended unparsed => ⟨rfl, rfl, rfl, adds_unparsed extended unparsed⟩⟩

end

/-- A document with one statement, and another file that is none. -/
def soundFiles : Files
  | "users.yaml" =>
    some "namespace: Users\nstatements:\n- id: find\n  sql: SELECT nick FROM users u, friends"
  | "notes.yaml" => some "namespace: ["
  | _ => none

/-- The same files with a statement more in the document, which does not parse. -/
def faultyFiles : Files
  | "users.yaml" => some <|
    "namespace: Users\nstatements:\n- id: fetch\n  sql: SELEC nick\n" ++
      "- id: find\n  sql: SELECT nick FROM users u, friends"
  | path => soundFiles path

/-- The statement that does not parse. -/
def faultyStatement : PlacedStatement := ⟨"users.yaml", "Users", ⟨"fetch", "SELEC nick", none⟩⟩

/-- A plan that lists the document twice. -/
def soundPlan : Plan where
  schemas := ["missing.json"]
  statements := ["users.yaml", "users.yaml"]
  dialect := .postgresql
  source := .plain
  maxDepth := 32
  workers := none
  style := ⟨.json, false, false⟩

theorem soundPlan_extends : soundPlan.Extends faultyStatement soundFiles faultyFiles where
  document := ⟨[], [⟨"find", "SELECT nick FROM users u, friends", none⟩],
    by decide +kernel, by decide +kernel⟩
  others := by decide
  schemas := rfl

theorem Plan.faults_isolated_faulty :
    (soundPlan.statementReport soundFiles).Accounts soundFiles soundPlan ∧
    (∃ note, note.finding = .malformedInput ∧ note.file = some "notes.yaml" ∧
      StatementReport.Adds 1 note (soundPlan.statementReport soundFiles)
        ({ soundPlan with
          statements := ["users.yaml", "notes.yaml", "users.yaml"] }.statementReport soundFiles)) ∧
    StatementReport.Adds 2 faultyStatement.failure (soundPlan.statementReport soundFiles)
      (soundPlan.statementReport faultyFiles) := by
  have unread : soundFiles.read? Report.mapperOf "notes.yaml" = none := by decide +kernel
  have unparsed : faultyStatement.parsed? soundPlan = none :=
    Option.isNone_iff_eq_none.mp (by decide +kernel)
  obtain ⟨accounts, file, statement⟩ := Plan.faults_isolated soundFiles soundPlan
  exact ⟨accounts, file ["users.yaml"] ["users.yaml"] "notes.yaml" rfl unread,
    (statement faultyFiles faultyStatement soundPlan_extends unparsed).2.2.2⟩

end TableAccess
