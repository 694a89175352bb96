import TableAccess.Catalog.Loading
import TableAccess.CommandLine.Plan
import TableAccess.Document.Loading
import TableAccess.Lineage.Join
import TableAccess.Mapper.Reading
import TableAccess.Report.Content

/-! Reports from files. A file that cannot be read or decoded, and a statement that does
not parse, is noted and left out; everything else is reported as if it had been alone. The
entries are in the order of their identifiers, so the order of the files matters only where
two of them declare one statement. -/
namespace TableAccess

/-- The texts of files by path, as far as they can be read. -/
abbrev Files := String → Option String

namespace Report

/-- The note about a file that is left out. -/
def malformed (path : String) (e : Error) : Diagnostic :=
  (Diagnostic.of .malformedInput e.label).inFile path

/-- What the text of a file holds. -/
def load {α : Type} (files : Files) (path : String) (decode : String → Except Error α) :
    Except Diagnostic α :=
  match files path with
  | none => .error (malformed path (.unreadable path ""))
  | some text =>
    match decode text with
    | .ok found => .ok found
    | .error e => .error (malformed path e)

/-- The tables in a text, whose file name tells whether it lists them or creates them. -/
def schemaOf (dialect : Sql.Dialect) (path text : String) : Except Error Catalog :=
  if Document.hasExtension ["json"] path then Catalog.ofJson text
  else Catalog.ofDefinitions dialect text

/-- The statements in a text, whose file name tells its notation. -/
def mapperOf (path text : String) : Except Error Mapper :=
  if Document.hasExtension ["xml"] path then Mapper.ofXml path text else Document.mapper path text

/-- Add the tables of some files to a catalog. -/
def loadSchemas (files : Files) (dialect : Sql.Dialect) :
    Catalog → List String → Catalog × List Diagnostic
  | c, [] => (c, [])
  | c, path :: rest =>
    match load files path (schemaOf dialect path) with
    | .ok tables => loadSchemas files dialect (c.merge tables) rest
    | .error note =>
      let (c, notes) := loadSchemas files dialect c rest
      (c, note :: notes)

/-- What some files hold one after the other, and the notes about those left out. -/
def loadRecords {α : Type} (files : Files) (decode : String → String → Except Error (List α)) :
    List String → List α × List Diagnostic
  | [] => ([], [])
  | path :: rest =>
    let (records, notes) := loadRecords files decode rest
    match load files path (decode path) with
    | .ok found => (found ++ records, notes)
    | .error note => (records, note :: notes)

/-- Entries with the notes about them. -/
structure Entries where
  entries : List ReportEntry
  notes : List Diagnostic
deriving Repr, Inhabited

namespace Entries

/-- Nothing. -/
def empty : Entries := ⟨[], []⟩

/-- One after the other. -/
def append (a b : Entries) : Entries := ⟨a.entries ++ b.entries, a.notes ++ b.notes⟩

instance : Append Entries := ⟨append⟩

/-- All entries of a list of them. -/
def flatten (all : List Entries) : Entries := all.foldr append empty

end Entries

/-- The entry of a statement, or the note about one that does not parse. -/
def entryOf (p : Plan) (r : Resolver) (file space : String) (s : MapperStatement) : Entries :=
  let id : StatementId := ⟨space, s.id⟩
  let filled := p.source.statement (.of p.dialect) s.text
  match Sql.readStatement p.dialect filled.text with
  | .error e =>
    ⟨[], [((Diagnostic.of .parseFailure e.label).inStatement id.text).inFile file]⟩
  | .ok statement =>
    let found := r.resolve statement (some id)
    ⟨[⟨id, file, found.access, filled.parameters, s.operation⟩],
      found.notes.map fun d => d.inFileIfNone file⟩

/-- The entries of a file. -/
def entriesOf (files : Files) (p : Plan) (r : Resolver) (path : String) : Entries :=
  match load files path (mapperOf path) with
  | .error note => ⟨[], [note]⟩
  | .ok mapper => .flatten (mapper.statements.map (entryOf p r path mapper.space))

/-- By identifier, then by file. -/
def entryOrder (a b : ReportEntry) : Ordering := (a.id.order b.id).then (compare a.file b.file)

/-- The entries of some files. -/
def allEntries (files : Files) (p : Plan) (c : Catalog) : Entries :=
  let found := Entries.flatten (p.statements.map (entriesOf files p ⟨c, p.maxDepth⟩))
  { found with entries := found.entries.mergeSort fun a b => entryOrder a b != .gt }

end Report

/-- The report on the statements of a plan. -/
def Plan.statementReport (files : Files) (p : Plan) : StatementReport :=
  let (catalog, notes) := Report.loadSchemas files p.dialect .empty p.schemas
  let found := Report.allEntries files p catalog
  ⟨found.entries, .ofAccesses (found.entries.map ReportEntry.access),
    Report.sort (notes ++ found.notes)⟩

/-- The report on the lineage of a plan. Of entries with one identifier the first
counts. -/
def Plan.lineageReport (files : Files) (p : Plan) (daos logic : List String) : LineageReport :=
  let report := p.statementReport files
  let (methods, daoNotes) := Report.loadRecords files Document.daoMethods daos
  let (logic, logicNotes) := Report.loadRecords files Document.logicMethods logic
  let entries := sortedNew (fun a b => a.id.order b.id) report.entries
  let joiner : Joiner :=
    ⟨methods, entries.map fun e => (e.id, e.access), entries.map fun e => (e.id, e.parameters)⟩
  let lineage := joiner.join logic
  ⟨lineage.records, Report.sort (report.diagnostics ++ daoNotes ++ logicNotes ++ lineage.notes)⟩

end TableAccess
