import TableAccess.Document.JsonText
import TableAccess.Document.YamlText
import TableAccess.Report.Content

/-! Reports as text for a reader. Each statement or record has a heading and the tables
and columns below it; the diagnostics and a summary come last. Colours mark headings and
severities. -/
namespace TableAccess

/-- The forms of a report. -/
inductive ReportFormat where
  | text | json | yaml
deriving DecidableEq, Repr, Inhabited

/-- How a report is written. -/
structure ReportStyle where
  format : ReportFormat
  colored : Bool
  verbose : Bool
deriving DecidableEq, Repr, Inhabited

namespace ReportStyle

/-- What ends a style of a terminal. -/
def plainAgain : String := "\x1b[0m"

/-- A text in a style of a terminal, given by its codes. Where the text itself ends a
style, this one is taken up again. -/
def paint (style : ReportStyle) (codes text : String) : String :=
  let start := "\x1b[" ++ codes ++ "m"
  if style.colored then start ++ text.replace plainAgain (plainAgain ++ start) ++ plainAgain
  else text

/-- A title. -/
def title (style : ReportStyle) (text : String) : String := style.paint "1" text

/-- The heading of one statement or record. -/
def heading (style : ReportStyle) (text : String) : String := style.paint "1;36" text

end ReportStyle

/-- The style of a severity. -/
def Severity.codes : Severity → String
  | .error => "1;31"
  | .warning => "1;33"
  | .info => "34"

namespace Report

/-- Names in one line. -/
def joined (names : List String) : String := String.intercalate ", " names

/-- The lines about tables and their columns. -/
def tableLines (tables : List String) (columns : List (String × List String)) : List String :=
  if tables.isEmpty then ["  Tables: (none)"]
  else ("  Tables: " ++ joined tables) ::
    columns.map fun (table, names) => "    " ++ table ++ ": " ++ joined names

/-- The line about parameters, if there are any. -/
def parameterLines (parameters : List String) : List String :=
  if parameters.isEmpty then [] else ["  Parameters: " ++ joined parameters]

/-- A number in a column of at least four places. -/
def rightAligned (n : Nat) : String :=
  let digits := toString n
  String.ofList (List.replicate (4 - digits.length) ' ') ++ digits

/-- The lines of counts under a label. -/
def countLines (label : String) (counts : List UsageCount) : List String :=
  if counts.isEmpty then []
  else ("  " ++ label ++ ":") ::
    counts.map fun c => "    " ++ rightAligned c.count ++ "  " ++ c.name

/-- The lines about usage. -/
def usageLines (style : ReportStyle) (u : Usage) : List String :=
  let kinds := u.kinds.map fun (kind, count) => kind.keyword ++ " " ++ toString count
  [style.title "Usage:", "  " ++ toString u.statements ++ " statements (" ++ joined kinds ++ ")"]
    ++ countLines "Tables" u.tables ++ countLines "Columns" u.columns ++ [""]

/-- The line about a diagnostic. -/
def diagnosticLine (style : ReportStyle) (d : Diagnostic) : String :=
  let place := d.statement.toList ++ d.file.toList
  style.paint d.severity.codes ("[" ++ d.severity.tag ++ "]") ++ " " ++ d.finding.code ++ " "
    ++ d.message ++ (if place.isEmpty then "" else " (" ++ joined place ++ ")")

/-- The lines about diagnostics, with the summary. -/
def diagnosticLines (style : ReportStyle) (ds : List Diagnostic) : List String :=
  let listed :=
    if ds.isEmpty then [] else style.title "Diagnostics:" :: ds.map (diagnosticLine style) ++ [""]
  listed ++ ["Summary: " ++ toString (countOf .error ds) ++ " error(s), "
    ++ toString (countOf .warning ds) ++ " warning(s), " ++ toString (countOf .info ds) ++ " info"]

/-- The lines about a statement. -/
def entryLines (style : ReportStyle) (e : ReportEntry) : List String :=
  let file := if style.verbose then " [" ++ e.file ++ "]" else ""
  (style.heading (e.id.text ++ " (" ++ e.access.kind.keyword ++ ")") ++ file)
    :: tableLines e.access.tables e.access.columns
    ++ (if style.verbose then parameterLines e.parameters else []) ++ [""]

/-- The lines about a lineage record. -/
def recordLines (style : ReportStyle) (r : LineageRecord) : List String :=
  let heading := r.logicClass ++ "." ++ r.logicMethod ++ " -> " ++ r.daoClass ++ "." ++ r.daoMethod
    ++ " [" ++ r.operation.letter.toString ++ "] " ++ r.statement.text
  style.heading heading :: (if style.verbose then ["  Call: " ++ r.invoked] else [])
    ++ tableLines r.tables r.columns ++ parameterLines r.parameters ++ [""]

/-- Lines as a text, each with its end. -/
def ofLines (lines : List String) : String := String.join (lines.map fun line => line ++ "\n")

/-- Data in the form of a style, or a text of given lines. -/
def write (style : ReportStyle) (data : Document.Data) (lines : List String) : String :=
  match style.format with
  | .text => ofLines lines
  | .json => Document.JsonText.write data
  | .yaml => Document.YamlText.write data

/-- Diagnostics as a text. -/
def writeDiagnostics (style : ReportStyle) (ds : List Diagnostic) : String :=
  write style (diagnosticsData ds) (diagnosticLines style ds)

end Report

/-- A report on statements as a text. -/
def StatementReport.write (style : ReportStyle) (r : StatementReport) : String :=
  Report.write style r.data <|
    [style.title "=== Resolved Statements ===", ""] ++ r.entries.flatMap (Report.entryLines style)
      ++ (if style.verbose then Report.usageLines style r.usage else [])
      ++ Report.diagnosticLines style r.diagnostics

/-- A report on lineage as a text. -/
def LineageReport.write (style : ReportStyle) (r : LineageReport) : String :=
  Report.write style r.data <|
    [style.title "=== CRUD Lineage ===", ""] ++ r.records.flatMap (Report.recordLines style)
      ++ Report.diagnosticLines style r.diagnostics

end TableAccess
