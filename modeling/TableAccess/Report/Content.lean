import TableAccess.Diagnostic
import TableAccess.Document.Data
import TableAccess.Lineage.Record
import TableAccess.Usage

/-! What is reported: the statements with what they use, or the lineage through them, and
the diagnostics. As data it has fields of fixed names in a fixed order; what is absent or
says nothing has no field. -/
namespace TableAccess
open TableAccess.Document

/-- A statement in a report: its file, what it uses, the parameters found in its text, and
the operation that its mapper names. -/
structure ReportEntry where
  id : StatementId
  file : String
  access : Access
  parameters : List String
  declared : Option Operation
deriving DecidableEq, Repr, Inhabited

/-- A report on statements. -/
structure StatementReport where
  entries : List ReportEntry
  usage : Usage
  diagnostics : List Diagnostic
deriving DecidableEq, Repr, Inhabited

/-- A report on lineage. -/
structure LineageReport where
  records : List LineageRecord
  diagnostics : List Diagnostic
deriving DecidableEq, Repr, Inhabited

/-- An identifier as data. -/
def StatementId.data (s : StatementId) : Data :=
  .table [("namespace", .text s.space), ("id", .text s.id)]

/-- Columns by table as data. -/
def columnsData (columns : List (String × List String)) : Data :=
  .table (columns.map fun (table, names) => (table, .texts names))

/-- What a statement uses as data. -/
def Access.data (a : Access) : Data :=
  .table [("dml", .text a.kind.name), ("tables", .texts a.tables),
    ("columns", columnsData a.columns)]

/-- A count as data. -/
def UsageCount.data (c : UsageCount) : Data :=
  .table [("name", .text c.name), ("count", .number c.count)]

/-- A usage as data. -/
def Usage.data (u : Usage) : Data :=
  .table [("statements", .number u.statements),
    ("by_kind", .table (u.kinds.map fun (kind, count) => (kind.name, .number count))),
    ("tables", .list (u.tables.map UsageCount.data)),
    ("columns", .list (u.columns.map UsageCount.data))]

/-- A diagnostic as data. -/
def Diagnostic.data (d : Diagnostic) : Data :=
  .table ([("kind", .text d.finding.name), ("severity", .text d.severity.name),
    ("message", .text d.message)] ++ Data.optional "statement" d.statement
    ++ Data.optional "file" d.file ++ Data.optional "subject" d.subject)

/-- Diagnostics as data. -/
def diagnosticsData (diagnostics : List Diagnostic) : Data :=
  .list (diagnostics.map Diagnostic.data)

/-- An entry as data. -/
def ReportEntry.data (e : ReportEntry) : Data :=
  let parameters := if e.parameters.isEmpty then [] else [("parameters", Data.texts e.parameters)]
  .table ([("id", e.id.data), ("file", .text e.file), ("statement", e.access.data)] ++ parameters
    ++ Data.optional "declared" (e.declared.map Operation.name))

/-- A report on statements as data. -/
def StatementReport.data (r : StatementReport) : Data :=
  .table [("statements", .list (r.entries.map ReportEntry.data)), ("usage", r.usage.data),
    ("diagnostics", diagnosticsData r.diagnostics)]

/-- A lineage record as data. -/
def LineageRecord.data (r : LineageRecord) : Data :=
  .table [("logic_class", .text r.logicClass), ("logic_method", .text r.logicMethod),
    ("invoked", .text r.invoked), ("dao_class", .text r.daoClass),
    ("dao_method", .text r.daoMethod), ("crud", .text r.operation.name),
    ("statement", r.statement.data), ("tables", .texts r.tables),
    ("columns", columnsData r.columns), ("parameters", .texts r.parameters)]

/-- A report on lineage as data. -/
def LineageReport.data (r : LineageReport) : Data :=
  .table [("lineage", .list (r.records.map LineageRecord.data)),
    ("diagnostics", diagnosticsData r.diagnostics)]

end TableAccess
