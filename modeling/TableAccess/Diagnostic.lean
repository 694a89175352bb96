import TableAccess.Sorted

/-! What is reported beside a result. Nothing that is found stops the work: a statement
that does not parse, a column that fits several tables or a call without a method is
noted with what is needed to find it, and the rest goes on. How bad the worst finding is
decides how the program ends. -/
namespace TableAccess

/-- How bad a finding is. -/
inductive Severity where
  | info | warning | error
deriving DecidableEq, Repr, Inhabited

namespace Severity

/-- Severities as numbers, the worst one highest. -/
def rank : Severity → Nat
  | info => 0
  | warning => 1
  | error => 2

/-- The name of a severity. -/
def name : Severity → String
  | info => "Info"
  | warning => "Warning"
  | error => "Error"

/-- The tag of a severity in a text report. -/
def tag : Severity → String
  | info => "INFO"
  | warning => "WARN"
  | error => "ERROR"

/-- The worse of two severities. -/
def worse (a b : Severity) : Severity := if a.rank < b.rank then b else a

end Severity

/-- What was found. -/
inductive Finding where
  /-- Two sources of one scope share an alias; the last one counts. -/
  | duplicateAlias
  /-- An invocation matches no data access method. -/
  | unresolvedCall
  /-- A data access method names a statement that is not there. -/
  | missingStatement
  /-- A scope nests too deeply and was left out. -/
  | depthExceeded
  /-- A column without qualifier exists in several tables. -/
  | ambiguousColumn
  /-- A column fits no table. -/
  | unknownColumn
  /-- A statement does not parse and was left out. -/
  | parseFailure
  /-- A file cannot be read or decoded and was left out. -/
  | malformedInput
deriving DecidableEq, Repr, Inhabited

namespace Finding

/-- All findings, in their usual order. -/
def all : List Finding :=
  [duplicateAlias, unresolvedCall, missingStatement, depthExceeded, ambiguousColumn,
    unknownColumn, parseFailure, malformedInput]

/-- Findings as numbers, in their usual order. -/
def rank : Finding → Nat
  | duplicateAlias => 0
  | unresolvedCall => 1
  | missingStatement => 2
  | depthExceeded => 3
  | ambiguousColumn => 4
  | unknownColumn => 5
  | parseFailure => 6
  | malformedInput => 7

/-- The name of a finding. -/
def name : Finding → String
  | duplicateAlias => "DuplicateAlias"
  | unresolvedCall => "UnresolvedCall"
  | missingStatement => "MissingSqlStatement"
  | depthExceeded => "ParseDepthExceeded"
  | ambiguousColumn => "AmbiguousColumn"
  | unknownColumn => "UnknownColumn"
  | parseFailure => "ParseFailure"
  | malformedInput => "MalformedInput"

/-- The code of a finding in a text report. -/
def code (f : Finding) : String := "LIN00" ++ toString (f.rank + 1)

/-- How bad a finding is by itself. -/
def severity : Finding → Severity
  | duplicateAlias | unresolvedCall => .info
  | missingStatement | depthExceeded | ambiguousColumn | unknownColumn => .warning
  | parseFailure | malformedInput => .error

end Finding

/-- A finding with what is needed to find its cause. -/
structure Diagnostic where
  finding : Finding
  severity : Severity
  message : String
  statement : Option String
  file : Option String
  subject : Option String
deriving DecidableEq, Repr, Inhabited

namespace Diagnostic

/-- A diagnostic without context. -/
def of (finding : Finding) (message : String) : Diagnostic :=
  ⟨finding, finding.severity, message, none, none, none⟩

/-- A diagnostic about something that has a name. -/
def about (finding : Finding) (message subject : String) : Diagnostic :=
  { of finding message with subject := some subject }

/-- Note the statement it is about. -/
def inStatement (d : Diagnostic) (statement : String) : Diagnostic :=
  { d with statement := some statement }

/-- Note the file it comes from. -/
def inFile (d : Diagnostic) (file : String) : Diagnostic := { d with file := some file }

/-- Note the file it comes from, unless it is noted. -/
def inFileIfNone (d : Diagnostic) (file : String) : Diagnostic :=
  if d.file.isNone then d.inFile file else d

/-- Whether two diagnostics say the same about the same thing. -/
def repeats (a b : Diagnostic) : Bool :=
  a.finding == b.finding && a.subject == b.subject && a.message == b.message

/-- The order of a report: the worst first, then by file, statement, finding and
message. -/
def order (a b : Diagnostic) : Ordering :=
  (compare b.severity.rank a.severity.rank).then <|
    (optionalOrder a.file b.file).then <|
      (optionalOrder a.statement b.statement).then <|
        (compare a.finding.rank b.finding.rank).then (compare a.message b.message)

end Diagnostic

/-- The first of all diagnostics that say the same, in order. -/
def withoutRepeats (seen : List Diagnostic) : List Diagnostic → List Diagnostic
  | [] => []
  | d :: rest =>
    if seen.any (Diagnostic.repeats d) then withoutRepeats seen rest
    else d :: withoutRepeats (d :: seen) rest

namespace Report

/-- The diagnostics in the order of a report. Those that the order does not tell apart
stay as they came. -/
def sort (diagnostics : List Diagnostic) : List Diagnostic :=
  diagnostics.mergeSort fun a b => a.order b != .gt

/-- How many diagnostics have a severity. -/
def countOf (severity : Severity) (diagnostics : List Diagnostic) : Nat :=
  diagnostics.countP fun d => d.severity == severity

/-- How many diagnostics note a finding. -/
def countOfFinding (finding : Finding) (diagnostics : List Diagnostic) : Nat :=
  diagnostics.countP fun d => d.finding == finding

/-- The worst severity, if there is any diagnostic. -/
def worst? : List Diagnostic → Option Severity
  | [] => none
  | d :: rest =>
    match worst? rest with
    | none => some d.severity
    | some severity => some (severity.worse d.severity)

/-- How the program ends: with 2 after an error, with 1 after a warning. -/
def exitCode (diagnostics : List Diagnostic) : Nat :=
  match worst? diagnostics with
  | some .error => 2
  | some .warning => 1
  | _ => 0

end Report
end TableAccess
