import TableAccess.CommandLine.Command

/-! What is to be done once the settings have filled in what a command leaves open. -/
namespace TableAccess

/-- What is to be done with which files, and how. -/
structure Plan where
  schemas : List String
  statements : List String
  dialect : Sql.Dialect
  source : TextSource
  maxDepth : Nat
  /-- How many statements may be worked on at a time; without a number, as many as the
  machine allows. No report depends on it. -/
  workers : Option Nat
  style : ReportStyle
deriving DecidableEq, Repr, Inhabited

/-- What is to be done. An option comes before the setting; zero workers say nothing. -/
def Plan.of (o : Options) (s : Settings) : Plan :=
  { schemas := o.schemas
    statements := o.statements
    dialect := o.dialect.getD s.dialect
    source := if o.plainText then .plain else s.source
    maxDepth := o.maxDepth.getD s.maxDepth
    workers := (o.workers.filter fun n => n != 0).orElse fun _ => s.workers
    style := ⟨o.format, !o.noColor, o.verbose⟩ }

end TableAccess
