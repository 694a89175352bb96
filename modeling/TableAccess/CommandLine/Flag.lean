import TableAccess.Report.Layout
import TableAccess.Settings

/-! The flags of the program. Each has a long name, some have a letter; some take a value,
some a list of them, and the others stand for themselves. -/
namespace TableAccess

/-- The flags of the program. -/
inductive Flag where
  | schema | statements | dialect | maxDepth | workers | plainText | format | verbose | noColor
  | daos | logic
deriving DecidableEq, Repr, Inhabited

/-- What is wrong with a command line, or what it asks for instead of work. -/
inductive UsageFault where
  | helpWanted
  | versionWanted
  /-- Nothing is asked for. -/
  | nothingAsked
  | unknownCommand
  | unknownFlag
  /-- A flag that must be given is not. -/
  | missingFlag
  /-- A flag has no value, or one that it cannot have. -/
  | badValue
  /-- The value of a flag is no number. -/
  | badNumber
  /-- A flag that stands once is given again. -/
  | repeatedFlag
  /-- A flag that takes no value has one. -/
  | unwantedValue
deriving DecidableEq, Repr

/-- How the program ends when a command line asks for no work. -/
def UsageFault.exitCode : UsageFault → Nat
  | .helpWanted | .versionWanted => 0
  | _ => 2

namespace Flag

/-- The flags of every command. -/
def common : List Flag :=
  [schema, statements, dialect, maxDepth, workers, plainText, format, verbose, noColor]

/-- All flags. -/
def all : List Flag := common ++ [daos, logic]

/-- The long name of a flag. -/
def name : Flag → String
  | schema => "schema"
  | statements => "statements"
  | dialect => "dialect"
  | maxDepth => "max-depth"
  | workers => "workers"
  | plainText => "plain-sql"
  | format => "output-format"
  | verbose => "verbose"
  | noColor => "no-color"
  | daos => "dao"
  | logic => "logic"

/-- The letter of a flag. -/
def letter? : Flag → Option Char
  | schema => some 's'
  | statements => some 'q'
  | workers => some 'j'
  | format => some 'f'
  | verbose => some 'v'
  | daos => some 'd'
  | logic => some 'l'
  | _ => none

/-- Whether a flag takes files, of which there may be several. -/
def takesFiles : Flag → Bool
  | schema | statements | daos | logic => true
  | _ => false

/-- Whether a flag takes a value. -/
def takesValue : Flag → Bool
  | plainText | verbose | noColor => false
  | _ => true

/-- The dialect that a flag names. -/
def dialectOf? (name : String) : Option Sql.Dialect :=
  if name == "postgres" then none else Sql.Dialect.ofName? name

/-- The form of a report that a flag names. -/
def formatOf? : String → Option ReportFormat
  | "text" => some .text
  | "json" => some .json
  | "yaml" => some .yaml
  | _ => none

/-- A number as a flag takes it, without blanks. -/
def numberOf? (text : String) : Option Nat :=
  match text.toList with
  | '+' :: digits => Text.word64? digits
  | digits => Text.word64? digits

/-- What is wrong with a value of a flag. -/
def fault? (flag : Flag) (value : String) : Option UsageFault :=
  match flag with
  | schema | statements | daos | logic => if value.isEmpty then some .badValue else none
  | dialect => if (dialectOf? value).isNone then some .badValue else none
  | format => if (formatOf? value).isNone then some .badValue else none
  | maxDepth | workers => if (numberOf? value).isNone then some .badNumber else none
  | plainText | verbose | noColor => none

end Flag
end TableAccess
