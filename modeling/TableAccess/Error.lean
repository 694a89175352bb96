import TableAccess.Text.Search

/-! What can go wrong before there is anything to report: an input that cannot be read
or decoded, a schema or statement that does not parse, a wrong setting. A parser ends
its message with the place of the fault; the place is repeated in front, where a reader
looks first. -/
namespace TableAccess
open TableAccess.Text

/-- What went wrong. -/
inductive Error where
  | unreadable (path reason : String)
  | malformed (path reason : String)
  | schema (reason : String)
  /-- A schema document is not a table of column lists; `shown` is the text at fault. -/
  | schemaDocument (shown : String)
  | statement (reason : String)
  | setting (message : String)
deriving DecidableEq, Repr, Inhabited

/-- The place that a message states: a line and a column, written as a parser ends its
messages. Only the first line number counts, and more colons or blanks may stand before
the column. -/
def statedPlace? (message : List Char) : Option (Nat × Nat) := do
  let (_, rest) ← splitAt? "Line: ".toList message
  let lineDigits := rest.takeWhile isAsciiDigit
  let afterLine := rest.dropWhile isAsciiDigit
  let line ← word64? lineDigits
  let afterWord ← afterStart? ", Column".toList afterLine
  let column ← word64? ((trimStart (afterWord.dropWhile (· == ':'))).takeWhile isAsciiDigit)
  return (line, column)

/-- A heading with the place that a text states. -/
def placedHeading (heading text : String) : String :=
  match statedPlace? text.toList with
  | some (line, column) =>
    heading ++ " at line " ++ toString line ++ ", column " ++ toString column ++ ":\n  "
  | none => heading ++ ":\n  "

/-- A message with its place in front. -/
def placedMessage (heading message : String) : String := placedHeading heading message ++ message

namespace Error

/-- The wording of an error. -/
def message : Error → String
  | unreadable path reason => "Failed to read file '" ++ path ++ "': " ++ reason
  | malformed path reason => "Malformed input '" ++ path ++ "': " ++ reason
  | schema reason => placedMessage "Schema parse error" reason
  | schemaDocument shown => placedHeading "Schema parse error" shown ++ "invalid schema JSON: "
  | statement reason => placedMessage "Statement parse error" reason
  | setting message => message

/-- Whether the fault lies with the machine rather than with what was asked for. -/
def isInternal : Error → Bool
  | unreadable _ _ => true
  | _ => false

/-- An error as it is displayed. The library of errors (masterror 0.26) displays the kind alone, with
these words; the message is kept apart and not shown. -/
def label (e : Error) : String :=
  if e.isInternal then "Internal server error" else "Bad request"

end Error
end TableAccess
