import TableAccess.Template.Markup

/-! Elements that stand for a clause. Each writes a keyword in front of its body and takes
away the connective or comma that the conditional parts of the body may have left at its
edge; without a body it writes nothing. Such elements are nested, so the one that opens
last is written first, up to the next tag that closes one. -/
namespace TableAccess.Template
open TableAccess.Text

/-- The elements that stand for a clause. -/
def clauseNames : List String := ["where", "set", "trim"]

/-- What follows the start of a text, whatever the case of its ASCII letters. -/
def afterStartFolded? (start text : List Char) : Option (List Char) :=
  match afterStart? (start.map Char.toLower) (text.map Char.toLower) with
  | some _ => some (text.drop start.length)
  | none => none

/-- The body of a condition without the connective in front. -/
def withoutConnective (body : List Char) : List Char :=
  let found := ["AND", "OR"].findSome? fun word =>
    match afterStartFolded? word.toList body with
    | some rest => if endsWord rest then some rest else none
    | none => none
  found.getD body

/-- The body of a list of assignments without the comma behind. -/
def withoutComma (body : List Char) : List Char :=
  match body.reverse with
  | ',' :: rest => rest.reverse
  | _ => body

/-- The alternatives of an override. -/
def overrides (written : List Char) : List (List Char) :=
  ((splitOnChar '|' written).map trim).filter fun c => !c.isEmpty

/-- A body without the first of some texts that it starts with. -/
def withoutStart (body written : List Char) : List Char :=
  ((overrides written).findSome? fun c => afterStartFolded? c (trim body)).getD (trim body)

/-- A body without the first of some texts that it ends with. -/
def withoutEnd (body written : List Char) : List Char :=
  let backwards := (trim body).reverse
  match (overrides written).findSome? fun c => afterStartFolded? c.reverse backwards with
  | some rest => rest.reverse
  | none => trim body

/-- The body of an element that states itself what it takes away and adds. -/
def trimmedBody (attributes body : List Char) : List Char :=
  let body := match attribute? attributes "prefixOverrides" with
    | some written => withoutStart body written
    | none => body
  let body := match attribute? attributes "suffixOverrides" with
    | some written => withoutEnd body written
    | none => body
  body ++ ' ' :: (attribute? attributes "suffix").getD []

/-- A keyword and a body between blanks, or only a blank where the body is blank. -/
def keywordAndBody (keyword body : List Char) : List Char :=
  let body := trim body
  if body.isEmpty then [' '] else ' ' :: keyword ++ ' ' :: body ++ [' ']

/-- What an element that stands for a clause writes. -/
def clause (name : String) (attributes body : List Char) : List Char :=
  let body := trim body
  match name with
  | "where" => keywordAndBody "WHERE".toList (withoutConnective body)
  | "set" => keywordAndBody "SET".toList (withoutComma body)
  | _ => keywordAndBody ((attribute? attributes "prefix").getD []) (trimmedBody attributes body)

/-- The tag that opens a clause. -/
def clauseOpening : Pattern (String × List Char) := opening false clauseNames

/-- The text with its innermost clause written. An opening tag that nothing closes is
dropped. -/
def writeInnermost? (text : List Char) : Option (List Char) := do
  let (before, (name, attributes), after) ← lastPlace? clauseOpening text
  match firstPlace? (closing clauseNames) after with
  | some (body, _, rest) => return before ++ clause name attributes body ++ rest
  | none => return before ++ ' ' :: after

/-- The text with every clause written. Writing a clause makes the text shorter, so this
comes to an end. -/
def writeClauses (text : List Char) : List Char :=
  match writeInnermost? text with
  | none => text
  | some written =>
    if written.length < text.length then writeClauses written else written
termination_by text.length

end TableAccess.Template
