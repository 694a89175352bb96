import TableAccess.Sql.Dialect
import TableAccess.Template.Clause

/-! The text of a statement as mappers hold it: a template with parameters, with parts
that depend on conditions, and with elements for clauses. It is made a single statement
that has every conditional part, one branch of each choice and one round of each loop, so
that each column that some execution could read is in it. -/
namespace TableAccess
open TableAccess.Text

/-- What the texts of statements are. -/
inductive TextSource where
  | plain | mapper
deriving DecidableEq, Repr, Inhabited

/-- How a parameter is written in a statement. -/
inductive Placeholder where
  | mark | numbered
deriving DecidableEq, Repr, Inhabited

/-- The form of a parameter that a dialect reads as one. -/
def Placeholder.of : Sql.Dialect → Placeholder
  | .postgresql => .numbered
  | _ => .mark

/-- The statement that a template stands for, and the names of its parameters and of what
is put into its text, each once, in the order of their first appearance. -/
structure Filled where
  text : String
  parameters : List String
  substitutions : List String
deriving DecidableEq, Repr, Inhabited

namespace Template

/-- A branch of a choice: whether it has a condition, and its body. -/
def branches (body : List Char) : List (Bool × List Char) :=
  let names := ["when", "otherwise"]
  (occurrences (element (opening true names) names) body).map fun ((name, _), body) =>
    (name == "when", body)

/-- The branch that stands for a choice: the first one with a condition, or else the first
one. -/
def branch (body : List Char) : List Char :=
  let all := branches body
  let chosen := (all.find? Prod.fst).orElse fun _ => all.head?
  ' ' :: (chosen.map Prod.snd).getD [] ++ [' ']

/-- The tag that opens a choice; it has no attributes. -/
def choiceOpening : Pattern Unit := fun text => do
  let rest ← afterStart? "<choose".toList text
  let rest ← afterStart? ['>'] (trimStart rest)
  return ((), rest)

/-- One round of a loop, between what opens and closes its result. -/
def round (attributes body : List Char) : List Char :=
  let part := fun name => (attribute? attributes name).getD []
  ' ' :: part "open" ++ body ++ part "close" ++ [' ']

/-- A parameter. What follows its name says how it is passed. -/
def parameter : Pattern (List Char) := fun text => do
  let rest := trimStart (← afterStart? ['#', '\x7b'] text)
  let inName := fun c => !(c == ',' || c == '\x7d' || isBlank c)
  let name := rest.takeWhile inName
  if name.isEmpty then none
  let (_, rest) ← splitAt? ['\x7d'] (rest.dropWhile inName)
  return (name, rest)

/-- Something that is put into the text as it is. -/
def substitution : Pattern (List Char) := fun text => do
  let rest := trimStart (← afterStart? ['$', '\x7b'] text)
  let inName := fun c => !(c == '\x7d' || isBlank c)
  let name := rest.takeWhile inName
  if name.isEmpty then none
  let rest ← afterStart? ['\x7d'] (trimStart (rest.dropWhile inName))
  return (name, rest)

/-- The names that a pattern finds, each once. -/
def namesFound (pattern : Pattern (List Char)) (text : List Char) : List String :=
  ((occurrences pattern text).map String.ofList).eraseDups

/-- Write the parameters of a text, the first as number `next`. -/
def writeParameters (form : Placeholder) : Nat → List (Segment (List Char)) → List Char
  | _, [] => []
  | next, .plain c :: rest => c :: writeParameters form next rest
  | next, .found _ :: rest =>
    match form with
    | .mark => '?' :: writeParameters form next rest
    | .numbered => '$' :: (toString next).toList ++ writeParameters form (next + 1) rest

/-- A name as an identifier. -/
def identifier (name : List Char) : List Char :=
  name.map fun c => if isLetter c || isNumber c || c == '_' then c else '_'

/-- The text with each run of blanks as one blank, and none at its ends. `pending` says
that a blank is due before the next word. -/
def squeeze (pending : Bool) : List Char → List Char
  | [] => []
  | c :: rest =>
    if isBlank c then squeeze true rest
    else if pending then ' ' :: c :: squeeze false rest
    else c :: squeeze false rest

/-- The words of a text with one blank between each two. -/
def words (text : List Char) : List Char := squeeze false (trimStart text)

/-- A template without its elements. What they stand for is written in their place. -/
def flatten (text : List Char) : List Char :=
  let blank := fun (_ : Unit) => [' ']
  let text := replace (between "<!--" "-->") (fun _ => [' ']) text
  let text := replace (between "<![CDATA[" "]]>") escape text
  let text := replace (element choiceOpening ["choose"]) (fun (_, body) => branch body) text
  let text := replace (element (opening true ["foreach"]) ["foreach"])
    (fun ((_, attributes), body) => round attributes body) text
  let text := replace (tagOf ["if", "when", "otherwise", "include", "bind", "property"]) blank text
  replace anyTag blank (writeClauses text)

/-- The statement of a template. -/
def fill (form : Placeholder) (template : String) : Filled :=
  let text := flatten template.toList
  let numbered := writeParameters form 1 (segments parameter text)
  let written := unescape (replace substitution identifier numbered)
  ⟨String.ofList (words written), namesFound parameter text, namesFound substitution text⟩

end Template

/-- The statement of a text. Plain text is a statement already. -/
def TextSource.statement (source : TextSource) (form : Placeholder) (text : String) : Filled :=
  match source with
  | .plain => ⟨text, [], []⟩
  | .mapper => Template.fill form text

end TableAccess
