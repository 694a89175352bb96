import TableAccess.Document.Json
import TableAccess.Text.Search

/-! The marks of an XML text in order: tags that open and close elements, empty elements,
texts and literal sections. Comments, instructions and declarations leave none. A closing
tag must name the element that was opened last; elements that are still open at the end
are no fault. -/
namespace TableAccess.Markup
open TableAccess.Text

/-- A mark. Tags and texts are kept as they are written. -/
inductive Mark where
  | opening (tag : List Char)
  | leaf (tag : List Char)
  | closing (name : List Char)
  | text (content : List Char)
  | literal (content : List Char)
deriving DecidableEq, Repr

/-- Whether a character is a blank inside a tag. -/
def isBlank (c : Char) : Bool := c == ' ' || c == '\r' || c == '\n' || c == '\t'

/-- The name of an element, from its tag. -/
def tagName (tag : List Char) : List Char := tag.takeWhile fun c => !isBlank c

/-- A name without its qualifier. -/
def localName (name : List Char) : List Char :=
  match name.dropWhile (· != ':') with
  | _ :: rest => rest
  | [] => name

/-- The inside of a tag and what follows it. A bracket within quotes does not close it.
`quote` is the quote that is open. -/
def tag? : Option Char → List Char → Option (List Char × List Char)
  | _, [] => none
  | none, c :: rest =>
    if c == '>' then some ([], rest)
    else
      let quote := if c == '"' || c == '\'' then some c else none
      (tag? quote rest).map fun (inside, after) => (c :: inside, after)
  | some q, c :: rest =>
    (tag? (if c == q then none else some q) rest).map fun (inside, after) => (c :: inside, after)

/-- The inside of a declaration, in which further brackets may be open, and what follows
it. -/
def declaration? : Nat → List Char → Option (List Char × List Char)
  | _, [] => none
  | depth, c :: rest =>
    if c == '>' && depth == 0 then some ([], rest)
    else
      let depth := if c == '<' then depth + 1 else if c == '>' then depth - 1 else depth
      (declaration? depth rest).map fun (inside, after) => (c :: inside, after)

/-- What follows a comment; the text starts behind the two characters that open it. -/
def afterComment? (text : List Char) : Option (List Char) := do
  let rest ← afterStart? ['-'] text
  (splitAt? "-->".toList rest).map Prod.snd

/-- What follows a declaration of the document's type, which must say something. -/
def afterDeclaration? (text : List Char) : Option (List Char) := do
  let (inside, rest) ← declaration? 0 text
  let named ← afterStart? "doctype".toList (inside.map Char.toLower)
  if named.all isBlank then none else return rest

/-- What follows an instruction; the text starts at its question mark. -/
def afterInstruction? (text : List Char) : Option (List Char) := do
  let (inside, rest) ← splitAt? "?>".toList text
  if inside.isEmpty then none else return rest

/-- The mark at the start of a text, if what stands there leaves one, and what follows.
The text starts behind an opening bracket. -/
def markup? (text : List Char) : Option (Option Mark × List Char) :=
  match text with
  | '!' :: '-' :: rest => (afterComment? rest).map fun after => (none, after)
  | '!' :: '[' :: _ => do
    let rest ← afterStart? "![CDATA[".toList text
    let (content, after) ← splitAt? "]]>".toList rest
    return (some (.literal content), after)
  | '!' :: rest => (afterDeclaration? rest).map fun after => (none, after)
  | '?' :: _ => (afterInstruction? text).map fun after => (none, after)
  | _ => do
    let (tag, after) ← tag? none text
    match tag, tag.reverse with
    | '/' :: name, _ =>
      return (some (.closing ((name.reverse.dropWhile isBlank).reverse)), after)
    | _, '/' :: backwards => return (some (.leaf backwards.reverse), after)
    | _, _ => return (some (.opening tag), after)

/-- The open elements after a mark, innermost first. -/
def openAfter? (outer : List (List Char)) : Mark → Option (List (List Char))
  | .opening tag => some (tagName tag :: outer)
  | .closing name =>
    match outer with
    | innermost :: rest => if innermost == name then some rest else none
    | [] => none
  | _ => some outer

/-- The marks of a text inside some elements. Each step takes a character. -/
def marksWithin? : Nat → List (List Char) → List Char → Option (List Mark)
  | _, _, [] => some []
  | 0, _, _ => none
  | budget + 1, outer, '<' :: rest => do
    let (mark, after) ← markup? rest
    match mark with
    | none => marksWithin? budget outer after
    | some mark => return mark :: (← marksWithin? budget (← openAfter? outer mark) after)
  | budget + 1, outer, text =>
    let content := text.takeWhile (· != '<')
    (marksWithin? budget outer (text.dropWhile (· != '<'))).map (.text content :: ·)

/-- The marks of a text. -/
def marks? (text : List Char) : Option (List Mark) :=
  let text := if text.head? == some '\ufeff' then text.drop 1 else text
  marksWithin? text.length [] text

/-- The character of an entity. -/
def entity? (name : List Char) : Option Char :=
  let number := fun (code : Option Nat) => do
    let n ← code
    if n == 0 then none
    if h : n.isValidChar then return (Char.ofNatAux n h) else none
  match name with
  | '#' :: 'x' :: digits => if digits.isEmpty then none else number (Document.Json.hexValue? digits)
  | '#' :: digits => number (word64? digits)
  | _ =>
    match String.ofList name with
    | "lt" => some '<'
    | "gt" => some '>'
    | "amp" => some '&'
    | "apos" => some '\''
    | "quot" => some '"'
    | _ => none

/-- A text with its entities replaced. -/
def unescape? : Nat → List Char → Option (List Char)
  | _, [] => some []
  | 0, _ => none
  | budget + 1, '&' :: rest => do
    let name := rest.takeWhile fun c => c != ';' && c != '&'
    let after ← afterStart? [';'] (rest.drop name.length)
    return (← entity? name) :: (← unescape? budget after)
  | budget + 1, c :: rest => (unescape? budget rest).map (c :: ·)

/-- The next attribute of a tag, and what follows it. -/
def attribute? (text : List Char) : Option ((List Char × List Char) × List Char) := do
  let text := text.dropWhile isBlank
  let isInKey := fun c => c != '=' && !isBlank c
  let key := text.take 1 ++ (text.drop 1).takeWhile isInKey
  let rest ← afterStart? ['='] (((text.drop 1).dropWhile isInKey).dropWhile isBlank)
  match rest.dropWhile isBlank with
  | quote :: rest =>
    if quote == '"' || quote == '\'' then
      let (value, rest) ← splitAt? [quote] rest
      return ((key, value), rest)
    else none
  | [] => none

/-- The value of an attribute as it is written. Attributes behind a fault are not
found. -/
def findAttribute? (name : List Char) : Nat → List Char → Option (List Char)
  | 0, _ => none
  | budget + 1, text => do
    let ((key, value), rest) ← attribute? text
    if key == name then return value else findAttribute? name budget rest

/-- The value of an attribute without the blanks around it; empty if there is none. -/
def attributeOf (name : String) (tag : List Char) : String :=
  let value := do
    let written ← findAttribute? name.toList tag.length (tag.drop (tagName tag).length)
    unescape? written.length written
  String.ofList (trim (value.getD []))

end TableAccess.Markup
