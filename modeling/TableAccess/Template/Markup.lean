import TableAccess.Text.Segment

/-! Tags inside the text of a statement. The text is not a document: operators such as
`<` stand in it unescaped, and elements may be left open. So tags are patterns that are
looked for, and what is none stays as it is. -/
namespace TableAccess.Template
open TableAccess.Text

/-- Write the characters that open tags and entities as entities. -/
def escape : List Char → List Char
  | [] => []
  | '&' :: rest => "&amp;".toList ++ escape rest
  | '<' :: rest => "&lt;".toList ++ escape rest
  | '>' :: rest => "&gt;".toList ++ escape rest
  | c :: rest => c :: escape rest

/-- Replace the five named entities. -/
def unescape : List Char → List Char
  | '&' :: 'l' :: 't' :: ';' :: rest => '<' :: unescape rest
  | '&' :: 'g' :: 't' :: ';' :: rest => '>' :: unescape rest
  | '&' :: 'q' :: 'u' :: 'o' :: 't' :: ';' :: rest => '"' :: unescape rest
  | '&' :: 'a' :: 'p' :: 'o' :: 's' :: ';' :: rest => '\'' :: unescape rest
  | '&' :: 'a' :: 'm' :: 'p' :: ';' :: rest => '&' :: unescape rest
  | c :: rest => c :: unescape rest
  | [] => []

/-- Whether a word ends before a text. -/
def endsWord : List Char → Bool
  | [] => true
  | c :: _ => !isWordChar c

/-- The first of some words that a text starts with, as a whole. -/
def someWord? (words : List String) (text : List Char) : Option (String × List Char) :=
  words.findSome? fun word =>
    match afterStart? word.toList text with
    | some rest => if endsWord rest then some (word, rest) else none
    | none => none

/-- The inside of a tag up to the bracket that closes it. A bracket within quotes does not
close it; a slash outside of them is allowed or not. `quote` is the quote that is open. -/
def tagRest? (slashAllowed : Bool) : Option Char → Pattern (List Char)
  | _, [] => none
  | none, c :: rest =>
    if c == '>' then some ([], rest)
    else if c == '/' && !slashAllowed then none
    else
      let quote := if c == '"' || c == '\'' then some c else none
      (tagRest? slashAllowed quote rest).map fun (inside, after) => (c :: inside, after)
  | some q, c :: rest =>
    (tagRest? slashAllowed (if c == q then none else some q) rest).map fun (inside, after) =>
      (c :: inside, after)

/-- A tag that closes one of some elements. -/
def closing (names : List String) : Pattern Unit := fun text => do
  let rest ← afterStart? ['<', '/'] text
  let rest ← names.findSome? fun name => do
    let rest ← afterStart? name.toList rest
    afterStart? ['>'] (trimStart rest)
  return ((), rest)

/-- A tag that opens one of some elements: its name and its attributes. -/
def opening (slashAllowed : Bool) (names : List String) : Pattern (String × List Char) :=
  fun text => do
    let rest ← afterStart? ['<'] text
    let (name, rest) ← someWord? names rest
    let (attributes, rest) ← tagRest? slashAllowed none rest
    return ((name, attributes), rest)

/-- What an opening pattern finds, with the body up to the first closing tag. -/
def element {α : Type} (start : Pattern α) (names : List String) : Pattern (α × List Char) :=
  fun text => do
    let (tag, rest) ← start text
    let (body, _, rest) ← firstPlace? (closing names) rest
    return ((tag, body), rest)

/-- Everything between two marks. -/
def between (start finish : String) : Pattern (List Char) := fun text => do
  let rest ← afterStart? start.toList text
  splitAt? finish.toList rest

/-- A tag that opens or closes one of some elements. -/
def tagOf (names : List String) : Pattern Unit := fun text => do
  let rest ← afterStart? ['<'] text
  let (_, rest) ← someWord? names ((afterStart? ['/'] rest).getD rest)
  let (_, rest) ← tagRest? true none rest
  return ((), rest)

/-- A tag of any element. -/
def anyTag : Pattern Unit := fun text => do
  let rest ← afterStart? ['<'] text
  match (afterStart? ['/'] rest).getD rest with
  | [] => none
  | c :: rest =>
    if isAsciiLetter c then (tagRest? true none rest).map fun (_, after) => ((), after)
    else none

/-- An attribute with a value in double quotes. A name has only ASCII letters. -/
def attributePattern : Pattern (List Char × List Char) := fun text => do
  let name := text.takeWhile isAsciiLetter
  if name.isEmpty then none
  let rest ← afterStart? ['='] (trimStart (text.dropWhile isAsciiLetter))
  let rest ← afterStart? ['"'] (trimStart rest)
  let (value, rest) ← splitAt? ['"'] rest
  return ((name, value), rest)

/-- The value of an attribute, with its entities replaced. -/
def attribute? (attributes : List Char) (name : String) : Option (List Char) :=
  ((occurrences attributePattern attributes).find? fun a => a.1 == name.toList).map fun a =>
    unescape a.2

end TableAccess.Template
