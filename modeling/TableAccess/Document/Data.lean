/-! What is written into a document, whatever its notation: texts, numbers, lists and
tables, whose fields stand in the order in which they are given. -/
namespace TableAccess.Document

/-- Something to be written. -/
inductive Data where
  | text (content : String)
  | number (n : Nat)
  | list (items : List Data)
  | table (fields : List (String × Data))
deriving Repr, Inhabited

namespace Data

/-- A list of texts. -/
def texts (items : List String) : Data := .list (items.map .text)

/-- A field that is left out where it has no value. -/
def optional (key : String) (value : Option String) : List (String × Data) :=
  match value with
  | some content => [(key, .text content)]
  | none => []

end Data

/-- Lines further to the right. An empty line stays empty. -/
def indented (lines : List String) : List String :=
  lines.map fun line => if line.isEmpty then line else "  " ++ line

/-- Lines as the inside of something that starts with a mark of two characters. -/
def hung (mark : String) (lines : List String) : List String :=
  match lines with
  | [] => []
  | first :: rest => (mark ++ first) :: indented rest

end TableAccess.Document
