/-! Documents without their notation. Both notations have texts, lists and tables; what
else stands for a value is kept as it is written, since what it means depends on what is
asked for. A document that breaks off has the values before the fault, so that a fault of
another kind that comes first is found first. -/
namespace TableAccess.Document

/-- A value in a document. -/
inductive Value where
  /-- A text between quotes. -/
  | text (content : String)
  /-- Something that stands without quotes. -/
  | plain (written : String)
  | list (items : List Value)
  /-- Fields in the order of the document. A key that is no text has no name. -/
  | table (fields : List (Option String × Value))
  /-- A value that says itself of what kind it is. -/
  | tagged (tag : String) (value : Value)
  /-- No value: a text that stands for no characters, or the place of a fault. -/
  | broken
deriving Repr, Inhabited

/-- What was read, and whether the document is as it should be up to its end. -/
structure Read where
  value : Value
  whole : Bool
deriving Repr, Inhabited

/-- The value of a document without fault. -/
def Read.value? (r : Read) : Option Value := if r.whole then some r.value else none

end TableAccess.Document
