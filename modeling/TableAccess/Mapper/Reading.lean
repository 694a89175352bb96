import TableAccess.Document.Record
import TableAccess.Error
import TableAccess.Mapper.Fragment
import TableAccess.Mapper.Markup

/-! Mappers in XML. Each element for a statement or a fragment is taken with everything in
it as it is written; such elements inside it are part of its text. Fragments are included
once all are known, so they may stand behind the statements that include them. -/
namespace TableAccess
open TableAccess.Markup

/-- An element whose content is being taken. `depth` elements are open in it, and its
content is kept backwards, part by part. -/
structure OpenElement where
  name : String
  id : String
  depth : Nat
  parts : List (List Char)
deriving Repr, Inhabited

/-- An element with its content. -/
structure Element where
  name : String
  id : String
  content : List Char
deriving DecidableEq, Repr, Inhabited

/-- What was found in a mapper so far, the latest element first. -/
structure MapperParts where
  space : String
  current : Option OpenElement
  elements : List Element
deriving Repr, Inhabited

/-- The elements whose content is taken. -/
def contentNames : List String := ["select", "insert", "update", "delete", "sql"]

namespace OpenElement

/-- Add to the content. -/
def add (e : OpenElement) (part : List Char) : OpenElement := { e with parts := part :: e.parts }

/-- The element once it is closed. -/
def close (e : OpenElement) : Element := ⟨e.name, e.id, e.parts.reverse.flatten⟩

end OpenElement

namespace MapperParts

/-- Nothing. -/
def empty : MapperParts := ⟨"", none, []⟩

/-- Take a mark that stands outside all elements whose content is taken. -/
def outside (m : MapperParts) : Mark → MapperParts
  | .opening tag =>
    let name := String.ofList (localName (tagName tag))
    if name == "mapper" then { m with space := attributeOf "namespace" tag }
    else if contentNames.contains name then
      { m with current := some ⟨name, attributeOf "id" tag, 0, []⟩ }
    else m
  | _ => m

/-- Take a mark inside an element. -/
def inside (m : MapperParts) (e : OpenElement) : Mark → MapperParts
  | .opening tag =>
    let e := { e with depth := e.depth + 1 }
    { m with current := some (e.add ('<' :: tag ++ ['>'])) }
  | .leaf tag => { m with current := some (e.add ('<' :: tag ++ ['/', '>'])) }
  | .closing name =>
    if e.depth == 0 then { m with current := none, elements := e.close :: m.elements }
    else
      let e := { e with depth := e.depth - 1 }
      { m with current := some (e.add ('<' :: '/' :: name ++ ['>'])) }
  | .text content => { m with current := some (e.add content) }
  | .literal content =>
    { m with current := some (e.add ("<![CDATA[".toList ++ content ++ "]]>".toList)) }

/-- Take a mark. -/
def take (m : MapperParts) (mark : Mark) : MapperParts :=
  match m.current with
  | some e => m.inside e mark
  | none => m.outside mark

end MapperParts

/-- The operation of an element for a statement. -/
def Element.operation? (e : Element) : Option Operation :=
  match e.name with
  | "select" => some .read
  | "insert" => some .create
  | "update" => some .update
  | "delete" => some .delete
  | _ => none

/-- The fragments among some elements, the latest first. -/
def fragmentsOf (elements : List Element) : List (String × List Char) :=
  (elements.filter fun e => e.operation?.isNone).map fun e => (e.id, e.content)

namespace Mapper

/-- The mapper that some marks make up. -/
def ofMarks (marks : List Mark) : Mapper :=
  let found := marks.foldl MapperParts.take MapperParts.empty
  let fragments := fragmentsOf found.elements
  let statements := found.elements.reverse.filterMap fun e =>
    e.operation?.map fun operation =>
      MapperStatement.mk e.id
        (String.ofList (Fragment.write fragments Fragment.depthLimit e.content)) (some operation)
  ⟨found.space, statements⟩

/-- The mapper in the text of a file. -/
def ofXml (path text : String) : Except Error Mapper :=
  match marks? text.toList with
  | some marks => .ok (ofMarks marks)
  | none => .error (.malformed path "")

end Mapper
end TableAccess
