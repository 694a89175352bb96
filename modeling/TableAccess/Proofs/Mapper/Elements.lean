import TableAccess.Mapper.Reading
import TableAccess.Proofs.Mapper.Marks

/-! What a mapper takes from a document. The marks inside an element that is taken are kept as they
are written, and the depth counts those of its elements that are open; so the element is closed by its
own tag, whatever stands in it and whatever the elements in it are called. Between such elements
nothing is kept but the namespace. -/
namespace TableAccess
open TableAccess.Markup TableAccess.Text

namespace Markup.Content

/-- The elements for statements and fragments in their order. What is inside them is their content. -/
def taken : Content → List Element
  | text _ => []
  | aside _ _ rest => rest.taken
  | literal _ _ rest => rest.taken
  | leaf _ _ rest => rest.taken
  | element _ tag inside _ rest =>
    if tag.localName ∈ contentNames then
      ⟨tag.localName, tag.valueOf "id", inside.markup⟩ :: rest.taken
    else inside.taken ++ rest.taken

/-- The namespaces that the elements for mappers give, outside of those that are taken. -/
def spaces : Content → List String
  | text _ => []
  | aside _ _ rest => rest.spaces
  | literal _ _ rest => rest.spaces
  | leaf _ _ rest => rest.spaces
  | element _ tag inside _ rest =>
    if tag.localName ∈ contentNames then rest.spaces
    else (if tag.localName = "mapper" then [tag.valueOf "namespace"] else []) ++
      (inside.spaces ++ rest.spaces)

end Markup.Content

/-- The statement that an element stands for, if it is no fragment. -/
def Element.statement? (fragments : List (String × List Char)) (e : Element) :
    Option MapperStatement :=
  e.operation?.map fun operation =>
    ⟨e.id, String.ofList (Fragment.write fragments Fragment.depthLimit e.content), some operation⟩

/-- The mapper of a document. Of fragments with one name the last one counts. -/
def Markup.Document.mapper (d : Document) : Mapper where
  space := d.content.spaces.getLast?.getD ""
  statements := d.content.taken.filterMap
    (Element.statement? (fragmentsOf d.content.taken.reverse))

/-! What is kept. -/

/-- A mark as it is kept inside an element that is taken. -/
def Markup.Mark.written : Mark → List Char
  | opening tag => '<' :: tag ++ ['>']
  | leaf tag => '<' :: tag ++ ['/', '>']
  | closing name => '<' :: '/' :: name ++ ['>']
  | text content => content
  | literal content => "<![CDATA[".toList ++ content ++ "]]>".toList

theorem Markup.Plain.written_marks (t : Plain) : t.marks.flatMap Mark.written = t.chars := by
  unfold Plain.marks
  split
  · next empty => exact (List.isEmpty_iff.mp empty).symm
  · exact List.flatMap_singleton Mark.written (.text t.chars)

/-- The marks of content are kept as the content is written, but for what leaves none. -/
theorem Markup.Content.written_marks (c : Content) : c.marks.flatMap Mark.written = c.markup := by
  induction c with
  | text front => exact front.written_marks
  | aside front a rest ih =>
    rw [marks, List.flatMap_append, front.written_marks, ih]
    rfl
  | literal front s rest ih =>
    rw [marks, List.flatMap_append, List.flatMap_cons, front.written_marks, ih]
    rfl
  | leaf front tag rest ih =>
    rw [marks, List.flatMap_append, List.flatMap_cons, front.written_marks, ih]
    rfl
  | element front tag inside gap rest ihInside ihRest =>
    rw [marks, List.flatMap_append, List.flatMap_cons, List.flatMap_append, List.flatMap_cons,
      front.written_marks, ihInside, ihRest]
    have whole : (element front tag inside gap rest).markup = front.chars ++
        ('<' :: tag.written ++ ['>'] ++ (inside.markup ++
          ('<' :: '/' :: tag.name.chars ++ [] ++ ['>'] ++ rest.markup))) := rfl
    rw [whole, List.append_nil]
    rfl

/-! What becomes of the parts of a mapper. -/

namespace MapperParts
variable {space : String} {e : OpenElement} {elements : List Element}

theorem foldl_plain_outside (t : Plain) :
    t.marks.foldl take ⟨space, none, elements⟩ = ⟨space, none, elements⟩ := by
  unfold Plain.marks
  split <;> rfl

theorem foldl_plain_inside (t : Plain) : t.marks.foldl take ⟨space, some e, elements⟩ =
    ⟨space, some { e with parts := (t.marks.map Mark.written).reverse ++ e.parts }, elements⟩ := by
  unfold Plain.marks
  split <;> rfl

/-- Content adds its marks to an open element, and all elements that it opens are closed again. -/
theorem foldl_inside (c : Content) : c.marks.foldl take ⟨space, some e, elements⟩ =
    ⟨space, some { e with parts := (c.marks.map Mark.written).reverse ++ e.parts }, elements⟩ := by
  induction c generalizing e with
  | text front => exact foldl_plain_inside front
  | aside front a rest ih =>
    rw [Content.marks, List.foldl_append, foldl_plain_inside, ih]
    simp
  | literal front s rest ih =>
    have kept (e : OpenElement) : take ⟨space, some e, elements⟩ (.literal s.chars) =
        ⟨space, some (e.add (Mark.literal s.chars).written), elements⟩ := rfl
    rw [Content.marks, List.foldl_append, foldl_plain_inside, List.foldl_cons, kept, ih]
    simp [OpenElement.add]
  | leaf front tag rest ih =>
    have kept (e : OpenElement) : take ⟨space, some e, elements⟩ (.leaf tag.written) =
        ⟨space, some (e.add (Mark.leaf tag.written).written), elements⟩ := rfl
    rw [Content.marks, List.foldl_append, foldl_plain_inside, List.foldl_cons, kept, ih]
    simp [OpenElement.add]
  | element front tag inside gap rest ihInside ihRest =>
    have opened (name id : String) (depth : Nat) (parts : List (List Char)) :
        take ⟨space, some ⟨name, id, depth, parts⟩, elements⟩ (.opening tag.written) =
          ⟨space, some ⟨name, id, depth + 1, (Mark.opening tag.written).written :: parts⟩,
            elements⟩ := rfl
    have closed (name id : String) (depth : Nat) (parts : List (List Char)) :
        take ⟨space, some ⟨name, id, depth + 1, parts⟩, elements⟩ (.closing tag.name.chars) =
          ⟨space, some ⟨name, id, depth, (Mark.closing tag.name.chars).written :: parts⟩,
            elements⟩ := rfl
    rw [Content.marks, List.foldl_append, foldl_plain_inside, List.foldl_cons, opened,
      List.foldl_append, ihInside, List.foldl_cons, closed, ihRest]
    simp

section Tags
variable (tag : Tag)

private theorem localName_written :
    String.ofList (localName (tagName tag.written)) = tag.localName := by
  rw [tag.tagName_written]
  rfl

/-- An element that is taken is kept as it is written when its own tag closes it. -/
theorem foldl_element (inside : Content) (taken : tag.localName ∈ contentNames) :
    (Mark.opening tag.written :: (inside.marks ++ [Mark.closing tag.name.chars])).foldl take
      ⟨space, none, elements⟩ =
      ⟨space, none, ⟨tag.localName, tag.valueOf "id", inside.markup⟩ :: elements⟩ := by
  have other : (tag.localName == "mapper") = false := by
    rw [beq_eq_false_iff_ne]
    rintro same
    rw [same] at taken
    exact absurd taken (by decide)
  have opened : take ⟨space, none, elements⟩ (.opening tag.written) =
      ⟨space, some ⟨tag.localName, tag.valueOf "id", 0, []⟩, elements⟩ := by
    simp only [take, outside, localName_written, other, tag.attributeOf_written]
    simp [taken]
  have closed (parts : List (List Char)) :
      take ⟨space, some ⟨tag.localName, tag.valueOf "id", 0, parts⟩, elements⟩
        (.closing tag.name.chars) =
      ⟨space, none, ⟨tag.localName, tag.valueOf "id", parts.reverse.flatten⟩ :: elements⟩ := rfl
  rw [List.foldl_cons, opened, List.foldl_append, foldl_inside, List.foldl_cons, List.foldl_nil,
    closed, List.append_nil, List.reverse_reverse, ← List.flatMap_def, inside.written_marks]

/-- An element that is not taken only changes the namespace, if it is one for a mapper. -/
theorem take_opening_outside (other : tag.localName ∉ contentNames) :
    take ⟨space, none, elements⟩ (.opening tag.written) =
      ⟨if tag.localName = "mapper" then tag.valueOf "namespace" else space, none, elements⟩ := by
  simp only [take, outside, localName_written, tag.attributeOf_written]
  by_cases mapper : tag.localName = "mapper" <;> simp [mapper, other]

end Tags

private theorem getLast?_append_getD {names more : List String} :
    (names ++ more).getLast?.getD space = more.getLast?.getD (names.getLast?.getD space) := by
  rw [List.getLast?_append]
  cases more.getLast? <;> rfl

/-- Outside of the elements that are taken content adds those that are in it. -/
theorem foldl_outside (c : Content) : c.marks.foldl take ⟨space, none, elements⟩ =
    ⟨c.spaces.getLast?.getD space, none, c.taken.reverse ++ elements⟩ := by
  induction c generalizing space elements with
  | text front => exact foldl_plain_outside front
  | aside front a rest ih =>
    rw [Content.marks, List.foldl_append, foldl_plain_outside, ih]
    rfl
  | literal front s rest ih =>
    have ignored : take ⟨space, none, elements⟩ (.literal s.chars) = ⟨space, none, elements⟩ := rfl
    rw [Content.marks, List.foldl_append, foldl_plain_outside, List.foldl_cons, ignored, ih]
    rfl
  | leaf front tag rest ih =>
    have ignored : take ⟨space, none, elements⟩ (.leaf tag.written) = ⟨space, none, elements⟩ := rfl
    rw [Content.marks, List.foldl_append, foldl_plain_outside, List.foldl_cons, ignored, ih]
    rfl
  | element front tag inside gap rest ihInside ihRest =>
    rw [Content.marks, List.foldl_append, foldl_plain_outside]
    by_cases taken : tag.localName ∈ contentNames
    · have own : Mark.opening tag.written :: (inside.marks ++ Mark.closing tag.name.chars :: rest.marks) =
          Mark.opening tag.written :: (inside.marks ++ [Mark.closing tag.name.chars]) ++ rest.marks := by
        simp
      rw [own, List.foldl_append, foldl_element tag inside taken, ihRest]
      simp [Content.taken, Content.spaces, taken]
    · have ignored (space : String) (elements : List Element) :
          take ⟨space, none, elements⟩ (.closing tag.name.chars) = ⟨space, none, elements⟩ := rfl
      rw [List.foldl_cons, take_opening_outside tag taken, List.foldl_append, ihInside,
        List.foldl_cons, ignored, ihRest]
      rw [Content.taken, Content.spaces, if_neg taken, if_neg taken, getLast?_append_getD,
        getLast?_append_getD, List.reverse_append, List.append_assoc]
      split <;> rfl

end MapperParts

example : Mapper.ofXml "m.xml"
    "<mapper namespace=\"m\"><select id=\" a \">x<select>y</select ><!-- z --></select></mapper>" =
    .ok ⟨"m", [⟨"a", "x<select>y</select>", some .read⟩]⟩ := by
  rfl

end TableAccess
