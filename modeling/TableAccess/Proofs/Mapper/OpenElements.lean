import TableAccess.Mapper.Reading
import TableAccess.Proofs.Mapper.Cuts

/-! Elements that are left open. What is taken of an element counts once its own tag closes it; an
element that is still open at the end of a text is dropped, and nothing tells that it was there. -/
namespace TableAccess
open TableAccess.Markup TableAccess.Text

namespace Markup

/-- Whether the content of elements of a name is taken. -/
def IsTaken (name : List Char) : Prop := String.ofList (localName name) ∈ contentNames

instance : DecidablePred IsTaken := fun name =>
  inferInstanceAs (Decidable (String.ofList (localName name) ∈ contentNames))

/-- The element that a tag opens, without its content. -/
def elementOf (tag : List Char) : Element :=
  ⟨String.ofList (localName (tagName tag)), attributeOf "id" tag, []⟩

/-- The element that a mark opens, if its content is taken and it stands in no other such element. -/
def opened (outer : List (List Char)) : Mark → List Element
  | .opening tag => if IsTaken (tagName tag) ∧ ∀ name ∈ outer, ¬ IsTaken name then [elementOf tag] else []
  | _ => []

/-- The elements that are opened by some marks and whose content is taken, in their order. -/
def openedAll (outer : List (List Char)) : List Mark → List Element
  | [] => []
  | mark :: rest => opened outer mark ++ openedAll ((openAfter? outer mark).getD outer) rest

end Markup

/-- The name and the operation of the statement that an element stands for. -/
def Element.heading? (e : Element) : Option (String × Option Operation) :=
  e.operation?.map fun operation => (e.id, some operation)

/-- An element without its content. -/
def Element.bare (e : Element) : Element := { e with content := [] }

/-- An element that is open, without its content. -/
def OpenElement.bare (e : OpenElement) : Element := ⟨e.name, e.id, []⟩

/-- All elements that were found, the open one included, in their order. -/
def MapperParts.bare (m : MapperParts) : List Element :=
  m.elements.reverse.map Element.bare ++ (m.current.map OpenElement.bare).toList

namespace MapperParts
variable {space : String} {e : OpenElement} {elements : List Element} {tag closed : List Char}

theorem take_taken (taken : IsTaken (tagName tag)) : take ⟨space, none, elements⟩ (.opening tag) = ⟨space,
    some ⟨String.ofList (localName (tagName tag)), attributeOf "id" tag, 0, []⟩, elements⟩ := by
  have noMapper : (String.ofList (localName (tagName tag)) == "mapper") = false := by
    rw [beq_eq_false_iff_ne]
    intro same
    exact absurd (same ▸ taken : "mapper" ∈ contentNames) (by decide)
  simp only [take, outside, noMapper]
  exact if_pos (List.contains_iff_mem.mpr taken)

theorem take_other (other : ¬ IsTaken (tagName tag)) :
    ∃ space', take ⟨space, none, elements⟩ (.opening tag) = ⟨space', none, elements⟩ := by
  simp only [take, outside]
  split
  · exact ⟨_, rfl⟩
  · exact ⟨_, if_neg (mt List.contains_iff_mem.mp other)⟩

/-- The tag of an element itself closes it. -/
theorem take_closing_own (own : e.depth = 0) : take ⟨space, some e, elements⟩ (.closing closed) =
    ⟨space, none, e.close :: elements⟩ := if_pos (by simp [own])

theorem take_closing_inner {depth : Nat} (inner : e.depth = depth + 1) :
    take ⟨space, some e, elements⟩ (.closing closed) = ⟨space, some { e with
      depth := depth, parts := ('<' :: '/' :: closed ++ ['>']) :: e.parts }, elements⟩ := by
  obtain ⟨name, id, _, parts⟩ := e
  obtain rfl : _ = depth + 1 := inner
  rfl

end MapperParts

/-- Whether an open element is the outermost one among those that are open and taken. As many elements
are open in it as it says. -/
inductive Tracks : List (List Char) → Option OpenElement → Prop where
  | outside {outer : List (List Char)} (others : ∀ name ∈ outer, ¬ IsTaken name) : Tracks outer none
  | inside {within outer : List (List Char)} {name : List Char} {e : OpenElement} (taken : IsTaken name)
      (named : e.name = String.ofList (localName name)) (depth : e.depth = within.length)
      (others : ∀ name ∈ outer, ¬ IsTaken name) : Tracks (within ++ name :: outer) (some e)

namespace Tracks
variable {m : MapperParts} {mark : Mark} {marks : List Mark} {outer left within : List (List Char)}
  {space : String} {elements : List Element} {e : OpenElement} {name : List Char}

/-- Outside of all elements that are taken a mark may open one. -/
theorem take_outside (others : ∀ name ∈ outer, ¬ IsTaken name) (opens : openAfter? outer mark = some left) :
    Tracks left (MapperParts.take ⟨space, none, elements⟩ mark).current ∧
    (MapperParts.take ⟨space, none, elements⟩ mark).bare =
      elements.reverse.map Element.bare ++ opened outer mark := by
  cases mark with
  | opening tag =>
    obtain rfl := Option.some.inj opens
    by_cases taken : IsTaken (tagName tag)
    · rw [MapperParts.take_taken taken, opened, if_pos ⟨taken, others⟩]
      have first {e : OpenElement} (named : e.name = String.ofList (localName (tagName tag)))
          (depth : e.depth = 0) : Tracks ([] ++ tagName tag :: outer) (some e) :=
        .inside taken named depth others
      exact ⟨first rfl rfl, rfl⟩
    · obtain ⟨space', now⟩ := MapperParts.take_other taken
      rw [now, opened, if_neg (fun both => taken both.1)]
      exact ⟨.outside (List.forall_mem_cons.mpr ⟨taken, others⟩), rfl⟩
  | closing name =>
    cases outer with
    | nil => cases opens
    | cons innermost outer =>
      obtain ⟨_, same⟩ := Option.ite_none_right_eq_some.mp opens
      obtain rfl := Option.some.inj same
      exact ⟨.outside fun n member => others n (List.mem_cons_of_mem _ member), rfl⟩
  | leaf | text | literal =>
    obtain rfl := Option.some.inj opens
    exact ⟨.outside others, rfl⟩

/-- Inside an element that is taken no mark opens another one. -/
theorem take_inside (taken : IsTaken name) (named : e.name = String.ofList (localName name))
    (depth : e.depth = within.length) (others : ∀ name ∈ outer, ¬ IsTaken name)
    (opens : openAfter? (within ++ name :: outer) mark = some left) :
    Tracks left (MapperParts.take ⟨space, some e, elements⟩ mark).current ∧
    (MapperParts.take ⟨space, some e, elements⟩ mark).bare =
      elements.reverse.map Element.bare ++ [e.bare] := by
  cases mark with
  | opening tag =>
    obtain rfl := Option.some.inj opens
    have deeper : Tracks (tagName tag :: within ++ name :: outer) (some { e with
        depth := e.depth + 1, parts := ('<' :: tag ++ ['>']) :: e.parts }) :=
      .inside taken named (congrArg Nat.succ depth) others
    exact ⟨deeper, rfl⟩
  | closing closed =>
    cases within with
    | nil =>
      obtain ⟨_, same⟩ := Option.ite_none_right_eq_some.mp opens
      obtain rfl := Option.some.inj same
      rw [MapperParts.take_closing_own depth]
      exact ⟨.outside others, by simp [MapperParts.bare, OpenElement.bare, OpenElement.close, Element.bare]⟩
    | cons innermost within =>
      obtain ⟨_, same⟩ := Option.ite_none_right_eq_some.mp opens
      obtain rfl := Option.some.inj same
      rw [MapperParts.take_closing_inner depth]
      exact ⟨.inside taken named rfl others, rfl⟩
  | leaf | text | literal =>
    obtain rfl := Option.some.inj opens
    exact ⟨.inside taken named depth others, rfl⟩

/-- A mark opens an element where the elements that are open say so. -/
theorem take (tracks : Tracks outer m.current) (opens : openAfter? outer mark = some left) :
    Tracks left (m.take mark).current ∧ (m.take mark).bare = m.bare ++ opened outer mark := by
  obtain ⟨space, current, elements⟩ := m
  cases tracks with
  | outside others =>
    have none_ : MapperParts.bare ⟨space, none, elements⟩ = elements.reverse.map Element.bare :=
      List.append_nil _
    rw [none_]
    exact take_outside others opens
  | @inside within outer name e taken named depth others =>
    have covered : ¬ ∀ n ∈ within ++ name :: outer, ¬ IsTaken n := fun none_ => none_ name (by simp) taken
    have nothing : opened (within ++ name :: outer) mark = [] := by
      cases mark with
      | opening tag => exact if_neg fun both => covered both.2
      | _ => rfl
    rw [nothing, List.append_nil]
    exact take_inside taken named depth others opens

/-- At the end all elements that were opened were found, and at most one of them is open. -/
theorem foldl (tracks : Tracks outer m.current) (opens : marks.foldlM openAfter? outer = some left) :
    Tracks left (marks.foldl MapperParts.take m).current ∧
    (marks.foldl MapperParts.take m).bare = m.bare ++ openedAll outer marks := by
  induction marks generalizing m outer with
  | nil =>
    obtain rfl := Option.some.inj opens
    exact ⟨tracks, (List.append_nil _).symm⟩
  | cons mark marks ih =>
    rw [List.foldlM_cons] at opens
    obtain ⟨inner, first, later⟩ := Option.bind_eq_some_iff.mp opens
    obtain ⟨tracks, bare⟩ := tracks.take first
    obtain ⟨tracks, bareAll⟩ := ih tracks later
    refine ⟨tracks, ?_⟩
    rw [List.foldl_cons, bareAll, bare, openedAll, first, Option.getD_some, List.append_assoc]

/-- The open element is the outermost one that is taken. -/
theorem find?_reverse {current : Option OpenElement} (tracks : Tracks outer current) :
    (outer.reverse.find? (IsTaken ·)).map (fun name => String.ofList (localName name)) =
      current.map OpenElement.name := by
  cases tracks with
  | outside others =>
    have none_ : outer.reverse.find? (IsTaken ·) = none := by simpa using others
    rw [none_]
    rfl
  | @inside within outer name _ taken named _ others =>
    have front : outer.reverse.find? (IsTaken ·) = none := by simpa using others
    rw [List.reverse_append, List.reverse_cons, List.append_assoc, List.find?_append, front]
    simp [taken, named]

theorem mem_contentNames (tracks : Tracks outer (some e)) : e.name ∈ contentNames := by
  cases tracks with
  | inside taken named _ _ => exact named ▸ taken

end Tracks

/-- Of the elements that are taken only fragments have no heading. -/
theorem Element.heading?_eq_none {e : Element} (taken : e.name ∈ contentNames) :
    e.heading? = none ↔ e.name = "sql" := by
  obtain ⟨name, id, content⟩ := e
  simp only [contentNames, List.mem_cons, List.not_mem_nil, or_false] at taken
  rcases taken with rfl | rfl | rfl | rfl | rfl <;> simp [heading?, operation?]

/-- The headings of the statements are those of the elements that were found and closed. -/
theorem Mapper.headings_ofMarks (marks : List Mark) :
    (ofMarks marks).statements.map (fun s => (s.id, s.operation)) =
      (((marks.foldl MapperParts.take .empty).elements.reverse).map Element.bare).filterMap
        Element.heading? := by
  rw [ofMarks, List.map_filterMap, List.filterMap_map]
  refine List.filterMap_congr fun e _ => ?_
  rw [Option.map_map]
  rfl

/-- **A mapper has a statement for each element that its text opens for one, but for an element that the
text leaves open.** A text is read up to where it is cut off, if that is behind a mark; which elements
are open there makes no difference. -/
theorem Mapper.headings_kept_iff {path text : String} {m : Mapper} (read : ofXml path text = .ok m) :
    ∃ marks left, marks? text.toList = some marks ∧ marks.foldlM openAfter? [] = some left ∧
      (m.statements.map (fun s => (s.id, s.operation)) = (openedAll [] marks).filterMap Element.heading? ↔
        ∀ name, left.reverse.find? (IsTaken ·) = some name → String.ofList (localName name) = "sql") ∧
      ∀ front back, marks = front ++ back →
        ∃ start : String, start.toList <+: text.toList ∧ ofXml path start = .ok (ofMarks front) := by
  rw [ofXml] at read
  split at read
  · next marks found =>
    obtain rfl := Except.ok.inj read
    obtain ⟨left, opens⟩ := exists_open_of_marks? found
    have start : Tracks [] MapperParts.empty.current := .outside (List.forall_mem_nil _)
    obtain ⟨tracks, bare⟩ := start.foldl opens
    refine ⟨marks, left, found, opens, ?_, fun front back split => ?_⟩
    · have all : openedAll [] marks = (marks.foldl MapperParts.take .empty).bare := bare.symm
      rw [headings_ofMarks, all, MapperParts.bare, List.filterMap_append, List.self_eq_append_right]
      have outermost := tracks.find?_reverse
      cases current : (marks.foldl MapperParts.take .empty).current with
      | none =>
        rw [current] at outermost
        have none_ := Option.map_eq_none_iff.mp outermost
        simp [none_]
      | some e =>
        rw [current] at outermost tracks
        obtain ⟨name, first, named⟩ := Option.map_eq_some_iff.mp outermost
        have heading : e.bare.heading? = none ↔ e.name = "sql" :=
          Element.heading?_eq_none tracks.mem_contentNames
        simp [first, named, heading]
    · obtain ⟨start, starts, again⟩ := marks?_cut (split ▸ found)
      refine ⟨String.ofList start, by rwa [String.toList_ofList], ?_⟩
      rw [ofXml, String.toList_ofList, again]
  · cases read

/-- Only the element for the mapper is left open. -/
theorem Mapper.headings_kept_closed :
    ofXml "m.xml" "<mapper namespace=\"m\"><select id=\"a\">x</select>" = .ok ⟨"m", [⟨"a", "x", some .read⟩]⟩ ∧
    ∃ marks, marks? "<mapper namespace=\"m\"><select id=\"a\">x</select>".toList = some marks ∧
      [("a", some Operation.read)] = (openedAll [] marks).filterMap Element.heading? := by
  have read : ofXml "m.xml" "<mapper namespace=\"m\"><select id=\"a\">x</select>" =
      .ok ⟨"m", [⟨"a", "x", some .read⟩]⟩ := rfl
  obtain ⟨marks, left, found, opens, kept, _⟩ := headings_kept_iff read
  refine ⟨read, marks, found, kept.mpr ?_⟩
  obtain rfl : _ = marks := Option.some.inj found
  obtain rfl : _ = left := Option.some.inj opens
  decide

/-- A statement that is left open at the end of a text is lost, and the text is no fault. -/
theorem Mapper.open_statement_lost :
    ∃ marks, marks? "<mapper namespace=\"M\"><select id=\"a\">SELECT 1".toList = some marks ∧
      marks.foldlM openAfter? [] = some ["select".toList, "mapper".toList] ∧
      (openedAll [] marks).filterMap Element.heading? = [("a", some .read)] ∧
      ofXml "M.xml" "<mapper namespace=\"M\"><select id=\"a\">SELECT 1" = .ok ⟨"M", []⟩ := by
  refine ⟨[.opening "mapper namespace=\"M\"".toList, .opening "select id=\"a\"".toList,
    .text "SELECT 1".toList], ?_, ?_, ?_, ?_⟩
  · rfl
  · rfl
  · rfl
  · rfl

end TableAccess
