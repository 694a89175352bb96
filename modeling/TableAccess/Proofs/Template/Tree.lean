import TableAccess.Template
import TableAccess.Proofs.Template.Clauses

/-! Templates as trees of texts and elements. The tags of a written tree are taken as they were
written, whatever follows them, and nothing else in it can be taken for a tag; so a pass that looks
for tags treats each tag by itself and leaves the shape of the tree alone. -/
namespace TableAccess.Template
open TableAccess.Text

/-- A text without the characters of tags and entities. -/
structure PlainText where
  chars : List Char
  plain : ∀ c ∈ chars, c ∉ ['<', '>', '&']

/-- An attribute, whose value has nothing in it that would end it or begin something else. -/
structure Attribute where
  name : List Char
  value : List Char
  named : ∀ c ∈ name, isBlank c = false ∧ c ∉ ['=', '"', '\'', '<', '>', '/', '&']
  quoted : ∀ c ∈ value, c ∉ ['"', '<', '&']

/-- Texts and elements one after the other. -/
inductive Tree (Kind : Type) where
  | nil
  | text (text : PlainText) (rest : Tree Kind)
  | element (kind : Kind) (attributes : List Attribute) (body rest : Tree Kind)

/-- An attribute as it is written in a tag. -/
def Attribute.written (a : Attribute) : List Char := ' ' :: a.name ++ '=' :: '"' :: a.value ++ ['"']

/-- The inside of a tag behind its name. -/
def attributesText (attributes : List Attribute) : List Char := attributes.flatMap Attribute.written

def openingTag (name : String) (attributes : List Attribute) : List Char :=
  '<' :: name.toList ++ attributesText attributes ++ ['>']

def closingTag (name : String) : List Char := '<' :: '/' :: name.toList ++ ['>']

namespace Tree
variable {Kind : Type}

/-- What a tree amounts to, by what an element makes of its body. -/
def render (make : Kind → List Attribute → List Char → List Char) : Tree Kind → List Char
  | nil => []
  | text t rest => t.chars ++ rest.render make
  | element kind attributes body rest =>
    make kind attributes (body.render make) ++ rest.render make

/-- A tree with something in front of each body and something behind it. -/
def tagged (front : Kind → List Attribute → List Char) (back : Kind → List Char) :
    Tree Kind → List Char :=
  render fun kind attributes body => front kind attributes ++ body ++ back kind

/-- A tree as it is written. -/
def written (name : Kind → String) : Tree Kind → List Char :=
  tagged (fun kind => openingTag (name kind)) fun kind => closingTag (name kind)

/-- The kinds of the elements in a tree. -/
def kinds : Tree Kind → List Kind
  | nil => []
  | text _ rest => rest.kinds
  | element kind _ body rest => kind :: body.kinds ++ rest.kinds

/-- Whether no element of a kind stands within another one. -/
def Apart (kind : Kind) : Tree Kind → Prop
  | nil => True
  | text _ rest => rest.Apart kind
  | element outer _ body rest =>
    (outer = kind → kind ∉ body.kinds) ∧ body.Apart kind ∧ rest.Apart kind

instance decidableApart [DecidableEq Kind] (kind : Kind) : (tree : Tree Kind) →
    Decidable (tree.Apart kind)
  | nil => inferInstanceAs (Decidable True)
  | text _ rest => rest.decidableApart kind
  | element outer _ body rest =>
    have := body.decidableApart kind
    have := rest.decidableApart kind
    inferInstanceAs (Decidable ((outer = kind → kind ∉ body.kinds) ∧ _ ∧ _))

/-- One tree behind another. -/
def append : Tree Kind → Tree Kind → Tree Kind
  | nil, last => last
  | text t rest, last => text t (rest.append last)
  | element kind attributes body rest, last => element kind attributes body (rest.append last)

theorem render_append (make : Kind → List Attribute → List Char → List Char) (tree last : Tree Kind) :
    (tree.append last).render make = tree.render make ++ last.render make := by
  induction tree with
  | nil => rfl
  | text t rest ih => rw [append, render, ih, render, List.append_assoc]
  | element kind attributes body rest _ ih => rw [append, render, ih, render, List.append_assoc]

/-- Only what is made of the kinds in a tree matters. -/
theorem render_congr {make make' : Kind → List Attribute → List Char → List Char} {tree : Tree Kind}
    (same : ∀ kind ∈ tree.kinds, make kind = make' kind) :
    tree.render make = tree.render make' := by
  induction tree with
  | nil => rfl
  | text t rest ih => rw [render, render, ih same]
  | element kind attributes body rest ihBody ihRest =>
    simp only [kinds, List.mem_append, List.mem_cons] at same
    rw [render, render, same kind (.inl (.inl rfl)),
      ihBody fun k member => same k (.inl (.inr member)), ihRest fun k member => same k (.inr member)]

end Tree

variable {α : Type} {pattern : Pattern α} {write : α → List Char} {names : List String}
  {name : String} {rest : List Char}

theorem PlainText.absent (t : PlainText) : '<' ∉ t.chars := fun member =>
  t.plain _ member (by decide)

theorem Attribute.absent (a : Attribute) {c : Char} (special : c ∈ ['<', '&']) :
    c ∉ a.written := by
  have inName : c ∉ a.name := fun member => (a.named _ member).2
    ((by decide : ['<', '&'] ⊆ ['=', '"', '\'', '<', '>', '/', '&']) special)
  have inValue : c ∉ a.value := fun member => a.quoted _ member
    ((by decide : ['<', '&'] ⊆ ['"', '<', '&']) special)
  have between : c ∉ [' ', '=', '"'] := by
    simp only [List.mem_cons, List.not_mem_nil, or_false] at special
    rcases special with rfl | rfl <;> decide
  simp only [written, List.mem_append, List.mem_cons, List.not_mem_nil, or_false] at *
  tauto

theorem attributesText_absent (attributes : List Attribute) {c : Char} (special : c ∈ ['<', '&']) :
    c ∉ attributesText attributes := by
  intro member
  obtain ⟨a, _, member⟩ := List.mem_flatMap.mp member
  exact a.absent special member

section Tags
variable {slashAllowed : Bool}

private theorem tagRest?_cons {c : Char} (other : c ∉ ['>', '/', '"', '\'']) (rest : List Char) :
    tagRest? slashAllowed none (c :: rest) =
      (tagRest? slashAllowed none rest).map fun (inside, after) => (c :: inside, after) := by
  simp only [List.mem_cons, List.not_mem_nil, or_false, not_or] at other
  obtain ⟨bracket, slash, double, single⟩ := other
  simp [tagRest?, bracket, slash, double, single]

private theorem tagRest?_name {key : List Char} (other : ∀ c ∈ key, c ∉ ['>', '/', '"', '\''])
    (rest : List Char) : tagRest? slashAllowed none (key ++ rest) =
      (tagRest? slashAllowed none rest).map fun (inside, after) => (key ++ inside, after) := by
  induction key with
  | nil => simp
  | cons c key ih =>
    rw [List.cons_append, tagRest?_cons (other c List.mem_cons_self),
      ih fun d member => other d (List.mem_cons_of_mem c member), Option.map_map]
    rfl

/-- A value goes up to the quote that closes it. -/
theorem tagRest?_value {q : Char} {value : List Char} (other : q ∉ value) (rest : List Char) :
    tagRest? slashAllowed (some q) (value ++ q :: rest) =
      (tagRest? slashAllowed none rest).map fun (inside, after) =>
        (value ++ q :: inside, after) := by
  induction value with
  | nil => simp [tagRest?]
  | cons c value ih =>
    obtain ⟨first, other⟩ := not_or.mp (mt List.mem_cons.mpr other)
    have open_ : (c == q) = false := beq_eq_false_iff_ne.mpr (Ne.symm first)
    rw [List.cons_append, tagRest?, open_, if_neg Bool.false_ne_true, ih other, Option.map_map]
    rfl

private theorem tagRest?_attribute (a : Attribute) (rest : List Char) :
    tagRest? slashAllowed none (a.written ++ rest) =
      (tagRest? slashAllowed none rest).map fun (inside, after) =>
        (a.written ++ inside, after) := by
  have inName : ∀ c ∈ a.name, c ∉ ['>', '/', '"', '\''] := fun c member special =>
    (a.named c member).2
      ((by decide : ['>', '/', '"', '\''] ⊆ ['=', '"', '\'', '<', '>', '/', '&']) special)
  have inValue : '"' ∉ a.value := fun member => a.quoted _ member (by decide)
  have quote (text : List Char) : tagRest? slashAllowed none ('"' :: text) =
      (tagRest? slashAllowed (some '"') text).map fun (inside, after) => ('"' :: inside, after) :=
    rfl
  have whole : a.written ++ rest =
      ' ' :: (a.name ++ '=' :: '"' :: (a.value ++ '"' :: rest)) := by simp [Attribute.written]
  rw [whole, tagRest?_cons (by decide), tagRest?_name inName, tagRest?_cons (by decide), quote,
    tagRest?_value inValue]
  simp only [Option.map_map, Function.comp_def, Attribute.written, List.append_assoc,
    List.cons_append, List.nil_append]

/-- Attributes are taken as they are written. -/
theorem tagRest?_attributesText (attributes : List Attribute) (rest : List Char) :
    tagRest? slashAllowed none (attributesText attributes ++ '>' :: rest) =
      some (attributesText attributes, rest) := by
  induction attributes with
  | nil => simp [attributesText, tagRest?]
  | cons a attributes ih =>
    rw [attributesText, List.flatMap_cons, List.append_assoc, tagRest?_attribute,
      ← attributesText, ih, Option.map_some]

/-- Whether a text can be the name of an element. -/
def isName (name : String) : Bool := name != "" && name.toList.all isWordChar

private theorem takeWhile_name (single : isName name) (ends : endsWord rest) :
    (name.toList ++ rest).takeWhile isWordChar = name.toList := by
  have letters : ∀ c ∈ name.toList, isWordChar c = true :=
    List.all_eq_true.mp (Bool.and_eq_true_iff.mp single).2
  have behind : rest.takeWhile isWordChar = [] := by
    cases rest with
    | nil => rfl
    | cons c rest => exact List.takeWhile_cons_of_neg (by simpa [endsWord] using ends)
  rw [List.takeWhile_append_of_pos letters, behind, List.append_nil]

/-- No slash is in front of a name. -/
theorem slash_absent (single : isName name) (rest : List Char) :
    (afterStart? ['/'] (name.toList ++ rest)).getD (name.toList ++ rest) = name.toList ++ rest := by
  obtain ⟨nonempty, letters⟩ := Bool.and_eq_true_iff.mp single
  cases spelled : name.toList with
  | nil => exact absurd (String.toList_inj.mp spelled) (bne_iff_ne.mp nonempty)
  | cons c letters' =>
    have letter := List.all_eq_true.mp letters c (spelled ▸ List.mem_cons_self)
    have other : c ≠ '/' := by
      rintro rfl
      exact absurd letter (by decide)
    simp [afterStart?, Ne.symm other]

/-- A name is taken as a whole, so no other name is taken in its place. -/
theorem someWord?_name (singles : names.all isName) (listed : name ∈ names) (ends : endsWord rest) :
    someWord? names (name.toList ++ rest) = some (name, rest) := by
  have single (n : String) (listed : n ∈ names) : isName n := List.all_eq_true.mp singles n listed
  cases found : someWord? names (name.toList ++ rest) with
  | none =>
    have missed := List.findSome?_eq_none_iff.mp found name listed
    simp [afterStart?_append, ends] at missed
  | some taken =>
    obtain ⟨word, rest'⟩ := taken
    obtain ⟨listed', split, ends'⟩ := of_someWord? found
    have same : name = word := by
      rw [← String.toList_inj, ← takeWhile_name (single name listed) ends, split,
        takeWhile_name (single word listed') ends']
    obtain rfl := same
    rw [List.append_cancel_left split]

/-- Attributes and brackets end a name. -/
private theorem endsWord_attributesText (attributes : List Attribute) (rest : List Char) :
    endsWord (attributesText attributes ++ '>' :: rest) = true := by
  cases attributes <;> rfl

private theorem openingTag_append (name : String) (attributes : List Attribute) (rest : List Char) :
    openingTag name attributes ++ rest =
      '<' :: (name.toList ++ (attributesText attributes ++ '>' :: rest)) := by
  simp [openingTag]

/-- An opening tag is taken as it was written. -/
theorem opening_openingTag (singles : names.all isName) (listed : name ∈ names)
    (attributes : List Attribute) (rest : List Char) :
    opening slashAllowed names (openingTag name attributes ++ rest) =
      some ((name, attributesText attributes), rest) := by
  have named := someWord?_name singles listed (endsWord_attributesText attributes rest)
  rw [openingTag_append]
  simp [opening, afterStart?, named, tagRest?_attributesText]

theorem tagOf_openingTag (singles : names.all isName) (listed : name ∈ names)
    (attributes : List Attribute) (rest : List Char) :
    tagOf names (openingTag name attributes ++ rest) = some ((), rest) := by
  have named := someWord?_name singles listed (endsWord_attributesText attributes rest)
  have single : isName name := List.all_eq_true.mp singles name listed
  rw [openingTag_append]
  simp [tagOf, afterStart?, slash_absent single, named, tagRest?_attributesText]

theorem tagOf_closingTag (singles : names.all isName) (listed : name ∈ names) (rest : List Char) :
    tagOf names (closingTag name ++ rest) = some ((), rest) := by
  have named : someWord? names (name.toList ++ '>' :: rest) = some (name, '>' :: rest) :=
    someWord?_name singles listed (endsWord_attributesText [] rest)
  have whole : closingTag name ++ rest = '<' :: '/' :: (name.toList ++ '>' :: rest) := by
    simp [closingTag]
  rw [whole]
  simp [tagOf, afterStart?, named, tagRest?]

end Tags

section Opens

theorem opensWith_opening (slashAllowed : Bool) (names : List String) :
    (opening slashAllowed names).OpensWith '<' := by
  intro c rest other
  simp [opening, afterStart?, Ne.symm other]

theorem opensWith_closing (names : List String) : (closing names).OpensWith '<' := by
  intro c rest other
  simp [closing, afterStart?, Ne.symm other]

theorem opensWith_element {start : Pattern α} (opens : start.OpensWith '<') (names : List String) :
    (element start names).OpensWith '<' := by
  intro c rest other
  simp [element, opens c rest other]

theorem opensWith_between {start finish : String} {c : Char} {mark : List Char}
    (begins : start.toList = c :: mark) : (between start finish).OpensWith c := by
  intro d rest other
  simp [between, begins, afterStart?, Ne.symm other]

theorem opensWith_choiceOpening : choiceOpening.OpensWith '<' := by
  intro c rest other
  simp [choiceOpening, afterStart?, Ne.symm other]

theorem opensWith_tagOf (names : List String) : (tagOf names).OpensWith '<' := by
  intro c rest other
  simp [tagOf, afterStart?, Ne.symm other]

theorem opensWith_anyTag : anyTag.OpensWith '<' := by
  intro c rest other
  simp [anyTag, afterStart?, Ne.symm other]

end Opens

/-- No tag starts inside another one. -/
theorem openingTag_absent (single : isName name) (attributes : List Attribute) :
    '<' ∉ name.toList ++ attributesText attributes ++ ['>'] := by
  have inName : '<' ∉ name.toList := fun member =>
    absurd (List.all_eq_true.mp (Bool.and_eq_true_iff.mp single).2 _ member) (by decide)
  have inAttributes := attributesText_absent attributes (c := '<') (by decide)
  simp [inName, inAttributes]

theorem closingTag_absent (single : isName name) : '<' ∉ '/' :: name.toList ++ ['>'] := by
  have inName : '<' ∉ name.toList := fun member =>
    absurd (List.all_eq_true.mp (Bool.and_eq_true_iff.mp single).2 _ member) (by decide)
  simp [inName]

/-- A tag that a pattern does not find holds no place. -/
theorem misses_openingTag (opens : pattern.OpensWith '<') (single : isName name)
    (missed : ∀ rest, pattern ('<' :: name.toList ++ rest) = none) (attributes : List Attribute) :
    pattern.Misses (openingTag name attributes) := by
  refine ⟨fun rest => ?_, .of_absent opens (openingTag_absent single attributes)⟩
  simpa using missed (attributesText attributes ++ ['>'] ++ rest)

theorem misses_closingTag (opens : pattern.OpensWith '<') (single : isName name)
    (missed : ∀ rest, pattern ('<' :: '/' :: name.toList ++ rest) = none) :
    pattern.Misses (closingTag name) := by
  refine ⟨fun rest => ?_, .of_absent opens (closingTag_absent single)⟩
  simpa using missed (['>'] ++ rest)

/-- A tag that a pattern does not find stays. -/
theorem replace_openingTag (opens : pattern.OpensWith '<') (single : isName name)
    (missed : ∀ rest, pattern ('<' :: name.toList ++ rest) = none) (attributes : List Attribute)
    (rest : List Char) : replace pattern write (openingTag name attributes ++ rest) =
      openingTag name attributes ++ replace pattern write rest :=
  (misses_openingTag opens single missed attributes).replace rest

theorem replace_closingTag (opens : pattern.OpensWith '<') (single : isName name)
    (missed : ∀ rest, pattern ('<' :: '/' :: name.toList ++ rest) = none) (rest : List Char) :
    replace pattern write (closingTag name ++ rest) =
      closingTag name ++ replace pattern write rest :=
  (misses_closingTag opens single missed).replace rest

/-- A pass over a tree treats each tag by itself if it finds tags only, whatever follows them. -/
theorem Tree.replace_tagged {Kind : Type} {front front' : Kind → List Attribute → List Char}
    {back back' : Kind → List Char} (opens : pattern.OpensWith '<')
    (atFront : ∀ kind attributes rest, replace pattern write (front kind attributes ++ rest) =
      front' kind attributes ++ replace pattern write rest)
    (atBack : ∀ kind rest, replace pattern write (back kind ++ rest) =
      back' kind ++ replace pattern write rest) (tree : Tree Kind) :
    replace pattern write (tree.tagged front back) = tree.tagged front' back' := by
  have within (rest : List Char) : replace pattern write (tree.tagged front back ++ rest) =
      tree.tagged front' back' ++ replace pattern write rest := by
    induction tree generalizing rest with
    | nil => rfl
    | text t next ih =>
      simp only [tagged, render, List.append_assoc] at ih ⊢
      rw [replace_append opens t.absent, ih]
    | element kind attributes body next ihBody ihNext =>
      simp only [tagged, render, List.append_assoc] at ihBody ihNext ⊢
      rw [atFront, ihBody, atBack, ihNext]
  have whole := within []
  rwa [List.append_nil, show replace pattern write [] = [] from rfl, List.append_nil] at whole

/-- A written tree holds no place where a pattern finds none of its tags. -/
theorem Tree.misses_written {Kind : Type} {nameOf : Kind → String} (opens : pattern.OpensWith '<')
    (single : ∀ kind, isName (nameOf kind)) {tree : Tree Kind}
    (atFront : ∀ kind ∈ tree.kinds, ∀ rest, pattern ('<' :: (nameOf kind).toList ++ rest) = none)
    (atBack : ∀ kind ∈ tree.kinds, ∀ rest,
      pattern ('<' :: '/' :: (nameOf kind).toList ++ rest) = none) :
    pattern.Misses (tree.written nameOf) := by
  induction tree with
  | nil => trivial
  | text t rest ih => exact (Pattern.Misses.of_absent opens t.absent).append (ih atFront atBack)
  | element kind attributes body rest ihBody ihRest =>
    simp only [kinds, List.mem_append, List.mem_cons] at atFront atBack
    have front := misses_openingTag opens (single kind) (atFront kind (.inl (.inl rfl))) attributes
    have back := misses_closingTag opens (single kind) (atBack kind (.inl (.inl rfl)))
    have inside := ihBody (fun k member => atFront k (.inl (.inr member)))
      fun k member => atBack k (.inl (.inr member))
    have behind := ihRest (fun k member => atFront k (.inr member))
      fun k member => atBack k (.inr member)
    exact ((front.append inside).append back).append behind

theorem Tree.replace_written {Kind : Type} {nameOf : Kind → String} (opens : pattern.OpensWith '<')
    (single : ∀ kind, isName (nameOf kind))
    (atFront : ∀ kind rest, pattern ('<' :: (nameOf kind).toList ++ rest) = none)
    (atBack : ∀ kind rest, pattern ('<' :: '/' :: (nameOf kind).toList ++ rest) = none)
    (tree : Tree Kind) : replace pattern write (tree.written nameOf) = tree.written nameOf :=
  (misses_written opens single (fun kind _ => atFront kind) fun kind _ => atBack kind).replace_self

end TableAccess.Template
