import TableAccess.Proofs.Template.Rendering

/-! Templates with choices and loops, and what they stand for. A choice is made before its branches
are looked at, so a passage is rendered as what is left of it when all choices in it are made. -/
namespace TableAccess.Template
open TableAccess.Text

/-- An attribute whose name is of letters, as the names of all attributes of loops are. -/
structure LetteredAttribute extends Attribute where
  nonempty : name ≠ []
  lettered : ∀ c ∈ name, isAsciiLetter c = true

/-- Whether an attribute can have a name and a value. -/
def isAttribute (name value : String) : Bool :=
  name != "" && value.toList.all (fun c => !(['"', '<', '&'].contains c)) &&
    name.toList.all fun c =>
      isAsciiLetter c && !isBlank c && !(['=', '"', '\'', '<', '>', '/', '&'].contains c)

/-- The attribute of a name and a value that can be one. -/
def lettered (name value : String) (possible : isAttribute name value) :
    LetteredAttribute where
  name := name.toList
  value := value.toList
  named := by
    simp only [isAttribute, Bool.and_eq_true, List.all_eq_true] at possible
    intro c member
    have free := possible.2 c member
    exact ⟨by simpa using free.1.2, by simpa using free.2⟩
  quoted := by
    simp only [isAttribute, Bool.and_eq_true] at possible
    simpa using possible.1.2
  nonempty := by
    simp only [isAttribute, Bool.and_eq_true] at possible
    simpa using possible.1.1
  lettered := by
    simp only [isAttribute, Bool.and_eq_true, List.all_eq_true] at possible
    exact fun c member => (possible.2 c member).1.1

mutual

/-- Texts, conditions, loops and choices one after the other. -/
inductive Passage where
  | nil
  | text (text : PlainText) (rest : Passage)
  | condition (attributes : List Attribute) (body rest : Passage)
  | loop (attributes : List LetteredAttribute) (body rest : Passage)
  | choice (branches : Branches) (rest : Passage)

/-- The branches of a choice, with what stands between them. -/
inductive Branches where
  | nil (gap : PlainText)
  | cons (gap : PlainText) (conditional : Bool) (attributes : List Attribute) (body : Passage)
      (rest : Branches)

end

/-- The first branch with a condition, or else the first branch. -/
def pick {Branch : Type} (branches : List (Bool × Branch)) : Option Branch :=
  ((branches.find? Prod.fst).orElse fun _ => branches.head?).map Prod.snd

/-- The value of the first attribute of a name. -/
def valueOf (name : String) (attributes : List LetteredAttribute) : List Char :=
  ((attributes.find? fun a => a.name == name.toList).map fun a => a.value).getD []

mutual

/-- What a passage stands for: the body of each condition, one round of each loop between what opens
and what closes it, and one branch of each choice. -/
def Passage.render : Passage → List Char
  | .nil => []
  | .text t rest => t.chars ++ rest.render
  | .condition _ body rest => ' ' :: body.render ++ [' '] ++ rest.render
  | .loop attributes body rest =>
    ' ' :: valueOf "open" attributes ++ body.render ++ valueOf "close" attributes ++ [' '] ++
      rest.render
  | .choice branches rest => ' ' :: (pick branches.renderings).getD [] ++ [' '] ++ rest.render

/-- Whether each branch has a condition, and what its body stands for. -/
def Branches.renderings : Branches → List (Bool × List Char)
  | .nil _ => []
  | .cons _ conditional _ body rest => (conditional, body.render) :: rest.renderings

end

/-- The elements of a passage. -/
inductive TagKind where
  | condition | loop | choice
  | branch (conditional : Bool)
deriving DecidableEq

def TagKind.name : TagKind → String
  | condition => "if"
  | loop => "foreach"
  | choice => "choose"
  | branch true => "when"
  | branch false => "otherwise"

theorem TagKind.isName_name (kind : TagKind) : isName kind.name := by
  rcases kind with _ | _ | _ | (_ | _) <;> decide

mutual

/-- The tree of the elements of a passage, in which choices and branches are elements as well. -/
def Passage.tree : Passage → Tree TagKind
  | .nil => .nil
  | .text t rest => .text t rest.tree
  | .condition attributes body rest => .element .condition attributes body.tree rest.tree
  | .loop attributes body rest =>
    .element .loop (attributes.map LetteredAttribute.toAttribute) body.tree rest.tree
  | .choice branches rest => .element .choice [] branches.tree rest.tree

def Branches.tree : Branches → Tree TagKind
  | .nil gap => .text gap .nil
  | .cons gap conditional attributes body rest =>
    .text gap (.element (.branch conditional) attributes body.tree rest.tree)

end

/-- A passage as it is written. -/
def Passage.written (p : Passage) : List Char := p.tree.written TagKind.name

/-- The elements of a passage without choices. -/
inductive PartKind where
  | condition | loop
deriving DecidableEq

namespace PartKind

def name : PartKind → String
  | condition => "if"
  | loop => "foreach"

theorem isName_name (kind : PartKind) : isName kind.name := by cases kind <;> decide

/-- What an element stands for. -/
def make : PartKind → List Attribute → List Char → List Char
  | condition, _, body => ' ' :: body ++ [' ']
  | loop, attributes, body => round (attributesText attributes) body

/-- What stands for an element once the loops are written. -/
def unrolled : PartKind → List Attribute → List Char → List Char
  | condition, attributes, body => openingTag "if" attributes ++ body ++ closingTag "if"
  | loop, attributes, body => round (attributesText attributes) body

end PartKind

/-- The blank that is written beside what stands for an element. -/
def PlainText.blank : PlainText := ⟨[' '], by simp⟩

mutual

/-- A passage with one branch of each choice in place of the choice. -/
def Passage.decided : Passage → Tree PartKind
  | .nil => .nil
  | .text t rest => .text t rest.decided
  | .condition attributes body rest => .element .condition attributes body.decided rest.decided
  | .loop attributes body rest =>
    .element .loop (attributes.map LetteredAttribute.toAttribute) body.decided rest.decided
  | .choice branches rest =>
    .text .blank (((pick branches.decisions).getD .nil).append (.text .blank rest.decided))

def Branches.decisions : Branches → List (Bool × Tree PartKind)
  | .nil _ => []
  | .cons _ conditional _ body rest => (conditional, body.decided) :: rest.decisions

end

theorem pick_map {Branch Branch' : Type} (f : Branch → Branch') (branches : List (Bool × Branch)) :
    pick (branches.map (Prod.map id f)) = (pick branches).map f := by
  have first : (branches.map (Prod.map id f)).find? Prod.fst =
      (branches.find? Prod.fst).map (Prod.map id f) := by
    rw [List.find?_map]
    rfl
  rw [pick, pick, first, List.head?_map]
  cases branches.find? Prod.fst <;> cases branches.head? <;> rfl

section Attributes

theorem attributePattern_written (a : LetteredAttribute) (rest : List Char) :
    attributePattern (a.name ++ '=' :: '"' :: (a.value ++ '"' :: rest)) =
      some ((a.name, a.value), rest) := by
  have quote : '"' ∉ a.value := fun member => a.quoted _ member (by decide)
  have own : (a.name ++ '=' :: '"' :: (a.value ++ '"' :: rest)).takeWhile isAsciiLetter =
      a.name := by
    rw [List.takeWhile_append_of_pos a.lettered, List.takeWhile_cons_of_neg (by decide),
      List.append_nil]
  have behind : (a.name ++ '=' :: '"' :: (a.value ++ '"' :: rest)).dropWhile isAsciiLetter =
      '=' :: '"' :: (a.value ++ '"' :: rest) := by
    rw [List.dropWhile_append_of_pos a.lettered, List.dropWhile_cons_of_neg (by decide)]
  have trimmed (c : Char) (other : isBlank c = false) (text : List Char) :
      trimStart (c :: text) = c :: text :=
    List.dropWhile_cons_of_neg (by simp [other])
  unfold attributePattern
  dsimp only
  rw [own, behind, if_neg (by simpa using a.nonempty), trimmed '=' (by decide)]
  simp [afterStart?, trimmed '"' (by decide), splitAt?_char quote]

private theorem occurrences_written (a : LetteredAttribute) (rest : List Char) :
    occurrences attributePattern (a.written ++ rest) =
      (a.name, a.value) :: occurrences attributePattern rest := by
  obtain ⟨c, letters, spelled⟩ := List.exists_cons_of_ne_nil a.nonempty
  have taken := attributePattern_written a rest
  have whole : a.written ++ rest = ' ' :: (a.name ++ '=' :: '"' :: (a.value ++ '"' :: rest)) := by
    simp [Attribute.written]
  have blank (text : List Char) : attributePattern (' ' :: text) = none := rfl
  have same : a.name ++ '=' :: '"' :: (a.value ++ '"' :: rest) =
      c :: (letters ++ '=' :: '"' :: (a.value ++ ['"'])) ++ rest := by simp [spelled]
  rw [same] at taken
  rw [whole, occurrences, segments_cons_of_none (blank _), same]
  exact occurrences_of_some taken

/-- The attribute that a search finds is the first of its name. -/
theorem attribute?_lettered (attributes : List LetteredAttribute) (name : String) :
    attribute? (attributesText (attributes.map LetteredAttribute.toAttribute)) name =
      (attributes.find? fun a => a.name == name.toList).map fun a => a.value := by
  have listed : occurrences attributePattern
        (attributesText (attributes.map LetteredAttribute.toAttribute)) =
      attributes.map fun a => (a.name, a.value) := by
    induction attributes with
    | nil => rfl
    | cons a attributes ih =>
      rw [List.map_cons, attributesText, List.flatMap_cons, ← attributesText, occurrences_written,
        ih]
      rfl
  rw [attribute?, listed, List.find?_map, Option.map_map]
  simp only [Function.comp_def]
  cases attributes.find? fun a => a.name == name.toList with
  | none => rfl
  | some a =>
    exact congrArg some (unescape_of_absent fun member => a.quoted _ member (by decide))

theorem attribute?_attributesText (attributes : List LetteredAttribute) (name : String) :
    (attribute? (attributesText (attributes.map LetteredAttribute.toAttribute)) name).getD [] =
      valueOf name attributes := by
  rw [attribute?_lettered, valueOf]

/-- A round of a loop stands between the values of its attributes. -/
theorem round_attributesText (attributes : List LetteredAttribute) (body : List Char) :
    round (attributesText (attributes.map LetteredAttribute.toAttribute)) body =
      ' ' :: valueOf "open" attributes ++ body ++ valueOf "close" attributes ++ [' '] := by
  rw [← attribute?_attributesText, ← attribute?_attributesText]
  rfl

end Attributes

mutual

/-- A passage stands for what is left of it when its choices are made. -/
theorem Passage.render_decided : (p : Passage) → p.decided.render PartKind.make = p.render
  | .nil => rfl
  | .text t rest => by
    rw [Passage.decided, Tree.render, rest.render_decided, Passage.render]
  | .condition attributes body rest => by
    rw [Passage.decided, Tree.render, body.render_decided, rest.render_decided, Passage.render,
      PartKind.make]
  | .loop attributes body rest => by
    rw [Passage.decided, Tree.render, body.render_decided, rest.render_decided, Passage.render,
      PartKind.make, round_attributesText]
  | .choice branches rest => by
    have picked : ((pick branches.decisions).getD .nil).render PartKind.make =
        (pick branches.renderings).getD [] := by
      rw [← branches.render_decisions, pick_map]
      cases pick branches.decisions <;> rfl
    rw [Passage.decided, Tree.render, Tree.render_append, Tree.render, picked, rest.render_decided,
      Passage.render]
    simp [PlainText.blank]

theorem Branches.render_decisions : (b : Branches) →
    b.decisions.map (Prod.map id (Tree.render PartKind.make)) = b.renderings
  | .nil _ => rfl
  | .cons _ conditional _ body rest => by
    rw [Branches.decisions, List.map_cons, rest.render_decisions, Branches.renderings,
      Prod.map_apply, body.render_decided, id]

end

end TableAccess.Template
