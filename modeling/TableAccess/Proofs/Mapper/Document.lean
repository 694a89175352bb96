import TableAccess.Mapper.Markup
import TableAccess.Proofs.Template.Scanning

/-! Documents as they are written. A document is texts, with comments, instructions, declarations,
literal sections and elements between them. The types ask for no more than what keeps these apart in
the written document, so an attribute may be given twice, say, and there may be any number of elements
on the outside. The end of a declaration is told by its brackets, which are therefore in pairs. -/
namespace TableAccess.Markup
open TableAccess.Text

/-- Blanks as they may stand inside a tag. -/
structure Gap where
  chars : List Char
  blank : ∀ c ∈ chars, isBlank c = true

/-- The name of an element or of an attribute. -/
structure Name where
  chars : List Char
  nonempty : chars ≠ []
  plain : ∀ c ∈ chars, isBlank c = false ∧ c ∉ ['<', '>', '/', '=', '!', '?', '"', '\'']

/-- A part of a value. -/
inductive Piece where
  | char (c : Char)
  /-- A name, or a number behind a number sign, that stands for a character. -/
  | reference (name : List Char)

/-- A part of a value as it is written. -/
def Piece.written : Piece → List Char
  | char c => [c]
  | reference name => '&' :: name ++ [';']

/-- The character that a part of a value is. References to what a document declares have none. -/
def Piece.char? : Piece → Option Char
  | char c => some c
  | reference name => entity? name

/-- Whether a part of a value can be told from what follows it, between quotes. -/
def Piece.Fits (quote : Char) : Piece → Prop
  | char c => c ≠ quote ∧ c ≠ '&'
  | reference name => quote ∉ '&' :: name ++ [';'] ∧ ∀ c ∈ name, c ≠ ';' ∧ c ≠ '&'

/-- An attribute. -/
structure Attribute where
  front : Gap
  apart : front.chars ≠ []
  name : Name
  before : Gap
  behind : Gap
  quote : Char
  quoted : quote ∈ ['"', '\'']
  pieces : List Piece
  fits : ∀ p ∈ pieces, p.Fits quote

namespace Attribute

/-- The value of an attribute as it is written. -/
def value (a : Attribute) : List Char := a.pieces.flatMap Piece.written

/-- An attribute as it is written, without the blanks in front of it. -/
def body (a : Attribute) : List Char :=
  a.name.chars ++ (a.before.chars ++ '=' :: (a.behind.chars ++ a.quote :: (a.value ++ [a.quote])))

def written (a : Attribute) : List Char := a.front.chars ++ a.body

end Attribute

/-- The inside of a tag that opens an element or stands for an empty one. -/
structure Tag where
  name : Name
  attributes : List Attribute
  gap : Gap

namespace Tag

/-- The inside of a tag as it is written. -/
def written (t : Tag) : List Char :=
  t.name.chars ++ (t.attributes.flatMap Attribute.written ++ t.gap.chars)

/-- The name of the element without its qualifier. -/
def localName (t : Tag) : String := String.ofList (Markup.localName t.name.chars)

/-- The value of an attribute, its references replaced, if all of them stand for characters. -/
def value? (t : Tag) (name : String) : Option (List Char) :=
  (t.attributes.find? fun a => a.name.chars == name.toList).bind fun a =>
    a.pieces.mapM Piece.char?

/-- The value of an attribute without the blanks around it; empty if there is none. -/
def valueOf (t : Tag) (name : String) : String :=
  String.ofList (trim ((t.value? name).getD []))

end Tag

/-- The inside of a declaration, whose brackets are in pairs. -/
inductive Paired : List Char → Prop where
  | nil : Paired []
  | char {c : Char} {rest : List Char} (plain : c ∉ ['<', '>']) (paired : Paired rest) :
      Paired (c :: rest)
  | nested {inside rest : List Char} (within : Paired inside) (paired : Paired rest) :
      Paired ('<' :: inside ++ '>' :: rest)

/-- What stands in a document beside its content. -/
inductive Aside where
  | comment (content : List Char) (closed : ¬ "-->".toList <:+: content)
  | instruction (content : List Char) (closed : ¬ "?>".toList <:+: '?' :: content)
  | declaration (content : List Char) (some_ : content.all isBlank = false)
      (paired : Paired content)

def Aside.written : Aside → List Char
  | comment content _ => "<!--".toList ++ content ++ "-->".toList
  | instruction content _ => "<?".toList ++ content ++ "?>".toList
  | declaration content _ _ => "<!DOCTYPE".toList ++ content ++ ">".toList

/-- A text, which opens no tag. -/
structure Plain where
  chars : List Char
  absent : '<' ∉ chars

/-- The inside of a literal section. -/
structure Literal where
  chars : List Char
  closed : ¬ "]]>".toList <:+: chars

/-- What is inside an element. Each constructor has a text in front, which may be empty. -/
inductive Content where
  | text (front : Plain)
  | aside (front : Plain) (a : Aside) (rest : Content)
  | literal (front : Plain) (s : Literal) (rest : Content)
  | leaf (front : Plain) (tag : Tag) (rest : Content)
  | element (front : Plain) (tag : Tag) (inside : Content) (gap : Gap) (rest : Content)

namespace Content

/-- Content as text, by what is written for what stands beside it and for the blanks at the end of a
closing tag. -/
def render (aside_ : Aside → List Char) (gap_ : Gap → List Char) : Content → List Char
  | text front => front.chars
  | aside front a rest => front.chars ++ (aside_ a ++ rest.render aside_ gap_)
  | literal front s rest =>
    front.chars ++ ("<![CDATA[".toList ++ s.chars ++ "]]>".toList ++ rest.render aside_ gap_)
  | leaf front tag rest =>
    front.chars ++ ('<' :: tag.written ++ ['/', '>'] ++ rest.render aside_ gap_)
  | element front tag inside gap rest =>
    front.chars ++ ('<' :: tag.written ++ ['>'] ++ (inside.render aside_ gap_ ++
      ('<' :: '/' :: tag.name.chars ++ gap_ gap ++ ['>'] ++ rest.render aside_ gap_)))

/-- Content as it is written. -/
def written : Content → List Char := render Aside.written Gap.chars

/-- Content as it is written, without what stands beside it and without the blanks at the end of
closing tags. -/
def markup : Content → List Char := render (fun _ => []) fun _ => []

end Content

/-- A document, which may start with a byte order mark. -/
structure Document where
  marked : Bool
  content : Content
  unmarked : marked = false → content.written.head? ≠ some '\ufeff'

/-- A document as it is written. -/
def Document.written (d : Document) : List Char :=
  (if d.marked then ['\ufeff'] else []) ++ d.content.written

/-! Attributes are found as they are written. -/

variable {rest : List Char} {c : Char}

theorem Name.head (n : Name) : ∃ c letters, n.chars = c :: letters ∧ isBlank c = false ∧
    c ∉ ['<', '>', '/', '=', '!', '?', '"', '\''] := by
  obtain ⟨c, letters, spelled⟩ := List.exists_cons_of_ne_nil n.nonempty
  have plain := n.plain c (spelled ▸ List.mem_cons_self)
  exact ⟨c, letters, spelled, plain.1, plain.2⟩

namespace Piece
variable {quote : Char}

theorem Fits.absent {p : Piece} (fits : p.Fits quote) : quote ∉ p.written := by
  cases p with
  | char c => simpa [written] using fits.1.symm
  | reference name => exact fits.1

/-- A part of a value is replaced by its character, if it has one. -/
theorem unescape?_written {p : Piece} (fits : p.Fits quote) (budget : Nat) (rest : List Char) :
    unescape? (budget + 1) (p.written ++ rest) =
      p.char?.bind fun c => (unescape? budget rest).map (c :: ·) := by
  cases p with
  | char c =>
    have other : c ≠ '&' := fits.2
    simp [written, char?, unescape?]
  | reference name =>
    have inName : ∀ c ∈ name, (c != ';' && c != '&') = true := fun c member => by
      simp [(fits.2 c member).1, (fits.2 c member).2]
    have named : (name ++ ';' :: rest).takeWhile (fun c => c != ';' && c != '&') = name := by
      rw [List.takeWhile_append_of_pos inName, List.takeWhile_cons_of_neg (by decide),
        List.append_nil]
    have whole : (reference name).written ++ rest = '&' :: (name ++ ';' :: rest) := by
      simp [written]
    rw [whole, unescape?, named, List.drop_left]
    cases found : entity? name <;> simp [char?, afterStart?, found]
    cases unescape? budget rest <;> rfl

end Piece

/-- The references in a value are replaced one by one. -/
theorem unescape?_value {quote : Char} {pieces : List Piece} (fits : ∀ p ∈ pieces, p.Fits quote)
    {budget : Nat} (enough : pieces.length ≤ budget) :
    unescape? budget (pieces.flatMap Piece.written) = pieces.mapM Piece.char? := by
  induction pieces generalizing budget with
  | nil => cases budget <;> rfl
  | cons p pieces ih =>
    cases budget with
    | zero => simp at enough
    | succ budget =>
      have later := ih (fun q listed => fits q (List.mem_cons_of_mem p listed))
        (Nat.le_of_succ_le_succ enough)
      rw [List.flatMap_cons, Piece.unescape?_written (fits p List.mem_cons_self), later,
        List.mapM_cons]
      cases p.char? with
      | none => rfl
      | some c => cases pieces.mapM Piece.char? <;> rfl

/-- Where nothing is written as an empty text, there are no more things than characters. -/
theorem length_le_flatMap {α : Type} {write : α → List Char} (items : List α)
    (some_ : ∀ a, write a ≠ []) : items.length ≤ (items.flatMap write).length := by
  induction items with
  | nil => exact Nat.le_refl 0
  | cons a items ih =>
    have here := List.length_pos_of_ne_nil (some_ a)
    simp only [List.flatMap_cons, List.length_append, List.length_cons]
    omega

namespace Attribute
variable (a : Attribute)

theorem quote_absent : a.quote ∉ a.value := by
  intro member
  obtain ⟨p, listed, member⟩ := List.mem_flatMap.mp member
  exact (a.fits p listed).absent member

theorem length_pieces : a.pieces.length ≤ a.value.length :=
  length_le_flatMap a.pieces fun p => by cases p <;> exact List.cons_ne_nil _ _

/-- An attribute is read as it is written, whatever follows it. -/
theorem attribute?_written (rest : List Char) :
    attribute? (a.written ++ rest) = some ((a.name.chars, a.value), rest) := by
  obtain ⟨c, letters, spelled, solid, _⟩ := a.name.head
  let value := a.quote :: (a.value ++ a.quote :: rest)
  let behindName := a.before.chars ++ '=' :: (a.behind.chars ++ value)
  have whole : a.written ++ rest = a.front.chars ++ c :: (letters ++ behindName) := by
    simp [written, body, spelled, behindName, value]
  have inKey : ∀ d ∈ letters, (d != '=' && !isBlank d) = true := by
    intro d member
    obtain ⟨solid, other⟩ := a.name.plain d (spelled ▸ List.mem_cons_of_mem c member)
    have other : d ≠ '=' := by
      rintro rfl
      exact other (by decide)
    simp [solid, other]
  have ends : ∀ d ∈ behindName.head?, (d != '=' && !isBlank d) = false := by
    intro d first
    cases blanks : a.before.chars with
    | nil =>
      obtain rfl : '=' = d := by simpa [behindName, blanks] using first
      rfl
    | cons b more =>
      obtain rfl : b = d := by simpa [behindName, blanks] using first
      simp [a.before.blank b (blanks ▸ List.mem_cons_self)]
  have front : (a.front.chars ++ c :: (letters ++ behindName)).dropWhile isBlank =
      c :: (letters ++ behindName) :=
    dropWhile_run a.front.blank (by simpa using solid)
  have equals : behindName.dropWhile isBlank = '=' :: (a.behind.chars ++ value) :=
    dropWhile_run a.before.blank (by rintro d ⟨⟩; rfl)
  have isQuote : a.quote = '"' ∨ a.quote = '\'' := by simpa using a.quoted
  have quote : (a.behind.chars ++ value).dropWhile isBlank = value := by
    refine dropWhile_run a.behind.blank ?_
    rintro d ⟨⟩
    rcases isQuote with same | same <;> (rw [same]; rfl)
  have key : (letters ++ behindName).takeWhile (fun d => d != '=' && !isBlank d) = letters :=
    takeWhile_run inKey ends
  have behindKey : (letters ++ behindName).dropWhile (fun d => d != '=' && !isBlank d) =
      behindName := dropWhile_run inKey ends
  rw [whole, attribute?, front]
  dsimp only
  rw [List.drop_one, List.tail_cons, key, behindKey, equals]
  simp only [afterStart?, beq_self_eq_true, if_true, Option.bind_eq_bind, Option.bind_some, quote,
    value]
  rw [if_pos (by simpa using isQuote), splitAt?_char a.quote_absent, spelled]
  rfl

end Attribute

/-- No attribute is in a gap. -/
theorem Gap.attribute?_chars (g : Gap) : attribute? g.chars = none := by
  have ends : ∀ c ∈ ([] : List Char).head?, isBlank c = false := by simp
  have empty : g.chars.dropWhile isBlank = [] := by simpa using dropWhile_run g.blank ends
  rw [attribute?, empty]
  rfl

/-- An attribute is looked up by its name. -/
theorem findAttribute?_written (attributes : List Attribute) (gap : Gap) (name : List Char)
    {budget : Nat} (enough : attributes.length < budget) :
    findAttribute? name budget (attributes.flatMap Attribute.written ++ gap.chars) =
      (attributes.find? fun a => a.name.chars == name).map Attribute.value := by
  induction attributes generalizing budget with
  | nil =>
    cases budget with
    | zero => simp at enough
    | succ budget => simp [findAttribute?, gap.attribute?_chars]
  | cons a attributes ih =>
    cases budget with
    | zero => simp at enough
    | succ budget =>
      have later := ih (Nat.lt_of_succ_lt_succ enough)
      rw [List.flatMap_cons, List.append_assoc, findAttribute?, a.attribute?_written]
      by_cases same : a.name.chars = name <;> simp [same, later]

namespace Tag
variable (t : Tag)

/-- Behind the name of a tag there is a blank or nothing. -/
theorem isBlank_behind_name : ∀ c ∈ (t.attributes.flatMap Attribute.written ++ t.gap.chars).head?,
    isBlank c = true := by
  intro c first
  cases listed : t.attributes with
  | nil =>
    rw [listed] at first
    exact t.gap.blank c (List.mem_of_mem_head? first)
  | cons a attributes =>
    obtain ⟨b, blanks, spelled⟩ := List.exists_cons_of_ne_nil a.apart
    obtain rfl : b = c := by simpa [listed, Attribute.written, spelled] using first
    exact a.front.blank b (spelled ▸ List.mem_cons_self)

theorem tagName_written : tagName t.written = t.name.chars := by
  refine takeWhile_run (fun c member => ?_) fun c first => ?_
  · simp [(t.name.plain c member).1]
  · simp [t.isBlank_behind_name c first]

private theorem length_attributes : t.attributes.length < t.written.length := by
  have inName := List.length_pos_of_ne_nil t.name.nonempty
  have inAttributes : t.attributes.length ≤ (t.attributes.flatMap Attribute.written).length :=
    length_le_flatMap t.attributes fun a => List.append_ne_nil_of_left_ne_nil a.apart a.body
  simp only [written, List.length_append]
  omega

/-- An attribute of a tag is found with its references replaced. -/
theorem attributeOf_written (name : String) : attributeOf name t.written = t.valueOf name := by
  have found := findAttribute?_written t.attributes t.gap name.toList t.length_attributes
  have behind : t.written.drop t.name.chars.length =
      t.attributes.flatMap Attribute.written ++ t.gap.chars := List.drop_left
  rw [attributeOf, tagName_written, behind, found, valueOf, value?]
  cases listed : t.attributes.find? fun a => a.name.chars == name.toList with
  | none => rfl
  | some a =>
    have replaced : unescape? a.value.length a.value = a.pieces.mapM Piece.char? :=
      unescape?_value a.fits a.length_pieces
    simp [replaced]

end Tag

end TableAccess.Markup
