import TableAccess.Proofs.Template.Rendering
import TableAccess.Proofs.Text.Blank
import Mathlib.Data.List.Infix

/-! Statements without markup. Nothing in such a text is a parameter, an entity or an element of a
template, so the passes leave it alone up to the last one that is about elements, which takes away
whatever reads as a tag of any name. A comparison does so when a letter follows its operator and the
closing bracket stands somewhere behind, outside of quotes. -/
namespace TableAccess.Template
open TableAccess.Text

/-- The elements that a template knows. -/
def elementNames : List String :=
  ["if", "where", "set", "trim", "foreach", "choose", "when", "otherwise", "include", "bind",
    "property"]

/-- Whether what follows an opening bracket makes it the start of markup. -/
def opensMarkup (rest : List Char) : Bool :=
  rest.head? == some '!' || (someWord? elementNames ((afterStart? ['/'] rest).getD rest)).isSome

/-- A text without entities, parameters, substitutions and markup. -/
structure Unmarked (text : List Char) : Prop where
  entities : '&' ∉ text
  parameters : ¬ ['#', '\x7b'] <:+: text
  substitutions : ¬ ['$', '\x7b'] <:+: text
  markup : ∀ behind ∈ text.tails, behind.head? = some '<' → opensMarkup behind.tail = false

instance (text : List Char) : Decidable (Unmarked text) :=
  decidable_of_iff ('&' ∉ text ∧ ¬ ['#', '\x7b'] <:+: text ∧ ¬ ['$', '\x7b'] <:+: text ∧
      ∀ behind ∈ text.tails, behind.head? = some '<' → opensMarkup behind.tail = false)
    ⟨fun ⟨h₁, h₂, h₃, h₄⟩ => ⟨h₁, h₂, h₃, h₄⟩, fun ⟨h₁, h₂, h₃, h₄⟩ => ⟨h₁, h₂, h₃, h₄⟩⟩

/-- The inside of a tag: a closing bracket stands in it only within quotes. -/
inductive TagInside : List Char → Prop where
  | nil : TagInside []
  | char {c : Char} {rest : List Char} (plain : c ∉ ['>', '"', '\'']) (inside : TagInside rest) :
      TagInside (c :: rest)
  | quoted {q : Char} {value rest : List Char} (quote : q ∈ ['"', '\'']) (closed : q ∉ value)
      (inside : TagInside rest) : TagInside (q :: value ++ q :: rest)

/-- A tag of any name. -/
inductive IsTag : List Char → Prop where
  | opening {letter : Char} {inside : List Char} (named : isAsciiLetter letter = true)
      (closed : TagInside inside) : IsTag ('<' :: letter :: inside ++ ['>'])
  | closing {letter : Char} {inside : List Char} (named : isAsciiLetter letter = true)
      (closed : TagInside inside) : IsTag ('<' :: '/' :: letter :: inside ++ ['>'])

/-- Whether a tag stands somewhere in a text. -/
def HasTag (text : List Char) : Prop := ∃ tag, IsTag tag ∧ tag <:+: text

variable {α : Type} {pattern : Pattern α} {text rest inside after : List Char} {c : Char}

theorem TagInside.taken (closed : TagInside inside) (after : List Char) :
    tagRest? true none (inside ++ '>' :: after) = some (inside, after) := by
  induction closed with
  | nil => rfl
  | @char c rest plain _ ih =>
    simp only [List.mem_cons, List.not_mem_nil, or_false, not_or] at plain
    obtain ⟨bracket, double, single⟩ := plain
    simp [tagRest?, bracket, double, single, ih]
  | @quoted q value rest quote closed _ ih =>
    have opened : tagRest? true none (q :: (value ++ q :: (rest ++ '>' :: after))) =
        (tagRest? true (some q) (value ++ q :: (rest ++ '>' :: after))).map fun found =>
          (q :: found.1, found.2) := by
      simp only [List.mem_cons, List.not_mem_nil, or_false] at quote
      rcases quote with rfl | rfl <;> rfl
    rw [List.cons_append, List.cons_append, List.append_assoc, List.cons_append, opened,
      tagRest?_value closed, ih]
    rfl

/-- What a tag is taken to have inside goes on, within a quote, up to the quote that closes it. -/
private theorem inside_of_tagRest? (text : List Char) :
    (∀ inside after, tagRest? true none text = some (inside, after) → TagInside inside) ∧
    ∀ q inside after, tagRest? true (some q) text = some (inside, after) →
      ∃ value rest, inside = value ++ q :: rest ∧ q ∉ value ∧ TagInside rest := by
  induction text with
  | nil => exact ⟨(by rintro _ _ ⟨⟩), (by rintro _ _ _ ⟨⟩)⟩
  | cons c text ih =>
    obtain ⟨outside, within⟩ := ih
    constructor
    · intro inside after found
      rw [tagRest?] at found
      split at found
      · obtain ⟨rfl, rfl⟩ := Prod.mk.inj (Option.some.inj found)
        exact .nil
      · next open_ =>
        simp only [Bool.not_true, Bool.and_false, Bool.false_eq_true, if_false] at found
        obtain ⟨rest, rfl, later⟩ := exists_of_map_cons found
        split at later
        · next quote =>
          obtain ⟨value, rest, rfl, closed, inside⟩ := within _ _ _ later
          exact .quoted (by simpa using quote) closed inside
        · next plain =>
          refine .char ?_ (outside _ _ later)
          simpa [not_or, and_assoc] using And.intro open_ plain
    · intro q inside after found
      rw [tagRest?] at found
      obtain ⟨rest, rfl, later⟩ := exists_of_map_cons found
      split at later
      · next same =>
        exact ⟨[], rest, by rw [beq_iff_eq.mp same]; rfl, List.not_mem_nil, outside _ _ later⟩
      · next other =>
        obtain ⟨value, rest, rfl, closed, inside⟩ := within _ _ _ later
        refine ⟨c :: value, rest, rfl, ?_, inside⟩
        rintro (_ | ⟨_, member⟩)
        · exact other (beq_self_eq_true _)
        · exact closed member


/-- A tag is what the pattern for tags takes. -/
theorem of_anyTag {v : Unit} (found : anyTag text = some (v, after)) :
    ∃ tag, IsTag tag ∧ text = tag ++ after := by
  simp only [anyTag, Option.bind_eq_bind, Option.bind_eq_some_iff] at found
  obtain ⟨rest, start, found⟩ := found
  have whole : text = '<' :: rest := of_afterStart? start
  split at found
  · cases found
  · next letter behind named =>
    split at found
    · next isLetter =>
      obtain ⟨⟨inside, after'⟩, closed, same⟩ := Option.map_eq_some_iff.mp found
      obtain ⟨-, rfl⟩ := Prod.mk.inj same
      have split_ : behind = inside ++ '>' :: after' := of_tagRest? closed
      have inside := (inside_of_tagRest? _).1 _ _ closed
      cases slash : afterStart? ['/'] rest with
      | none =>
        rw [slash] at named
        have named : rest = letter :: behind := named
        exact ⟨_, .opening isLetter inside, by simp [whole, named, split_]⟩
      | some rest' =>
        rw [slash] at named
        have named : rest' = letter :: behind := named
        have slash : rest = '/' :: rest' := of_afterStart? slash
        exact ⟨_, .closing isLetter inside, by simp [whole, slash, named, split_]⟩
    · cases found

theorem IsTag.taken {tag : List Char} (written : IsTag tag) (after : List Char) :
    anyTag (tag ++ after) = some ((), after) := by
  cases written with
  | @opening letter inside named closed =>
    have slash : letter ≠ '/' := by
      rintro rfl
      exact absurd named (by decide)
    simp [anyTag, afterStart?, Ne.symm slash, named, closed.taken]
  | closing named closed => simp [anyTag, afterStart?, named, closed.taken]

/-! The passes that look for elements, comments and sections find none. -/

private theorem someWord?_subset {names names' : List String} (subset : names ⊆ names')
    (found : (someWord? names text).isSome = true) : (someWord? names' text).isSome = true := by
  rw [someWord?, List.isSome_findSome?] at found ⊢
  exact List.any_eq_true.mpr ((List.any_eq_true.mp found).imp fun _ ⟨listed, taken⟩ =>
    ⟨subset listed, taken⟩)

/-- What is found where markup opens. -/
def OpensAtMarkup (pattern : Pattern α) : Prop :=
  ∀ text v after, pattern text = some (v, after) →
    text.head? = some '<' ∧ opensMarkup text.tail = true

theorem opensMarkup_between {start finish : String} {mark : List Char}
    (begins : start.toList = '<' :: '!' :: mark) : OpensAtMarkup (between start finish) := by
  intro text v after found
  simp only [between, Option.bind_eq_bind, Option.bind_eq_some_iff] at found
  obtain ⟨rest, start, _⟩ := found
  have whole := of_afterStart? start
  simp [whole, begins, opensMarkup]

theorem opensMarkup_element {start : Pattern α} (opens : OpensAtMarkup start)
    (names : List String) : OpensAtMarkup (element start names) := by
  intro text v after found
  simp only [element, Option.bind_eq_bind, Option.bind_eq_some_iff] at found
  obtain ⟨⟨tag, rest⟩, start, _⟩ := found
  exact opens _ _ _ start

theorem opensMarkup_choiceOpening : OpensAtMarkup choiceOpening := by
  intro text v after found
  simp only [choiceOpening, Option.bind_eq_bind, Option.bind_eq_some_iff] at found
  obtain ⟨rest, start, rest', bracket, _⟩ := found
  have whole : text = '<' :: ("choose".toList ++ rest) := of_afterStart? start
  have ends : endsWord rest = true := by
    cases rest with
    | nil => rfl
    | cons c rest =>
      by_cases blank : isBlank c = true
      · simp [endsWord, isWordChar_of_isBlank blank]
      · have bracket : c :: rest = '>' :: rest' := by
          have trimmed := of_afterStart? bracket
          rwa [trimStart, List.dropWhile_cons_of_neg blank] at trimmed
        rw [(List.cons.inj bracket).1]
        rfl
  refine ⟨by rw [whole]; rfl, ?_⟩
  have named : someWord? elementNames ("choose".toList ++ rest) = some ("choose", rest) :=
    someWord?_name (by decide) (by decide) ends
  have slash : (afterStart? ['/'] ("choose".toList ++ rest)).getD ("choose".toList ++ rest) =
      "choose".toList ++ rest := slash_absent (by decide) rest
  simp only [whole, opensMarkup, List.tail_cons, slash, named, Option.isSome_some, Bool.or_true]

theorem opensMarkup_opening {names : List String} (subset : names ⊆ elementNames)
    (singles : names.all isName) (slashAllowed : Bool) : OpensAtMarkup (opening slashAllowed names) := by
  intro text v after found
  simp only [opening, Option.bind_eq_bind, Option.bind_eq_some_iff] at found
  obtain ⟨rest, start, ⟨name, rest'⟩, named, _⟩ := found
  have whole : text = '<' :: rest := of_afterStart? start
  have some_ := someWord?_subset subset (Option.isSome_of_eq_some named)
  obtain ⟨listed, split_, _⟩ := of_someWord? named
  have single : isName name := List.all_eq_true.mp singles name listed
  have slash : (afterStart? ['/'] rest).getD rest = rest := by
    rw [split_]
    exact slash_absent single rest'
  simp [whole, opensMarkup, slash, some_]

theorem opensMarkup_tagOf {names : List String} (subset : names ⊆ elementNames) :
    OpensAtMarkup (tagOf names) := by
  intro text v after found
  simp only [tagOf, Option.bind_eq_bind, Option.bind_eq_some_iff] at found
  obtain ⟨rest, start, ⟨name, rest'⟩, named, _⟩ := found
  have whole : text = '<' :: rest := of_afterStart? start
  have some_ := someWord?_subset subset (Option.isSome_of_eq_some named)
  simp [whole, opensMarkup, some_]

theorem Unmarked.missed (unmarked : Unmarked text) (opens : OpensAtMarkup pattern)
    (behind : List Char) (part : behind <:+ text) : pattern behind = none := by
  rw [Option.eq_none_iff_forall_ne_some]
  rintro ⟨v, after⟩ found
  obtain ⟨bracket, markup⟩ := opens _ _ _ found
  have plain := unmarked.markup behind ((List.mem_tails _ _).mpr part) bracket
  rw [plain] at markup
  cases markup

/-- Of the passes that are about elements only the last one does something. -/
theorem flatten_unmarked (unmarked : Unmarked text) :
    flatten text = replace anyTag (fun _ => [' ']) text := by
  have comments : OpensAtMarkup (between "<!--" "-->") := opensMarkup_between rfl
  have sections : OpensAtMarkup (between "<![CDATA[" "]]>") := opensMarkup_between rfl
  have choices : OpensAtMarkup (element choiceOpening ["choose"]) :=
    opensMarkup_element opensMarkup_choiceOpening _
  have loops : OpensAtMarkup (element (opening true ["foreach"]) ["foreach"]) :=
    opensMarkup_element (opensMarkup_opening (by decide) (by decide) true) _
  have conditions : OpensAtMarkup
      (tagOf ["if", "when", "otherwise", "include", "bind", "property"]) :=
    opensMarkup_tagOf (by decide)
  have clauses : OpensAtMarkup clauseOpening := opensMarkup_opening (by decide) (by decide) false
  have written : writeClauses text = text := by
    refine writeClauses_of_none ?_
    simp [writeInnermost?, lastPlace?_of_missed (unmarked.missed clauses)]
  unfold flatten
  dsimp only
  rw [replace_of_missed (unmarked.missed comments), replace_of_missed (unmarked.missed sections),
    replace_of_missed (unmarked.missed choices), replace_of_missed (unmarked.missed loops),
    replace_of_missed (unmarked.missed conditions), written]

/-! What is left without tags. -/

/-- A text without its tags. -/
def withoutTags (text : List Char) : List Char := replace anyTag (fun _ => [' ']) text

/-- A text is read tag by tag, and character by character where no tag stands. -/
theorem tag_induction {motive : List Char → Prop} (nil : motive [])
    (char : ∀ c rest, anyTag (c :: rest) = none → motive rest → motive (c :: rest))
    (tag : ∀ tag after, IsTag tag → motive after → motive (tag ++ after)) (text : List Char) :
    motive text := by
  refine Pattern.places_induction anyTag (fun text v after found => ?_) nil char
    (fun text v after found behind => ?_) text
  · obtain ⟨written, isTag, rfl⟩ := of_anyTag found
    rw [List.length_append]
    cases isTag <;> simp
  · obtain ⟨written, isTag, rfl⟩ := of_anyTag found
    exact tag written after isTag behind

theorem withoutTags_cons (missed : anyTag (c :: rest) = none) :
    withoutTags (c :: rest) = c :: withoutTags rest :=
  replace_cons_of_none missed

theorem withoutTags_tag {tag : List Char} (isTag : IsTag tag) (after : List Char) :
    withoutTags (tag ++ after) = ' ' :: withoutTags after := by
  have taken := isTag.taken after
  cases isTag <;> exact replace_of_some taken

theorem withoutTags_of_missed (missed : ∀ behind, behind <:+ text → anyTag behind = none) :
    withoutTags text = text :=
  replace_of_missed missed

theorem mem_withoutTags (member : c ∈ withoutTags text) : c = ' ' ∨ c ∈ text := by
  induction text using tag_induction with
  | nil => exact .inr member
  | char d rest missed ih =>
    rw [withoutTags_cons missed] at member
    rcases List.mem_cons.mp member with rfl | member
    · exact .inr List.mem_cons_self
    · exact (ih member).imp_right (List.mem_cons_of_mem d)
  | tag tag after isTag ih =>
    rw [withoutTags_tag isTag] at member
    rcases List.mem_cons.mp member with blank | member
    · exact .inl blank
    · exact (ih member).imp_right (List.mem_append_right tag)

private theorem head?_withoutTags (other : c ≠ ' ') (first : (withoutTags text).head? = some c) :
    text.head? = some c := by
  induction text using tag_induction with
  | nil => exact first
  | char d rest missed => rwa [withoutTags_cons missed] at first
  | tag tag after isTag =>
    rw [withoutTags_tag isTag] at first
    exact absurd (Option.some.inj first).symm other

/-- Taking tags away puts no two characters beside each other, because a blank stays. -/
theorem infix_of_infix_withoutTags {a b : Char} (plain : a ≠ ' ') (plain' : b ≠ ' ')
    (part : [a, b] <:+: withoutTags text) : [a, b] <:+: text := by
  induction text using tag_induction with
  | nil => exact part
  | char c rest missed ih =>
    rw [withoutTags_cons missed] at part
    rcases List.infix_cons_iff.mp part with front | later
    · obtain ⟨rfl, behind, same⟩ := List.cons_prefix_cons.mp front
      have second : (withoutTags rest).head? = some b := by
        rw [← same]
        rfl
      obtain ⟨rest', rfl⟩ := List.head?_eq_some_iff.mp (head?_withoutTags plain' second)
      exact (List.prefix_append [a, b] rest').isInfix
    · exact (ih later).trans (List.suffix_cons c rest).isInfix
  | tag tag after isTag ih =>
    rw [withoutTags_tag isTag] at part
    rcases List.infix_cons_iff.mp part with front | later
    · exact absurd (List.cons_prefix_cons.mp front).1 plain
    · exact (ih later).trans (List.suffix_append tag after).isInfix

/-- There are fewer brackets without tags, where there are tags. -/
theorem count_withoutTags (text : List Char) :
    (withoutTags text).count '<' ≤ text.count '<' ∧
      (HasTag text → (withoutTags text).count '<' < text.count '<') := by
  induction text using tag_induction with
  | nil =>
    refine ⟨Nat.le_refl _, ?_⟩
    rintro ⟨tag, isTag, part⟩
    rw [List.infix_nil.mp part] at isTag
    cases isTag
  | char c rest missed ih =>
    rw [withoutTags_cons missed, List.count_cons, List.count_cons]
    refine ⟨Nat.add_le_add_right ih.1 _, ?_⟩
    rintro ⟨tag, isTag, part⟩
    rcases List.infix_cons_iff.mp part with ⟨after, front⟩ | later
    · rw [← front, isTag.taken] at missed
      cases missed
    · exact Nat.add_lt_add_right (ih.2 ⟨tag, isTag, later⟩) _
  | tag tag after isTag ih =>
    have bracket : 1 ≤ tag.count '<' := by cases isTag <;> simp
    have fewer := ih.1
    rw [withoutTags_tag isTag, List.count_append, List.count_cons_of_ne (by decide)]
    omega

theorem missed_of_not_hasTag (plain : ¬ HasTag text) (behind : List Char)
    (part : behind <:+ text) : anyTag behind = none := by
  rw [Option.eq_none_iff_forall_ne_some]
  rintro ⟨v, after⟩ found
  obtain ⟨tag, isTag, rfl⟩ := of_anyTag found
  exact plain ⟨tag, isTag, (List.prefix_append tag after).isInfix.trans part.isInfix⟩

/-- A text without opening brackets has no markup. -/
theorem unmarked_of_absent (brackets : '<' ∉ text) (entities : '&' ∉ text)
    (parameters : ¬ ['#', '\x7b'] <:+: text) (substitutions : ¬ ['$', '\x7b'] <:+: text) :
    Unmarked text where
  entities := entities
  parameters := parameters
  substitutions := substitutions
  markup := by
    intro behind part opens
    rw [List.mem_tails] at part
    exact absurd (part.subset (List.mem_of_head? opens)) brackets

theorem not_hasTag_of_absent (brackets : '<' ∉ text) : ¬ HasTag text := by
  rintro ⟨tag, isTag, part⟩
  have opens : '<' ∈ tag := by cases isTag <;> exact List.mem_cons_self
  exact brackets (part.subset opens)

/-! The last passes. -/

/-- What starts with a character stands behind a part without it. -/
theorem infix_of_infix_behind {front : List Char} {a b : Char} (absent : a ∉ front)
    (part : [a, b] <:+: front ++ text) : [a, b] <:+: text := by
  induction front with
  | nil => exact part
  | cons c front ih =>
    obtain ⟨other, absent⟩ := not_or.mp (mt List.mem_cons.mpr absent)
    rcases List.infix_cons_iff.mp part with first | later
    · exact absurd (List.cons_prefix_cons.mp first).1 other
    · exact ih absent later

private theorem missed_of_mark {a b : Char} (plain : ¬ [a, b] <:+: text)
    (starts : ∀ behind v after, pattern behind = some (v, after) →
      ∃ rest, afterStart? [a, b] behind = some rest)
    (behind : List Char) (part : behind <:+ text) : pattern behind = none := by
  rw [Option.eq_none_iff_forall_ne_some]
  rintro ⟨v, after⟩ found
  obtain ⟨rest, start⟩ := starts _ _ _ found
  refine plain (List.IsInfix.trans ?_ part.isInfix)
  rw [of_afterStart? start]
  exact (List.prefix_append [a, b] rest).isInfix

private theorem starts_parameter (behind name after : List Char)
    (found : parameter behind = some (name, after)) :
    ∃ rest, afterStart? ['#', '\x7b'] behind = some rest := by
  simp only [parameter, Option.bind_eq_bind, Option.bind_eq_some_iff] at found
  obtain ⟨rest, start, _⟩ := found
  exact ⟨rest, start⟩

private theorem starts_substitution (behind name after : List Char)
    (found : substitution behind = some (name, after)) :
    ∃ rest, afterStart? ['$', '\x7b'] behind = some rest := by
  simp only [substitution, Option.bind_eq_bind, Option.bind_eq_some_iff] at found
  obtain ⟨rest, start, _⟩ := found
  exact ⟨rest, start⟩

theorem writeParameters_map_plain (form : Placeholder) (next : Nat) (text : List Char) :
    writeParameters form next (text.map Segment.plain) = text := by
  induction text with
  | nil => rfl
  | cons c rest ih => rw [List.map_cons, writeParameters, ih]

private theorem namesFound_of_missed {pattern : Pattern (List Char)}
    (missed : ∀ behind, behind <:+ text → pattern behind = none) : namesFound pattern text = [] := by
  rw [namesFound, occurrences, segments_of_missed missed, List.filterMap_map]
  simp

/-- Without parameters and substitutions, only entities and blanks are left for the last passes. -/
theorem finish_of_absent (form : Placeholder) (parameters : ¬ ['#', '\x7b'] <:+: text)
    (substitutions : ¬ ['$', '\x7b'] <:+: text) :
    finish form text = ⟨String.ofList (words (unescape text)), [], []⟩ := by
  have noParameter := missed_of_mark parameters starts_parameter
  have noSubstitution := missed_of_mark substitutions starts_substitution
  unfold finish
  dsimp only
  rw [segments_of_missed noParameter, writeParameters_map_plain, replace_of_missed noSubstitution,
    namesFound_of_missed noParameter, namesFound_of_missed noSubstitution]

/-- The passes behind those that are about elements leave a text alone that they find nothing in, up
to its blanks. -/
theorem finish_plain (form : Placeholder) (entities : '&' ∉ text)
    (parameters : ¬ ['#', '\x7b'] <:+: text) (substitutions : ¬ ['$', '\x7b'] <:+: text) :
    finish form text = ⟨String.ofList (words text), [], []⟩ := by
  rw [finish_of_absent form parameters substitutions, unescape_of_absent entities]

/-- A text without markup is its words, without its tags. -/
theorem fill_unmarked (form : Placeholder) {text : String} (unmarked : Unmarked text.toList) :
    fill form text = ⟨String.ofList (words (withoutTags text.toList)), [], []⟩ := by
  rw [fill_eq, flatten_unmarked unmarked]
  refine finish_plain form (fun member => ?_) (fun part => ?_) fun part => ?_
  · rcases mem_withoutTags member with blank | member
    · cases blank
    · exact unmarked.entities member
  · exact unmarked.parameters (infix_of_infix_withoutTags (by decide) (by decide) part)
  · exact unmarked.substitutions (infix_of_infix_withoutTags (by decide) (by decide) part)

/-- **A statement without markup is kept up to its blanks exactly if nothing in it reads as a tag.**
Nothing else that the passes do depends on how its brackets pair up. -/
theorem fill_eq_words_iff (form : Placeholder) {text : String} (unmarked : Unmarked text.toList) :
    fill form text = ⟨String.ofList (words text.toList), [], []⟩ ↔ ¬ HasTag text.toList := by
  rw [fill_unmarked form unmarked]
  constructor
  · intro same hasTag
    have kept : words (withoutTags text.toList) = words text.toList := by
      have texts := congrArg (fun filled => filled.text.toList) same
      simpa using texts
    have fewer := (count_withoutTags text.toList).2 hasTag
    rw [← count_words (by decide), kept, count_words (by decide)] at fewer
    exact Nat.lt_irrefl _ fewer
  · intro plain
    rw [withoutTags_of_missed (missed_of_not_hasTag plain)]

/-- A bracket that no letter follows opens no tag, whatever stands behind it. -/
theorem fill_eq_words_iff_spaced : Unmarked "SELECT a\n  FROM t WHERE a < 3 AND b >= 4".toList ∧
    (fill .mark "SELECT a\n  FROM t WHERE a < 3 AND b >= 4" =
        ⟨String.ofList (words "SELECT a\n  FROM t WHERE a < 3 AND b >= 4".toList), [], []⟩ ↔
      ¬ HasTag "SELECT a\n  FROM t WHERE a < 3 AND b >= 4".toList) :=
  have unmarked : Unmarked "SELECT a\n  FROM t WHERE a < 3 AND b >= 4".toList := by decide
  ⟨unmarked, fill_eq_words_iff .mark unmarked⟩

/-- What stands between two comparisons is taken away with them. -/
theorem comparisons_taken_for_tag : ¬ (Unmarked "a<b AND c>d".toList →
    fill .mark "a<b AND c>d" = ⟨String.ofList (words "a<b AND c>d".toList), [], []⟩) := by
  intro kept
  have written : fill .mark "a<b AND c>d" = ⟨"a d", [], []⟩ := by cbv
  have same := (written.symm.trans (kept (by decide)))
  exact absurd (congrArg Filled.text same) (by decide)

end TableAccess.Template
