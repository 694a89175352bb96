import TableAccess.Proofs.Template.Passage
import TableAccess.Proofs.Template.Unmarked

/-! The element of conditions and the one that it is short for, which states itself that it writes
the keyword and takes away a connective. Both take it away from the start of their body. The first
looks for a word; the other one compares letters, whatever stands behind them, and so takes away the
start of a longer word too. -/
namespace TableAccess.Template
open TableAccess.Text

/-- Conditions in the element that is made for them. -/
def conditions (body : String) : String := "<where>" ++ body ++ "</where>"

/-- Conditions in an element that states itself what it adds and takes away. -/
def trimmedConditions (body : String) : String :=
  "<trim prefix=\"WHERE\" prefixOverrides=\"AND |OR \">" ++ body ++ "</trim>"

/-- Whether a body starts with the letters of a connective, in a word that goes on behind them. -/
def StartsInWord (body : List Char) : Prop :=
  ∃ front c rest, trim body = front ++ c :: rest ∧
    front.map Char.toLower ∈ ["and".toList, "or".toList] ∧ isWordChar c = true

variable {start front body core rest text : List Char}

/-! What each of the two takes away. -/

theorem afterStartFolded?_eq_some_iff : afterStartFolded? start text = some rest ↔
    ∃ front, text = front ++ rest ∧ front.map Char.toLower = start.map Char.toLower := by
  unfold afterStartFolded?
  constructor
  · intro found
    split at found
    · next behind folded =>
      obtain rfl := Option.some.inj found
      refine ⟨text.take start.length, (List.take_append_drop _ _).symm, ?_⟩
      rw [List.map_take, of_afterStart? folded]
      exact List.take_left' (List.length_map _)
    · cases found
  · rintro ⟨front, rfl, same⟩
    have long : front.length = start.length := by simpa using congrArg List.length same
    rw [List.map_append, same, afterStart?_append, ← long]
    exact congrArg some List.drop_left

/-- What stands behind the letters of a connective at the start of a text. -/
def behindConnective? (text : List Char) : Option (List Char) :=
  ["AND", "OR"].findSome? fun word => afterStartFolded? word.toList text

/-- A text starts with one connective at most. -/
private theorem or_absent (found : afterStartFolded? "AND".toList text = some rest) :
    afterStartFolded? "OR".toList text = none := by
  rw [Option.eq_none_iff_forall_ne_some]
  intro rest' found'
  obtain ⟨front, whole, letters⟩ := afterStartFolded?_eq_some_iff.mp found
  obtain ⟨front', whole', letters'⟩ := afterStartFolded?_eq_some_iff.mp found'
  have first := congrArg List.head? (congrArg (List.map Char.toLower) (whole.symm.trans whole'))
  rw [List.map_append, List.map_append, letters, letters'] at first
  exact absurd (Option.some.inj first) (by decide)

theorem behindConnective?_eq_some_iff : behindConnective? text = some rest ↔
    ∃ front, text = front ++ rest ∧ front.map Char.toLower ∈ ["and".toList, "or".toList] := by
  constructor
  · intro found
    obtain ⟨word, listed, found⟩ := List.exists_of_findSome?_eq_some found
    obtain ⟨front, whole, letters⟩ := afterStartFolded?_eq_some_iff.mp found
    refine ⟨front, whole, letters ▸ ?_⟩
    simp only [List.mem_cons, List.not_mem_nil, or_false] at listed
    rcases listed with rfl | rfl <;> decide
  · rintro ⟨front, whole, letters⟩
    simp only [List.mem_cons, List.not_mem_nil, or_false] at letters
    rcases letters with letters | letters
    · have found : afterStartFolded? "AND".toList text = some rest :=
        afterStartFolded?_eq_some_iff.mpr ⟨front, whole, letters⟩
      simp only [behindConnective?, List.findSome?_cons, found]
    · have found : afterStartFolded? "OR".toList text = some rest :=
        afterStartFolded?_eq_some_iff.mpr ⟨front, whole, letters⟩
      cases other : afterStartFolded? "AND".toList text with
      | none => simp only [behindConnective?, List.findSome?_cons, other, found]
      | some behind =>
        rw [or_absent other] at found
        cases found

theorem startsInWord_iff : StartsInWord body ↔
    ∃ rest, behindConnective? (trim body) = some rest ∧ endsWord rest = false := by
  constructor
  · rintro ⟨front, c, rest, whole, letters, word⟩
    exact ⟨c :: rest, behindConnective?_eq_some_iff.mpr ⟨front, whole, letters⟩,
      by simp [endsWord, word]⟩
  · rintro ⟨rest, found, word⟩
    obtain ⟨front, whole, letters⟩ := behindConnective?_eq_some_iff.mp found
    cases rest with
    | nil => cases word
    | cons c rest => exact ⟨front, c, rest, whole, letters, by simpa [endsWord] using word⟩

instance (body : List Char) : Decidable (StartsInWord body) :=
  decidable_of_iff ((behindConnective? (trim body)).any fun rest => !endsWord rest) <| by
    rw [startsInWord_iff]
    cases behindConnective? (trim body) <;> simp

theorem withoutStart_connectives (body : List Char) :
    withoutStart body "AND |OR ".toList = (behindConnective? (trim body)).getD (trim body) := by
  have listed : overrides "AND |OR ".toList = ["AND", "OR"].map String.toList := by decide
  rw [withoutStart, listed, List.findSome?_map]
  rfl

theorem withoutConnective_eq (body : List Char) : withoutConnective body =
    ((behindConnective? body).filter endsWord).getD body := by
  unfold withoutConnective behindConnective?
  simp only [List.findSome?_cons, List.findSome?_nil]
  cases first : afterStartFolded? "AND".toList body with
  | none =>
    cases second : afterStartFolded? "OR".toList body with
    | none => rfl
    | some rest => cases ends : endsWord rest <;> simp [Option.filter, ends]
  | some rest =>
    rw [or_absent first]
    cases ends : endsWord rest <;> simp [Option.filter, ends]

/-! What the two elements write. -/

/-- A clause without further elements in it is written by itself. -/
theorem flatten_clause (kind : ClauseKind) (attributes : List Attribute) (plain : '<' ∉ body) :
    flatten (openingTag kind.name attributes ++ (body ++ closingTag kind.name)) =
      clause kind.name (attributesText attributes) body := by
  have kept {α : Type} {pattern : Pattern α} {write : α → List Char} (opens : pattern.OpensWith '<')
      (missed : ∀ rest, pattern ('<' :: kind.name.toList ++ rest) = none)
      (missed' : ∀ rest, pattern ('<' :: '/' :: kind.name.toList ++ rest) = none) :
      replace pattern write (openingTag kind.name attributes ++ (body ++ closingTag kind.name)) =
        openingTag kind.name attributes ++ (body ++ closingTag kind.name) :=
    ((misses_openingTag opens kind.isName_name missed attributes).append
      ((Pattern.Misses.of_absent opens plain).append
        (misses_closingTag opens kind.isName_name missed'))).replace_self
  have comments : (between "<!--" "-->").OpensWith '<' := opensWith_between rfl
  have sections : (between "<![CDATA[" "]]>").OpensWith '<' := opensWith_between rfl
  have choices := opensWith_element opensWith_choiceOpening ["choose"]
  have loops := opensWith_element (opensWith_opening true ["foreach"]) ["foreach"]
  have conditions := opensWith_tagOf ["if", "when", "otherwise", "include", "bind", "property"]
  have absent : '<' ∉ clause kind.name (attributesText attributes) body :=
    clause_absent kind.listed (attributesText_absent attributes (by decide))
      (attributesText_absent attributes (by decide)) plain
  have written : writeClauses (openingTag kind.name attributes ++ (body ++ closingTag kind.name)) =
      clause kind.name (attributesText attributes) body := by
    have start : clauseOpening.Resumes [] :=
      (Pattern.Passes.of_absent (opensWith_opening false clauseNames) List.not_mem_nil).resumes
    have alone := writeClauses_element kind attributes start plain
      (show lastPlace? clauseOpening [] = none from rfl)
    simp only [List.append_nil, List.nil_append] at alone
    rw [alone, writeClauses_of_absent absent]
  unfold flatten
  dsimp only
  rw [kept comments (fun _ => by cases kind <;> rfl) fun _ => rfl,
    kept sections (fun _ => by cases kind <;> rfl) fun _ => rfl,
    kept choices (fun _ => by cases kind <;> rfl) fun _ => rfl,
    kept loops (fun _ => by cases kind <;> rfl) fun _ => rfl,
    kept conditions (fun _ => by cases kind <;> rfl) fun _ => by cases kind <;> rfl,
    written, replace_of_absent opensWith_anyTag absent]

/-- The attributes of the element that states itself what it does. -/
def connectiveAttributes : List LetteredAttribute :=
  [lettered "prefix" "WHERE" rfl, lettered "prefixOverrides" "AND |OR " rfl]

private theorem toList_enclosed (front body back : String) :
    (front ++ body ++ back).toList = front.toList ++ (body.toList ++ back.toList) := by
  rw [String.toList_append, String.toList_append, List.append_assoc]

/-- What an element that stands for a clause becomes, however its tags are written as a string. -/
private theorem fill_element (form : Placeholder) (kind : ClauseKind) (attributes : List Attribute)
    {front body back : String} (opens : front.toList = openingTag kind.name attributes)
    (closes : back.toList = closingTag kind.name) (plain : '<' ∉ body.toList) :
    fill form (front ++ body ++ back) =
      finish form (clause kind.name (attributesText attributes) body.toList) := by
  rw [fill_eq, toList_enclosed, opens, closes, flatten_clause kind attributes plain]

theorem fill_conditions (form : Placeholder) {body : String} (plain : '<' ∉ body.toList) :
    fill form (conditions body) = finish form
      (keywordAndBody "WHERE".toList (withoutConnective (trim body.toList))) :=
  fill_element form .filter [] (by decide) (by decide) plain

theorem keywordAndBody_blank (keyword body : List Char) :
    keywordAndBody keyword (body ++ [' ']) = keywordAndBody keyword body := by
  unfold keywordAndBody
  rw [trim_append_blank rfl]

theorem clause_connectives (body : List Char) :
    clause "trim" (attributesText (connectiveAttributes.map LetteredAttribute.toAttribute)) body =
      keywordAndBody "WHERE".toList (withoutStart (trim body) "AND |OR ".toList) := by
  have keyword_ : (connectiveAttributes.find? fun a => a.name == "prefix".toList).map
      (fun a => a.value) = some "WHERE".toList := by decide
  have front : (connectiveAttributes.find? fun a => a.name == "prefixOverrides".toList).map
      (fun a => a.value) = some "AND |OR ".toList := by decide
  have back : (connectiveAttributes.find? fun a => a.name == "suffixOverrides".toList).map
      (fun a => a.value) = none := by decide
  have suffix_ : (connectiveAttributes.find? fun a => a.name == "suffix".toList).map
      (fun a => a.value) = none := by decide
  rw [clause_trim, keyword_trim, trimmedBody, attribute?_lettered, attribute?_lettered,
    attribute?_lettered, attribute?_lettered, keyword_, front, back, suffix_]
  exact keywordAndBody_blank _ _

theorem fill_trimmedConditions (form : Placeholder) {body : String} (plain : '<' ∉ body.toList) :
    fill form (trimmedConditions body) = finish form
      (keywordAndBody "WHERE".toList (withoutStart (trim body.toList) "AND |OR ".toList)) := by
  rw [← clause_connectives]
  exact fill_element form .trim (connectiveAttributes.map LetteredAttribute.toAttribute)
    (by decide) (by decide) plain

/-! What is left of a body. -/

private theorem infix_of_infix_blank {a b : Char} (solid : b ≠ ' ')
    (part : [a, b] <:+: text ++ [' ']) : [a, b] <:+: text := by
  rcases List.infix_concat_iff.mp part with last | earlier
  · rcases List.suffix_concat_iff.mp last with empty | ⟨before, same, _⟩
    · cases empty
    · have ends := congrArg List.getLast? same
      rw [List.getLast?_append] at ends
      exact absurd (Option.some.inj ends) solid
  · exact earlier

/-- Around a body there is nothing that could begin something in it. -/
theorem infix_of_infix_keywordAndBody {keyword : List Char} {a b : Char}
    (absent : a ∉ ' ' :: keyword ++ [' ']) (solid : b ≠ ' ')
    (part : [a, b] <:+: keywordAndBody keyword body) : [a, b] <:+: body := by
  unfold keywordAndBody at part
  dsimp only at part
  split at part
  · have long := part.length_le
    simp at long
  · have part : [a, b] <:+: ' ' :: keyword ++ [' '] ++ (trim body ++ [' ']) := by simpa using part
    have behind := infix_of_infix_behind absent part
    exact (infix_of_infix_blank solid behind).trans (trim_part body)

/-- What is left of a text without parameters and the like has none either. -/
theorem finish_keywordAndBody (form : Placeholder) (part : core <:+: text) (entities : '&' ∉ text)
    (parameters : ¬ ['#', '\x7b'] <:+: text) (substitutions : ¬ ['$', '\x7b'] <:+: text) :
    finish form (keywordAndBody "WHERE".toList core) =
      ⟨String.ofList (words (keywordAndBody "WHERE".toList core)), [], []⟩ := by
  refine finish_plain form (fun member => ?_) (fun found => ?_) fun found => ?_
  · rcases mem_keywordAndBody member with blank | front | member
    · cases blank
    · exact absurd front (by decide)
    · exact entities (part.subset member)
  · exact parameters ((infix_of_infix_keywordAndBody (by decide) (by decide) found).trans part)
  · exact substitutions ((infix_of_infix_keywordAndBody (by decide) (by decide) found).trans part)

theorem count_trim {c : Char} (solid : isBlank c = false) (text : List Char) :
    (trim text).count c = text.count c := by
  rw [trim, trimEnd, List.count_reverse, count_trimStart solid, List.count_reverse,
    count_trimStart solid]

theorem trim_ne_nil {c : Char} (solid : isBlank c = false) (member : c ∈ text) :
    trim text ≠ [] := by
  have inside : c ∈ trim text := by
    rw [← List.count_pos_iff, count_trim solid, List.count_pos_iff]
    exact member
  exact List.ne_nil_of_mem inside

/-- Behind the keyword there is all of the body but blanks. -/
theorem count_keywordAndBody {keyword : List Char} {c : Char} (solid : isBlank c = false)
    (some_ : trim body ≠ []) :
    (keywordAndBody keyword body).count c = keyword.count c + body.count c := by
  have other : ' ' ≠ c := ne_of_isBlank rfl solid
  unfold keywordAndBody
  dsimp only
  rw [if_neg (by simpa using some_)]
  simp only [List.count_append, List.count_cons_of_ne other, List.count_nil, count_trim solid]
  omega

/-- A start that is left out is missed in the statement. -/
private theorem words_ne {c d : Char} (solid : isBlank c = false) (solid' : isBlank d = false) :
    words (keywordAndBody "WHERE".toList (c :: (front ++ d :: rest))) ≠
      words (keywordAndBody "WHERE".toList (d :: rest)) := by
  intro same
  have counts := congrArg (List.count c) same
  rw [count_words solid, count_words solid,
    count_keywordAndBody solid (trim_ne_nil solid List.mem_cons_self),
    count_keywordAndBody solid (trim_ne_nil solid' List.mem_cons_self), List.count_cons_self,
    List.count_append] at counts
  omega

/-- A body that starts with the letters of a connective is another statement without them. -/
private theorem text_ne (form : Placeholder) {body : List Char} (entities : '&' ∉ body)
    (parameters : ¬ ['#', '\x7b'] <:+: body) (substitutions : ¬ ['$', '\x7b'] <:+: body)
    (found : behindConnective? (trim body) = some rest) (goesOn : endsWord rest = false) :
    (finish form (keywordAndBody "WHERE".toList (trim body))).text ≠
      (finish form (keywordAndBody "WHERE".toList rest)).text := by
  obtain ⟨front, whole, letters⟩ := behindConnective?_eq_some_iff.mp found
  have restInTrimmed : rest <:+: trim body := by
    rw [whole]
    exact (List.suffix_append front rest).isInfix
  rw [finish_keywordAndBody form (trim_part body) entities parameters substitutions,
    finish_keywordAndBody form (restInTrimmed.trans (trim_part body)) entities parameters
      substitutions]
  intro same
  cases front with
  | nil => exact absurd letters (by decide)
  | cons c front =>
    cases rest with
    | nil => cases goesOn
    | cons d rest =>
      have solid : isBlank c = false := head?_trim body c (by rw [whole]; rfl)
      have solid' : isBlank d = false := by
        cases blank : isBlank d with
        | false => rfl
        | true => simp [endsWord, isWordChar_of_isBlank blank] at goesOn
      have same := String.ofList_inj.mp same
      rw [whole] at same
      exact words_ne solid solid' same

/-- **The two elements agree exactly if no word goes on behind a connective at the start.** That is
so for every body without markup, parameters, substitutions and entities. -/
theorem conditions_eq_trimmed_iff (form : Placeholder) {body : String} (brackets : '<' ∉ body.toList)
    (entities : '&' ∉ body.toList) (parameters : ¬ ['#', '\x7b'] <:+: body.toList)
    (substitutions : ¬ ['$', '\x7b'] <:+: body.toList) :
    (fill form (conditions body)).text = (fill form (trimmedConditions body)).text ↔
      ¬ StartsInWord body.toList := by
  rw [fill_conditions form brackets, fill_trimmedConditions form brackets, withoutConnective_eq,
    withoutStart_connectives, trim_trim, startsInWord_iff]
  cases found : behindConnective? (trim body.toList) with
  | none => exact iff_of_true rfl (by rintro ⟨_, ⟨⟩, _⟩)
  | some rest =>
    cases ends : endsWord rest with
    | true =>
      refine iff_of_true ?_ ?_
      · simp [Option.filter, ends]
      · rintro ⟨_, same, goesOn⟩
        obtain rfl := Option.some.inj same
        exact absurd (ends.symm.trans goesOn) (by decide)
    | false =>
      refine iff_of_false ?_ (not_not_intro ⟨rest, rfl, ends⟩)
      simp only [Option.filter, ends, Bool.false_eq_true, if_false, Option.getD_none,
        Option.getD_some]
      exact text_ne form entities parameters substitutions found ends

/-- A connective in front of a parenthesis is one to both, and so is one in small letters. -/
theorem conditions_eq_trimmed_grouped :
    (fill .mark (conditions " or(a = 1)")).text = (fill .mark (trimmedConditions " or(a = 1)")).text :=
  (conditions_eq_trimmed_iff .mark (by decide) (by decide) (by decide) (by decide)).mpr (by decide)

/-- The name of a column loses its start. -/
theorem column_name_cut : '<' ∉ "order_id = 1".toList ∧ '&' ∉ "order_id = 1".toList ∧
    ¬ ['#', '\x7b'] <:+: "order_id = 1".toList ∧ ¬ ['$', '\x7b'] <:+: "order_id = 1".toList ∧
    (fill .mark (conditions "order_id = 1")).text = "WHERE order_id = 1" ∧
    (fill .mark (trimmedConditions "order_id = 1")).text = "WHERE der_id = 1" := by
  decide +kernel

end TableAccess.Template
