import TableAccess.Proofs.Collection
import TableAccess.Proofs.Mapper.Document

/-! The marks of a document are those of its parts, one after the other. Each part is told apart from
what follows it by how it ends, whatever follows; only a text ends where a bracket opens, so what
follows a text must open one or be nothing. -/
namespace TableAccess.Markup
open TableAccess.Text

/-- The mark of a text, if there is one. -/
def Plain.marks (t : Plain) : List Mark := if t.chars.isEmpty then [] else [.text t.chars]

/-- The marks of content in their order. -/
def Content.marks : Content → List Mark
  | text front => front.marks
  | aside front _ rest => front.marks ++ rest.marks
  | literal front s rest => front.marks ++ .literal s.chars :: rest.marks
  | leaf front tag rest => front.marks ++ .leaf tag.written :: rest.marks
  | element front tag inside _ rest =>
    front.marks ++ .opening tag.written :: (inside.marks ++ .closing tag.name.chars :: rest.marks)

variable {part rest text after value : List Char} {outer outer' : List (List Char)}

/-! Tags. -/

/-- Whether a part does not end a tag: its end is looked for behind the part. -/
def Unclosed (part : List Char) : Prop :=
  ∀ rest, tag? none (part ++ rest) =
    (tag? none rest).map fun (inside, after) => (part ++ inside, after)

namespace Unclosed

theorem nil : Unclosed [] := fun rest => by simp

theorem append {first second : List Char} (unclosed : Unclosed first) (unclosed' : Unclosed second) :
    Unclosed (first ++ second) := by
  intro rest
  rw [List.append_assoc, unclosed, unclosed', Option.map_map]
  simp [Function.comp_def]

theorem char {c : Char} (plain : c ∉ ['>', '"', '\'']) : Unclosed [c] := by
  intro rest
  simp only [List.mem_cons, List.not_mem_nil, or_false, not_or] at plain
  obtain ⟨bracket, double, single⟩ := plain
  simp [tag?, bracket, double, single]

theorem of_plain (plain : ∀ c ∈ part, c ∉ ['>', '"', '\'']) : Unclosed part := by
  induction part with
  | nil => exact nil
  | cons c part ih =>
    exact (char (plain c List.mem_cons_self)).append
      (ih fun d member => plain d (List.mem_cons_of_mem c member))

theorem flatMap {α : Type} {write : α → List Char} (items : List α)
    (each : ∀ a, Unclosed (write a)) : Unclosed (items.flatMap write) := by
  induction items with
  | nil => exact nil
  | cons a items ih => exact (each a).append ih

/-- A bracket between quotes does not end a tag. -/
theorem quoted {quote : Char} (isQuote : quote ∈ ['"', '\'']) (absent : quote ∉ value) :
    Unclosed (quote :: (value ++ [quote])) := by
  intro rest
  have within : tag? (some quote) (value ++ quote :: rest) =
      (tag? none rest).map fun (inside, after) => (value ++ quote :: inside, after) := by
    induction value with
    | nil => simp [tag?]
    | cons c value ih =>
      obtain ⟨other, absent⟩ := not_or.mp (mt List.mem_cons.mpr absent)
      simp [tag?, Ne.symm other, ih absent, Function.comp_def]
  have opened : tag? none (quote :: (value ++ quote :: rest)) =
      (tag? (some quote) (value ++ quote :: rest)).map fun (inside, after) =>
        (quote :: inside, after) := by
    simp only [List.mem_cons, List.not_mem_nil, or_false] at isQuote
    rcases isQuote with rfl | rfl <;> rfl
  simp [opened, within, Function.comp_def]

end Unclosed

theorem Gap.unclosed (g : Gap) : Unclosed g.chars := by
  refine .of_plain fun c member special => ?_
  have blank := g.blank c member
  simp only [List.mem_cons, List.not_mem_nil, or_false] at special
  rcases special with rfl | rfl | rfl <;> cases blank

theorem Name.unclosed (n : Name) : Unclosed n.chars :=
  .of_plain fun c member special => (n.plain c member).2
    ((by decide : ['>', '"', '\''] ⊆ ['<', '>', '/', '=', '!', '?', '"', '\'']) special)

theorem Attribute.unclosed (a : Attribute) : Unclosed a.written := by
  have equals : Unclosed ['='] := .char (by decide)
  have whole : a.written = a.front.chars ++ (a.name.chars ++ (a.before.chars ++ (['='] ++
      (a.behind.chars ++ (a.quote :: (a.value ++ [a.quote])))))) := rfl
  rw [whole]
  exact a.front.unclosed.append (a.name.unclosed.append (a.before.unclosed.append
    (equals.append (a.behind.unclosed.append (.quoted a.quoted a.quote_absent)))))

theorem Tag.unclosed (t : Tag) : Unclosed t.written :=
  t.name.unclosed.append ((Unclosed.flatMap t.attributes Attribute.unclosed).append t.gap.unclosed)

/-- The mark of a tag. -/
def markOf (tag : List Char) : Mark :=
  match tag, tag.reverse with
  | '/' :: name, _ => .closing ((name.reverse.dropWhile isBlank).reverse)
  | _, '/' :: backwards => .leaf backwards.reverse
  | _, _ => .opening tag

/-- What starts like a tag is one, up to the bracket that closes it. -/
theorem markup?_tag (mark : part.head? ≠ some '!') (question : part.head? ≠ some '?')
    (unclosed : Unclosed part) (rest : List Char) :
    markup? (part ++ '>' :: rest) = some (some (markOf part), rest) := by
  have taken : tag? none (part ++ '>' :: rest) = some (part, rest) := by
    rw [unclosed]
    simp [tag?]
  cases part with
  | nil => rfl
  | cons c part =>
    rw [List.cons_append] at taken ⊢
    have mark : c ≠ '!' := by simpa using mark
    have question : c ≠ '?' := by simpa using question
    unfold markup?
    split
    · next same => exact absurd (List.cons.inj same).1 mark
    · next same => exact absurd (List.cons.inj same).1 mark
    · next same => exact absurd (List.cons.inj same).1 mark
    · next same => exact absurd (List.cons.inj same).1 question
    · rw [taken]
      unfold markOf
      simp only [Option.bind_eq_bind, Option.bind_some]
      split <;> simp_all

theorem markOf_opening {tag : List Char} (first : tag.head? ≠ some '/')
    (last : tag.getLast? ≠ some '/') : markOf tag = .opening tag := by
  unfold markOf
  split
  · exact absurd rfl first
  · next backwards =>
    rw [← List.head?_reverse, backwards] at last
    exact absurd rfl last
  · rfl

theorem markOf_leaf {tag : List Char} (first : (tag ++ ['/']).head? ≠ some '/') :
    markOf (tag ++ ['/']) = .leaf tag := by
  unfold markOf
  split
  · next spelled =>
    rw [spelled] at first
    exact absurd rfl first
  · next backwards _ =>
    rw [List.reverse_append, List.reverse_singleton, List.singleton_append] at backwards
    rw [← (List.cons.inj backwards).2, List.reverse_reverse]
  · next none_ => exact absurd (by simp) (none_ tag.reverse)

namespace Name

/-- A name does not start like other markup. -/
theorem head_ne (n : Name) {c : Char} (special : c ∈ ['<', '>', '/', '=', '!', '?', '"', '\''])
    (rest : List Char) : (n.chars ++ rest).head? ≠ some c := by
  obtain ⟨d, letters, spelled, _, plain⟩ := n.head
  rw [spelled]
  intro same
  obtain rfl : d = c := by simpa using same
  exact plain special

theorem getLast_ne (n : Name) {c : Char} (special : c ∈ ['<', '>', '/', '=', '!', '?', '"', '\'']) :
    n.chars.getLast? ≠ some c := fun last =>
  (n.plain c (List.mem_of_getLast? last)).2 special

end Name

namespace Tag
variable (t : Tag)

theorem head_ne {c : Char} (special : c ∈ ['<', '>', '/', '=', '!', '?', '"', '\''])
    (rest : List Char) : (t.written ++ rest).head? ≠ some c := by
  rw [written, List.append_assoc]
  exact t.name.head_ne special _

/-- A tag ends with a blank, a quote or its name. -/
theorem getLast_ne : t.written.getLast? ≠ some '/' := by
  have gap : t.gap.chars.getLast? ≠ some '/' := fun last =>
    absurd (t.gap.blank _ (List.mem_of_getLast? last)) (by decide)
  have attributes : (t.attributes.flatMap Attribute.written).getLast? ≠ some '/' := by
    rcases List.eq_nil_or_concat t.attributes with none_ | ⟨front, a, listed⟩
    · simp [none_]
    · have isQuote := a.quoted
      simp only [List.mem_cons, List.not_mem_nil, or_false] at isQuote
      rcases isQuote with same | same <;>
        simp [listed, Attribute.written, Attribute.body, same, List.getLast?_append, List.getLast?_cons]
  have name := t.name.getLast_ne (c := '/') (by decide)
  rw [written, List.getLast?_append, List.getLast?_append]
  cases first : t.gap.chars.getLast? with
  | some c => simpa [first] using gap
  | none =>
    cases second : (t.attributes.flatMap Attribute.written).getLast? with
    | some c => simpa [second] using attributes
    | none => simpa using name

theorem markup?_opening (rest : List Char) :
    markup? (t.written ++ '>' :: rest) = some (some (.opening t.written), rest) := by
  have first {c : Char} (special : c ∈ ['<', '>', '/', '=', '!', '?', '"', '\'']) :
      t.written.head? ≠ some c := by simpa using t.head_ne special []
  rw [markup?_tag (first (by decide)) (first (by decide)) t.unclosed,
    markOf_opening (first (by decide)) t.getLast_ne]

theorem markup?_leaf (rest : List Char) :
    markup? (t.written ++ '/' :: '>' :: rest) = some (some (.leaf t.written), rest) := by
  have unclosed : Unclosed (t.written ++ ['/']) := t.unclosed.append (.char (by decide))
  have whole : t.written ++ '/' :: '>' :: rest = t.written ++ ['/'] ++ '>' :: rest := by simp
  rw [whole, markup?_tag (t.head_ne (by decide) _) (t.head_ne (by decide) _) unclosed,
    markOf_leaf (t.head_ne (by decide) _)]

end Tag

/-- Blanks behind the name are not kept of a tag that closes. -/
theorem markup?_closing (n : Name) (g : Gap) (rest : List Char) :
    markup? ('/' :: n.chars ++ g.chars ++ '>' :: rest) =
      some (some (.closing n.chars), rest) := by
  have unclosed : Unclosed ('/' :: n.chars ++ g.chars) :=
    ((Unclosed.char (by decide)).append n.unclosed).append g.unclosed
  have name : ((n.chars ++ g.chars).reverse.dropWhile isBlank).reverse = n.chars := by
    have blank : ∀ c ∈ g.chars.reverse, isBlank c = true := fun c member =>
      g.blank c (List.mem_reverse.mp member)
    have ends : ∀ c ∈ n.chars.reverse.head?, isBlank c = false := by
      intro c last
      rw [List.head?_reverse] at last
      exact (n.plain c (List.mem_of_getLast? last)).1
    rw [List.reverse_append, dropWhile_run blank ends, List.reverse_reverse]
  rw [markup?_tag (by simp) (by simp) unclosed, List.cons_append, markOf]
  simp only [name]

/-! Other markup. -/

/-- What ends a part like a tag is found where it stands first. -/
private theorem splitAt?_end (finish : String) (mark : List Char) {before : List Char}
    (spelled : finish.toList = mark ++ ['>']) (once : '>' ∉ mark)
    (closed : ¬ finish.toList <:+: before) (rest : List Char) :
    splitAt? finish.toList (before ++ (finish.toList ++ rest)) = some (before, rest) := by
  rw [spelled] at closed ⊢
  rw [List.append_assoc, List.singleton_append]
  exact splitAt?_mark once closed rest

/-- A literal section goes up to its closing mark. -/
theorem markup?_section (text : List Char) : markup? ("![CDATA[".toList ++ text) =
    (splitAt? "]]>".toList text).map fun (content, after) => (some (.literal content), after) := by
  have start := afterStart?_append "![CDATA[".toList text
  have equation : markup? ("![CDATA[".toList ++ text) =
      (afterStart? "![CDATA[".toList ("![CDATA[".toList ++ text)).bind fun inside =>
        (splitAt? "]]>".toList inside).bind fun (content, after) =>
          some (some (.literal content), after) := rfl
  rw [equation, start, Option.bind_some, Option.map_eq_bind]
  rfl

theorem markup?_literal (s : Literal) (rest : List Char) :
    markup? ("![CDATA[".toList ++ s.chars ++ "]]>".toList ++ rest) =
      some (some (.literal s.chars), rest) := by
  rw [List.append_assoc, List.append_assoc, markup?_section,
    splitAt?_end "]]>" [']', ']'] rfl (by decide) s.closed rest, Option.map_some]

/-- A bracket in a declaration closes the one that was opened last in it. -/
theorem declaration?_paired (paired : Paired part) (depth : Nat) (rest : List Char) :
    declaration? depth (part ++ rest) =
      (declaration? depth rest).map fun (inside, after) => (part ++ inside, after) := by
  induction paired generalizing depth rest with
  | nil => simp
  | @char c part plain _ ih =>
    simp only [List.mem_cons, List.not_mem_nil, or_false, not_or] at plain
    obtain ⟨opens, closes⟩ := plain
    simp [declaration?, opens, closes, ih, Function.comp_def]
  | @nested inside part _ _ within ih =>
    simp [declaration?, within, ih, Function.comp_def]

private theorem all_isBlank_toLower (blank : (part.map Char.toLower).all isBlank = true) :
    part.all isBlank = true := by
  simp only [List.all_eq_true, List.mem_map, forall_exists_index, and_imp,
    forall_apply_eq_imp_iff₂] at blank ⊢
  intro c member
  have lower := blank c member
  simp only [isBlank, Bool.or_eq_true, beq_iff_eq] at lower ⊢
  rcases lower with ((lower | lower) | lower) | lower <;>
    simp [eq_of_toLower (by decide) lower]

/-- Nothing is left of what stands beside the content. -/
theorem Aside.markup?_written (a : Aside) : ∃ part, a.written = '<' :: part ∧
    ∀ rest, markup? (part ++ rest) = some (none, rest) := by
  cases a with
  | comment content closed =>
    refine ⟨'!' :: '-' :: '-' :: (content ++ "-->".toList), rfl, fun rest => ?_⟩
    have split_ := splitAt?_end "-->" ['-', '-'] rfl (by decide) closed rest
    rw [← List.append_assoc] at split_
    simp only [List.cons_append, markup?, afterComment?, afterStart?, beq_self_eq_true, if_true,
      Option.bind_eq_bind, Option.bind_some, split_]
    rfl
  | instruction content closed =>
    refine ⟨'?' :: (content ++ "?>".toList), rfl, fun rest => ?_⟩
    have split_ := splitAt?_end "?>" ['?'] rfl (by decide) closed rest
    rw [← List.append_assoc, List.cons_append, List.cons_append] at split_
    simp only [List.cons_append, markup?, afterInstruction?, split_]
    rfl
  | declaration content some_ paired =>
    refine ⟨'!' :: 'D' :: ("OCTYPE".toList ++ content ++ ['>']), rfl, fun rest => ?_⟩
    have letters : Paired ("DOCTYPE".toList ++ content) := by
      repeat' apply Paired.char (by decide)
      exact paired
    have taken : declaration? 0 ("DOCTYPE".toList ++ content ++ '>' :: rest) =
        some ("DOCTYPE".toList ++ content, rest) := by
      rw [declaration?_paired letters]
      simp [declaration?]
    have named := afterStart?_append "doctype".toList (content.map Char.toLower)
    have lower : ("DOCTYPE".toList ++ content).map Char.toLower =
        "doctype".toList ++ content.map Char.toLower := by
      rw [List.map_append]
      rfl
    have solid : (content.map Char.toLower).all isBlank = false := by
      rw [Bool.eq_false_iff]
      exact fun blank => absurd ((all_isBlank_toLower blank).symm.trans some_) (by decide)
    have whole : 'D' :: ("OCTYPE".toList ++ content ++ ['>'] ++ rest) =
        "DOCTYPE".toList ++ content ++ '>' :: rest := by simp
    have after : afterDeclaration? ("DOCTYPE".toList ++ content ++ '>' :: rest) = some rest := by
      rw [afterDeclaration?, taken]
      simp only [Option.bind_eq_bind, Option.bind_some, lower, named, solid]
      rfl
    have opens (text : List Char) : markup? ('!' :: 'D' :: text) =
        (afterDeclaration? ('D' :: text)).map fun after => (none, after) := rfl
    rw [List.cons_append, List.cons_append, opens, whole, after]
    rfl

/-! Runs. -/

/-- Whether a text is read up to what follows: which marks it leaves, and which elements are open
before and after. Each step takes a character at least, so there are steps left for what follows. -/
def Reads (outer : List (List Char)) (text : List Char) (marks : List Mark)
    (outer' : List (List Char)) (rest : List Char) : Prop :=
  ∀ budget, text.length ≤ budget → ∃ budget', rest.length ≤ budget' ∧
    marksWithin? budget outer text = (marksWithin? budget' outer' rest).map (marks ++ ·)

namespace Reads
variable {marks marks' : List Mark} {ended : List (List Char)}

theorem refl (outer : List (List Char)) (text : List Char) : Reads outer text [] outer text :=
  fun budget enough => ⟨budget, enough, by simp⟩

theorem trans (first : Reads outer text marks outer' rest)
    (second : Reads outer' rest marks' ended after) :
    Reads outer text (marks ++ marks') ended after := by
  intro budget enough
  obtain ⟨middle, enough, read⟩ := first budget enough
  obtain ⟨last, enough, read'⟩ := second middle enough
  refine ⟨last, enough, ?_⟩
  rw [read, read', Option.map_map]
  simp [Function.comp_def]

theorem step (shorter : rest.length < text.length)
    (read : ∀ budget, marksWithin? (budget + 1) outer text =
      (marksWithin? budget outer' rest).map (marks ++ ·)) : Reads outer text marks outer' rest := by
  intro budget enough
  cases budget with
  | zero => omega
  | succ budget => exact ⟨budget, by omega, read budget⟩

/-- Markup that leaves a mark. -/
theorem mark {m : Mark} (found : markup? (part ++ rest) = some (some m, rest))
    (opens : openAfter? outer m = some outer') :
    Reads outer ('<' :: (part ++ rest)) [m] outer' rest := by
  refine step (Nat.lt_succ_of_le (List.suffix_append part rest).length_le) fun budget => ?_
  rw [marksWithin?, found]
  simp only [Option.bind_eq_bind, Option.bind_some, opens]
  cases marksWithin? budget outer' rest <;> rfl

/-- Markup that leaves none. -/
theorem skip (found : markup? (part ++ rest) = some (none, rest)) :
    Reads outer ('<' :: (part ++ rest)) [] outer rest := by
  refine step (Nat.lt_succ_of_le (List.suffix_append part rest).length_le) fun budget => ?_
  rw [marksWithin?, found]
  simp

/-- A text goes on until a bracket opens. -/
theorem plain (t : Plain) (ends : ∀ c ∈ rest.head?, c = '<') :
    Reads outer (t.chars ++ rest) t.marks outer rest := by
  cases spelled : t.chars with
  | nil =>
    have none_ : t.marks = [] := by simp [Plain.marks, spelled]
    rw [none_]
    exact refl outer rest
  | cons c chars =>
    have some_ : t.marks = [.text t.chars] := by simp [Plain.marks, spelled]
    have inside : ∀ d ∈ t.chars, (d != '<') = true := fun d member => by
      simp only [bne_iff_ne]
      rintro rfl
      exact t.absent member
    have stops : ∀ d ∈ rest.head?, (d != '<') = false := fun d first => by simp [ends d first]
    have other : c ≠ '<' := by simpa using inside c (spelled ▸ List.mem_cons_self)
    have taken := takeWhile_run inside stops
    have left := dropWhile_run inside stops
    rw [spelled, List.cons_append] at taken left
    refine step (Nat.lt_succ_of_le (List.suffix_append chars rest).length_le) fun budget => ?_
    rw [some_, List.cons_append, marksWithin?, taken, left, spelled]
    · rfl
    · simp
    · intro _ same
      exact other (List.cons.inj same).1

end Reads

/-- **The marks of content are read as it is written**, up to a bracket that opens or to the end. -/
theorem Content.reads (c : Content) (outer : List (List Char)) {rest : List Char}
    (ends : ∀ c ∈ rest.head?, c = '<') :
    Reads outer (c.written ++ rest) c.marks outer rest := by
  have bracket (text : List Char) : ∀ c ∈ ('<' :: text).head?, c = '<' := by
    rintro c ⟨⟩
    rfl
  induction c generalizing outer rest with
  | text front => exact .plain front ends
  | aside front a behind ih =>
    obtain ⟨part, spelled, found⟩ := a.markup?_written
    have whole : (aside front a behind).written ++ rest =
        front.chars ++ '<' :: (part ++ (behind.written ++ rest)) := by
      simp [written, render, spelled]
    rw [whole]
    exact (Reads.plain front (bracket _)).trans ((Reads.skip (found _)).trans (ih outer ends))
  | literal front s behind ih =>
    have whole : (literal front s behind).written ++ rest = front.chars ++
        '<' :: ("![CDATA[".toList ++ s.chars ++ "]]>".toList ++ (behind.written ++ rest)) := by
      simp [written, render]
    rw [whole]
    exact (Reads.plain front (bracket _)).trans
      ((Reads.mark (markup?_literal s _) rfl).trans (ih outer ends))
  | leaf front tag behind ih =>
    have whole : (leaf front tag behind).written ++ rest = front.chars ++
        '<' :: (tag.written ++ ['/', '>'] ++ (behind.written ++ rest)) := by
      simp [written, render]
    have found := tag.markup?_leaf (behind.written ++ rest)
    rw [whole]
    exact (Reads.plain front (bracket _)).trans
      ((Reads.mark (by simpa using found) rfl).trans (ih outer ends))
  | element front tag inside gap behind ihInside ihBehind =>
    let closing := '/' :: tag.name.chars ++ gap.chars ++ ['>']
    have whole : (element front tag inside gap behind).written ++ rest = front.chars ++
        '<' :: (tag.written ++ ['>'] ++ (inside.written ++
          '<' :: (closing ++ (behind.written ++ rest)))) := by
      simp [written, render, closing]
    have opens := tag.markup?_opening (inside.written ++ '<' :: (closing ++ (behind.written ++ rest)))
    have closes : markup? (closing ++ (behind.written ++ rest)) =
        some (some (.closing tag.name.chars), behind.written ++ rest) := by
      simpa [closing] using markup?_closing tag.name gap (behind.written ++ rest)
    have opened : openAfter? outer (.opening tag.written) = some (tag.name.chars :: outer) := by
      rw [openAfter?, tag.tagName_written]
    have closed : openAfter? (tag.name.chars :: outer) (.closing tag.name.chars) = some outer := by
      simp [openAfter?]
    rw [whole]
    exact (Reads.plain front (bracket _)).trans ((Reads.mark (by simpa using opens) opened).trans
      ((ihInside _ (bracket _)).trans ((Reads.mark closes closed).trans (ihBehind outer ends))))

/-- A document is read as its marks. -/
theorem marks?_written (d : Document) : marks? d.written = some d.content.marks := by
  have start : (if d.written.head? == some '\ufeff' then d.written.drop 1 else d.written) =
      d.content.written := by
    cases marked : d.marked with
    | true => simp [Document.written, marked]
    | false => simpa [Document.written, marked] using fun first => absurd first (d.unmarked marked)
  rw [marks?, start]
  have ends : ∀ c ∈ ([] : List Char).head?, c = '<' := by simp
  obtain ⟨budget, _, read⟩ := d.content.reads [] ends d.content.written.length (by simp)
  rw [List.append_nil] at read
  rw [read, marksWithin?, Option.map_some, List.append_nil]

end TableAccess.Markup
