import TableAccess.Proofs.Template.Entities
import TableAccess.Proofs.Template.Unmarked

/-! Sections of literal text. What stands in a section is escaped before any element is looked for,
so no pass finds something in it that opens a tag, and what was escaped is written again at the end.
Only comments are taken away before, and they alone could be found in a section. -/
namespace TableAccess.Template
open TableAccess.Text

variable {part inside text rest mark : List Char} {a b c : Char} {start finish : String}

/-- A mark at the start of a text ends before a character that is not in it. -/
theorem prefix_of_absent (absent : c ∉ mark) (front : mark <+: part ++ c :: rest) :
    mark <+: part := by
  induction mark generalizing part with
  | nil => exact List.nil_prefix
  | cons d mark ih =>
    obtain ⟨other, absent⟩ := not_or.mp (mt List.mem_cons.mpr absent)
    cases part with
    | nil => exact absurd (List.cons_prefix_cons.mp front).1.symm other
    | cons e part =>
      obtain ⟨same, front⟩ := List.cons_prefix_cons.mp front
      exact List.cons_prefix_cons.mpr ⟨same, ih absent front⟩

/-- What starts with a mark is not found in a part without the mark, if a character follows that is
not in it. -/
theorem misses_between (ends : c ∉ start.toList) (absent : ¬ start.toList <:+: part) :
    (between start finish).Misses (part ++ [c]) := by
  have closed {part rest : List Char} (absent : ¬ start.toList <:+: part) :
      between start finish (part ++ c :: rest) = none := by
    rw [Option.eq_none_iff_forall_ne_some]
    intro found taken
    simp only [between, Option.bind_eq_bind, Option.bind_eq_some_iff] at taken
    obtain ⟨behind, opened, _⟩ := taken
    exact absent (prefix_of_absent ends ⟨behind, (of_afterStart? opened).symm⟩).isInfix
  induction part with
  | nil => exact ⟨fun _ => closed absent, trivial⟩
  | cons d part ih =>
    refine ⟨fun rest => ?_, ih fun found => absent (found.trans (List.suffix_cons d part).isInfix)⟩
    have whole : d :: (part ++ [c]) ++ rest = d :: part ++ c :: rest := by simp
    exact (congrArg (between start finish) whole).trans (closed absent)

/-- What stands between two marks is found, up to the first of the marks that end it. -/
theorem between_written (closes : finish.toList = mark ++ [c]) (once : c ∉ mark)
    (absent : ¬ finish.toList <:+: inside) (rest : List Char) :
    between start finish (start.toList ++ (inside ++ (finish.toList ++ rest))) =
      some (inside, rest) := by
  rw [closes] at absent
  have split_ := splitAt?_mark once absent rest
  simp [between, afterStart?_append, closes, split_]

/-! What escaping leaves together. -/

/-- A character is escaped by itself, and to itself or to an entity. -/
private theorem escape_cons (c : Char) (text : List Char) :
    escape (c :: text) = c :: escape text ∨
      ∃ name, escape (c :: text) = '&' :: name ++ escape text ∧
        '&' :: name ⊆ "&amp;ltg".toList := by
  by_cases ampersand : c = '&'
  · exact .inr ⟨"amp;".toList, by rw [ampersand]; rfl, by decide⟩
  by_cases less : c = '<'
  · exact .inr ⟨"lt;".toList, by rw [less]; rfl, by decide⟩
  by_cases greater : c = '>'
  · exact .inr ⟨"gt;".toList, by rw [greater]; rfl, by decide⟩
  exact .inl (escape.eq_5 _ _ ampersand less greater)

private theorem head_of_escape (plain : b ≠ '&') (front : [b] <+: part ++ (escape text ++ rest)) :
    [b] <+: part ++ (text ++ rest) := by
  cases part with
  | cons c part =>
    exact List.cons_prefix_cons.mpr ⟨(List.cons_prefix_cons.mp front).1, List.nil_prefix⟩
  | nil =>
    cases text with
    | nil => exact front
    | cons c text =>
      rcases escape_cons c text with same | ⟨name, same, _⟩
      · rw [same] at front
        exact List.cons_prefix_cons.mpr ⟨(List.cons_prefix_cons.mp front).1, List.nil_prefix⟩
      · rw [same] at front
        exact absurd (List.cons_prefix_cons.mp front).1 plain

/-- Escaping a part of a text puts no two characters beside each other that are not in an entity. -/
theorem infix_of_infix_escape (plain : a ∉ "&amp;ltg".toList) (plain' : b ≠ '&')
    (found : [a, b] <:+: part ++ (escape text ++ rest)) : [a, b] <:+: part ++ (text ++ rest) := by
  induction part with
  | cons c part ih =>
    rcases List.infix_cons_iff.mp found with front | behind
    · obtain ⟨same, second⟩ := List.cons_prefix_cons.mp front
      exact (List.cons_prefix_cons.mpr ⟨same, head_of_escape plain' second⟩).isInfix
    · exact (ih behind).trans (List.suffix_cons c _).isInfix
  | nil =>
    induction text with
    | nil => exact found
    | cons c text ih =>
      have later (found : [a, b] <:+: escape text ++ rest) : [a, b] <:+: c :: text ++ rest :=
        (ih found).trans (List.suffix_cons c (text ++ rest)).isInfix
      rcases escape_cons c text with same | ⟨name, same, entity⟩
      · rw [same] at found
        rcases List.infix_cons_iff.mp found with front | behind
        · obtain ⟨same, second⟩ := List.cons_prefix_cons.mp front
          have second : [b] <+: [] ++ (escape text ++ rest) := second
          exact (List.cons_prefix_cons.mpr ⟨same, head_of_escape plain' second⟩).isInfix
        · exact later behind
      · rw [same, List.nil_append, List.append_assoc] at found
        have absent : a ∉ '&' :: name := fun member => plain (entity member)
        exact later (infix_of_infix_behind absent found)

/-! Sections. -/

/-- A section as it is written. -/
def literal (inside : List Char) : List Char :=
  "<![CDATA[".toList ++ (inside ++ "]]>".toList)

section Literal
variable {before after : List Char}

private theorem opensWith_comment : (between "<!--" "-->").OpensWith '<' := opensWith_between rfl

private theorem opensWith_literal : (between "<![CDATA[" "]]>").OpensWith '<' := opensWith_between rfl

/-- No comment starts in a section without one, nor with its marks. -/
private theorem misses_comment (uncommented : ¬ "<!--".toList <:+: inside) (plain : '<' ∉ after) :
    (between "<!--" "-->").Misses (literal inside ++ after) := by
  have front : "<![CDATA[".toList = '<' :: "![CDATA[".toList := by decide
  have back : "]]>".toList = [']', ']', '>'] := by decide
  have opened : (between "<!--" "-->").Misses ('<' :: "![CDATA[".toList) :=
    ⟨fun _ => rfl, .of_absent opensWith_comment (by decide)⟩
  have ended : (between "<!--" "-->").Misses (inside ++ [']']) := misses_between (by decide) uncommented
  have behind : (between "<!--" "-->").Misses (']' :: '>' :: after) :=
    .of_absent opensWith_comment (by simpa using plain)
  have whole : literal inside ++ after =
      '<' :: "![CDATA[".toList ++ (inside ++ [']'] ++ ']' :: '>' :: after) := by
    unfold literal
    rw [front, back]
    simp only [List.append_assoc, List.cons_append, List.nil_append]
  rw [whole]
  exact opened.append (ended.append behind)

/-- A section is taken as a whole. -/
private theorem between_literal (unclosed : ¬ "]]>".toList <:+: inside) (after : List Char) :
    between "<![CDATA[" "]]>" (literal inside ++ after) = some (inside, after) := by
  have closes : "]]>".toList = [']', ']'] ++ ['>'] := by decide
  unfold literal
  rw [List.append_assoc, List.append_assoc]
  exact between_written closes (by decide) unclosed after

private theorem literal_ne_nil : literal inside ≠ [] := by
  unfold literal
  exact List.append_ne_nil_of_left_ne_nil (by decide) _

/-- A section is escaped, and no other pass that is about elements does something. -/
theorem flatten_literal (plain : '<' ∉ before) (plain' : '<' ∉ after)
    (unclosed : ¬ "]]>".toList <:+: inside) (uncommented : ¬ "<!--".toList <:+: inside) :
    flatten (before ++ (literal inside ++ after)) = before ++ (escape inside ++ after) := by
  have choices := opensWith_element opensWith_choiceOpening ["choose"]
  have loops := opensWith_element (opensWith_opening true ["foreach"]) ["foreach"]
  have conditions := opensWith_tagOf ["if", "when", "otherwise", "include", "bind", "property"]
  have uncommented := (Pattern.Misses.of_absent opensWith_comment plain).append
    (misses_comment uncommented plain')
  have absent : '<' ∉ before ++ (escape inside ++ after) :=
    List.not_mem_append plain (List.not_mem_append (absent_escape inside) plain')
  unfold flatten
  dsimp only
  rw [uncommented.replace_self, replace_append opensWith_literal plain,
    replace_of_nonempty literal_ne_nil (between_literal unclosed after),
    replace_of_absent opensWith_literal plain', replace_of_absent choices absent,
    replace_of_absent loops absent, replace_of_absent conditions absent,
    writeClauses_of_absent absent, replace_of_absent opensWith_anyTag absent]

end Literal

/-- **A section is its text.** Whatever stands in a section, in front of it and behind it, the statement
has it as it is, up to blanks, as long as no parameter or substitution begins in it. -/
theorem fill_literal (form : Placeholder) {before inside after : String}
    (brackets : '<' ∉ (before ++ after).toList) (entities : '&' ∉ (before ++ after).toList)
    (unclosed : ¬ "]]>".toList <:+: inside.toList) (uncommented : ¬ "<!--".toList <:+: inside.toList)
    (parameters : ¬ ['#', '\x7b'] <:+: (before ++ inside ++ after).toList)
    (substitutions : ¬ ['$', '\x7b'] <:+: (before ++ inside ++ after).toList) :
    fill form (before ++ "<![CDATA[" ++ inside ++ "]]>" ++ after) =
        ⟨String.ofList (words (before ++ inside ++ after).toList), [], []⟩ ∧
      ∀ text, unescape (escape text) = text := by
  rw [String.toList_append, List.mem_append, not_or] at brackets entities
  have written : (before ++ "<![CDATA[" ++ inside ++ "]]>" ++ after).toList =
      before.toList ++ (literal inside.toList ++ after.toList) := by
    unfold literal
    simp only [String.toList_append, List.append_assoc]
  have text : (before ++ inside ++ after).toList =
      before.toList ++ (inside.toList ++ after.toList) := by
    simp only [String.toList_append, List.append_assoc]
  have restored : unescape (before.toList ++ (escape inside.toList ++ after.toList)) =
      before.toList ++ (inside.toList ++ after.toList) := by
    rw [unescape_append entities.1, unescape_escape, unescape_of_absent entities.2]
  have kept {a : Char} (plain : a ∉ "&amp;ltg".toList)
      (part : [a, '\x7b'] <:+: before.toList ++ (escape inside.toList ++ after.toList)) :
      [a, '\x7b'] <:+: (before ++ inside ++ after).toList :=
    text ▸ infix_of_infix_escape plain (by decide) part
  rw [fill_eq, written, flatten_literal brackets.1 brackets.2 unclosed uncommented]
  refine ⟨?_, fun text => ?_⟩
  · rw [finish_of_absent form (mt (kept (by decide)) parameters)
      (mt (kept (by decide)) substitutions), restored, text]
  · have whole := unescape_escape text []
    simpa [unescape] using whole

/-- Neither what reads as an element in a section nor what reads as an entity is taken for one. -/
theorem fill_literal_marked :
    fill .mark ("SELECT a FROM t WHERE " ++ "<![CDATA[" ++
        "b < 1\n <if test=\"c\">AND d = '&lt;]]'</if>" ++ "]]>" ++ " AND e > 2") =
      ⟨"SELECT a FROM t WHERE b < 1 <if test=\"c\">AND d = '&lt;]]'</if> AND e > 2", [], []⟩ :=
  (fill_literal .mark (by decide) (by decide) (by decide) (by decide) (by decide +kernel)
    (by decide +kernel)).1.trans (by decide)

end TableAccess.Template
