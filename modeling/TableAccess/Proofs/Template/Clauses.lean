import TableAccess.Template.Clause
import TableAccess.Proofs.Template.Scanning
import Mathlib.Algebra.Order.BigOperators.Group.List

/-! What an element that stands for a clause writes is shorter than the element. Its body only loses
characters, and the texts that it adds are the values of two of its attributes; its tags are longer
than the keyword and the blanks. So each round of writing shortens the text, and the test that the
rounds make before they go on never fails. -/
namespace TableAccess.Template
open TableAccess.Text

variable {text rest body attributes written inside after : List Char} {name : String}
  {names : List String}

theorem exists_of_map_cons {found : Option (List Char × List Char)} {c : Char}
    (longer : found.map (fun (inside, after) => (c :: inside, after)) = some (inside, after)) :
    ∃ rest, inside = c :: rest ∧ found = some (rest, after) := by
  obtain ⟨⟨rest, after⟩, found, same⟩ := Option.map_eq_some_iff.mp longer
  obtain ⟨rfl, rfl⟩ := Prod.mk.inj same
  exact ⟨rest, rfl, found⟩

/-- A tag ends at its bracket. -/
theorem of_tagRest? {slashAllowed : Bool} {quote : Option Char}
    (found : tagRest? slashAllowed quote text = some (inside, after)) :
    text = inside ++ '>' :: after := by
  induction text generalizing quote inside with
  | nil => cases quote <;> cases found
  | cons c text ih =>
    cases quote with
    | some q =>
      obtain ⟨rest, rfl, later⟩ := exists_of_map_cons found
      rw [ih later, List.cons_append]
    | none =>
      rw [tagRest?] at found
      split at found
      · next bracket =>
        obtain ⟨rfl, rfl⟩ := Prod.mk.inj (Option.some.inj found)
        rw [beq_iff_eq.mp bracket, List.nil_append]
      · split at found
        · cases found
        · obtain ⟨rest, rfl, later⟩ := exists_of_map_cons found
          rw [ih later, List.cons_append]

theorem of_someWord? (found : someWord? names text = some (name, rest)) :
    name ∈ names ∧ text = name.toList ++ rest ∧ endsWord rest = true := by
  obtain ⟨word, listed, taken⟩ := List.exists_of_findSome?_eq_some found
  split at taken
  · next rest' start =>
    split at taken
    · next ends =>
      obtain ⟨rfl, rfl⟩ := Prod.mk.inj (Option.some.inj taken)
      exact ⟨listed, of_afterStart? start, ends⟩
    · cases taken
  · cases taken

/-- What an opening tag is made of. -/
theorem of_opening {slashAllowed : Bool}
    (found : opening slashAllowed names text = some ((name, attributes), after)) :
    name ∈ names ∧ text = '<' :: name.toList ++ attributes ++ '>' :: after := by
  simp only [opening, Option.bind_eq_bind, Option.bind_eq_some_iff] at found
  obtain ⟨rest, start, ⟨word, rest'⟩, taken, ⟨inside, rest''⟩, closed, same⟩ := found
  cases same
  obtain ⟨listed, rfl, _⟩ := of_someWord? taken
  refine ⟨listed, ?_⟩
  rw [of_afterStart? start, show rest' = _ from of_tagRest? closed]
  simp

theorem trimStart_sublist (text : List Char) : (trimStart text).Sublist text :=
  List.dropWhile_sublist _

theorem trim_sublist (text : List Char) : (trim text).Sublist text := by
  have front := List.reverse_sublist.mpr (trimStart_sublist (trimStart text).reverse)
  rw [List.reverse_reverse] at front
  exact front.trans (trimStart_sublist text)

/-- A closing tag has its brackets, a slash and a name. -/
theorem length_closing {v : Unit} (found : closing names text = some (v, after)) :
    ∃ name ∈ names, 3 + name.toList.length + after.length ≤ text.length := by
  simp only [closing, Option.bind_eq_bind, Option.bind_eq_some_iff] at found
  obtain ⟨rest, start, rest', some_, same⟩ := found
  cases same
  obtain ⟨name, listed, some_⟩ := List.exists_of_findSome?_eq_some some_
  obtain ⟨behind, named, bracket⟩ := Option.bind_eq_some_iff.mp some_
  refine ⟨name, listed, ?_⟩
  have blanks := (trimStart_sublist behind).length_le
  have start := congrArg List.length (of_afterStart? start)
  have named := congrArg List.length (of_afterStart? named)
  have bracket := congrArg List.length (of_afterStart? bracket)
  simp only [List.length_append, List.length_cons, List.length_nil] at start named bracket
  omega

/-- An attribute ends with its value and a quote. -/
theorem of_attributePattern {key value : List Char}
    (found : attributePattern text = some ((key, value), after)) :
    value ++ '"' :: after <:+ text := by
  unfold attributePattern at found
  dsimp only at found
  split at found
  · cases found
  · simp only [Option.bind_eq_bind, Option.bind_eq_some_iff] at found
    obtain ⟨rest, equals, rest', quote, ⟨value', after'⟩, closed, same⟩ := found
    cases same
    have equals : trimStart (text.dropWhile isAsciiLetter) = '=' :: rest := of_afterStart? equals
    have quote : trimStart rest = '"' :: rest' := of_afterStart? quote
    have whole : rest' = value' ++ '"' :: after' := by simpa using of_splitAt? closed
    have behindName : '=' :: rest <:+ text :=
      equals ▸ (List.dropWhile_suffix _).trans (List.dropWhile_suffix _)
    have behindEquals : '"' :: rest' <:+ rest := quote ▸ List.dropWhile_suffix _
    exact whole ▸ (List.suffix_cons '"' rest').trans
      (behindEquals.trans ((List.suffix_cons '=' rest).trans behindName))

theorem length_unescape_le (text : List Char) : (unescape text).length ≤ text.length := by
  fun_induction unescape text <;> simp only [List.length_cons, List.length_nil] at * <;> omega

/-- A text without entities stays as it is. -/
theorem unescape_of_absent (absent : '&' ∉ text) : unescape text = text := by
  fun_induction unescape text with
  | case6 c rest _ _ _ _ _ ih => rw [ih (mt (List.mem_cons_of_mem c) absent)]
  | case7 => rfl
  | _ => simp at absent

/-- The value of an attribute is what an occurrence of its name has. -/
private theorem exists_of_attribute? {value : List Char}
    (found : attribute? attributes name = some value) :
    ∃ raw, (name.toList, raw) ∈ occurrences attributePattern attributes ∧ value = unescape raw := by
  obtain ⟨⟨key, raw⟩, first, rfl⟩ := Option.map_eq_some_iff.mp found
  obtain rfl : key = name.toList := by simpa using List.find?_some first
  exact ⟨raw, List.mem_of_find?_eq_some first, rfl⟩

private theorem length_attribute_le {value : List Char}
    (found : attribute? attributes name = some value) :
    ∃ raw, (name.toList, raw) ∈ occurrences attributePattern attributes ∧
      value.length ≤ raw.length := by
  obtain ⟨raw, listed, rfl⟩ := exists_of_attribute? found
  exact ⟨raw, listed, length_unescape_le raw⟩

private theorem le_sum {items : List (List Char × List Char)} {a : List Char × List Char}
    (member : a ∈ items) : a.2.length ≤ (items.map fun x => x.2.length).sum :=
  List.single_le_sum (fun _ _ => Nat.zero_le _) _ (List.mem_map_of_mem member)

private theorem add_le_sum {items : List (List Char × List Char)} {a b : List Char × List Char}
    (first : a ∈ items) (second : b ∈ items) (different : a ≠ b) :
    a.2.length + b.2.length ≤ (items.map fun x => x.2.length).sum := by
  obtain ⟨before, after, rfl⟩ := List.append_of_mem first
  have other : b ∈ before ++ after := by simpa [Ne.symm different] using second
  have part := le_sum other
  simp only [List.map_append, List.map_cons, List.sum_append, List.sum_cons] at part ⊢
  omega

/-- The values of two attributes stand in different places. -/
theorem length_attributes_le {name other : String} (different : name ≠ other)
    (attributes : List Char) :
    ((attribute? attributes name).getD []).length + ((attribute? attributes other).getD []).length ≤
      attributes.length := by
  have together : ((occurrences attributePattern attributes).map fun a => a.2.length).sum ≤
      attributes.length := by
    refine sum_occurrences_le (fun text a after found => ?_) attributes
    have taken := (of_attributePattern found).length_le
    simp only [List.length_append, List.length_cons] at taken
    omega
  have alone {name : String} {value : List Char} (found : attribute? attributes name = some value) :
      value.length ≤ attributes.length := by
    obtain ⟨raw, listed, shorter⟩ := length_attribute_le found
    exact Nat.le_trans shorter (Nat.le_trans (le_sum listed) together)
  cases first : attribute? attributes name with
  | none =>
    cases second : attribute? attributes other with
    | none => simp
    | some value => simpa using alone second
  | some value =>
    cases second : attribute? attributes other with
    | none => simpa using alone first
    | some value' =>
      obtain ⟨raw, listed, shorter⟩ := length_attribute_le first
      obtain ⟨raw', listed', shorter'⟩ := length_attribute_le second
      have apart : (name.toList, raw) ≠ (other.toList, raw') := fun same =>
        different (String.toList_inj.mp (Prod.mk.inj same).1)
      exact Nat.le_trans (Nat.add_le_add shorter shorter')
        (Nat.le_trans (add_le_sum listed listed' apart) together)

private theorem sublist_of_afterStartFolded? {start : List Char}
    (found : afterStartFolded? start text = some rest) : rest.Sublist text := by
  unfold afterStartFolded? at found
  split at found
  · obtain rfl := Option.some.inj found
    exact List.drop_sublist _ _
  · cases found

theorem withoutConnective_sublist (body : List Char) : (withoutConnective body).Sublist body := by
  unfold withoutConnective
  cases found : ["AND", "OR"].findSome? _ with
  | none => exact List.Sublist.refl _
  | some rest =>
    obtain ⟨word, _, found⟩ := List.exists_of_findSome?_eq_some found
    split at found
    · split at found
      · obtain rfl := Option.some.inj found
        exact sublist_of_afterStartFolded? ‹_›
      · cases found
    · cases found

theorem withoutComma_sublist (body : List Char) : (withoutComma body).Sublist body := by
  unfold withoutComma
  split
  · next rest backwards =>
    have part := List.reverse_sublist.mpr (List.sublist_cons_self ',' rest)
    rwa [← backwards, List.reverse_reverse] at part
  · exact List.Sublist.refl _

theorem withoutStart_sublist (body written : List Char) :
    (withoutStart body written).Sublist body := by
  unfold withoutStart
  cases found : (overrides written).findSome? _ with
  | none => exact trim_sublist body
  | some rest =>
    obtain ⟨start, _, found⟩ := List.exists_of_findSome?_eq_some found
    exact (sublist_of_afterStartFolded? found).trans (trim_sublist body)

theorem withoutEnd_sublist (body written : List Char) : (withoutEnd body written).Sublist body := by
  unfold withoutEnd
  dsimp only
  split
  · next rest found =>
    obtain ⟨finish, _, found⟩ := List.exists_of_findSome?_eq_some found
    have part := List.reverse_sublist.mpr (sublist_of_afterStartFolded? found)
    rw [List.reverse_reverse] at part
    exact part.trans (trim_sublist body)
  · exact trim_sublist body

private theorem overridden_sublist {without : List Char → List Char → List Char}
    (shorter : ∀ body written, (without body written).Sublist body) (override : Option (List Char))
    (body : List Char) : (match override with
      | some written => without body written
      | none => body).Sublist body := by
  cases override with
  | none => exact List.Sublist.refl _
  | some written => exact shorter body written

/-- A body that states itself what it takes away and adds only adds its suffix. -/
theorem exists_trimmedBody (attributes body : List Char) : ∃ core, core.Sublist body ∧
    trimmedBody attributes body = core ++ ' ' :: (attribute? attributes "suffix").getD [] := by
  refine ⟨_, ?_, rfl⟩
  exact (overridden_sublist withoutEnd_sublist _ _).trans
    (overridden_sublist withoutStart_sublist _ _)

theorem length_keywordAndBody_le (keyword body : List Char) :
    (keywordAndBody keyword body).length ≤ keyword.length + body.length + 3 := by
  have := (trim_sublist body).length_le
  unfold keywordAndBody
  dsimp only
  split
  · simp
  · simp only [List.length_append, List.length_cons, List.length_nil]
    omega

theorem mem_keywordAndBody {keyword : List Char} {c : Char}
    (member : c ∈ keywordAndBody keyword body) : c = ' ' ∨ c ∈ keyword ∨ c ∈ body := by
  unfold keywordAndBody at member
  dsimp only at member
  split at member
  · exact .inl (List.mem_singleton.mp member)
  · simp only [List.mem_append, List.mem_cons, List.not_mem_nil, or_false] at member
    have inBody : c ∈ trim body → c ∈ body := fun part => (trim_sublist body).subset part
    tauto

/-- The keyword of a clause. -/
def keyword (name : String) (attributes : List Char) : List Char :=
  match name with
  | "where" => "WHERE".toList
  | "set" => "SET".toList
  | _ => (attribute? attributes "prefix").getD []

/-- What a clause has behind its body. -/
def suffix (name : String) (attributes : List Char) : List Char :=
  match name with
  | "where" | "set" => []
  | _ => ' ' :: (attribute? attributes "suffix").getD []

theorem keyword_trim : keyword "trim" attributes = (attribute? attributes "prefix").getD [] := rfl

theorem suffix_trim :
    suffix "trim" attributes = ' ' :: (attribute? attributes "suffix").getD [] := rfl

theorem clause_trim : clause "trim" attributes body =
    keywordAndBody (keyword "trim" attributes) (trimmedBody attributes (trim body)) := rfl

/-- A clause is its keyword, what is left of its body, and its suffix. -/
theorem exists_clause (listed : name ∈ clauseNames) (attributes body : List Char) :
    ∃ core, core.Sublist body ∧
      clause name attributes body = keywordAndBody (keyword name attributes)
        (core ++ suffix name attributes) := by
  simp only [clauseNames, List.mem_cons, List.not_mem_nil, or_false] at listed
  rcases listed with rfl | rfl | rfl
  · exact ⟨withoutConnective (trim body),
      (withoutConnective_sublist _).trans (trim_sublist body), by rw [suffix, List.append_nil]; rfl⟩
  · exact ⟨withoutComma (trim body), (withoutComma_sublist _).trans (trim_sublist body),
      by rw [suffix, List.append_nil]; rfl⟩
  · obtain ⟨core, part, whole⟩ := exists_trimmedBody attributes (trim body)
    exact ⟨core, part.trans (trim_sublist body), by rw [clause_trim, whole, suffix_trim]⟩

/-- The name and the attributes of a tag are as long as the keyword and the suffix, up to a few
characters. -/
private theorem length_keyword_suffix_le (listed : name ∈ clauseNames) (attributes : List Char) :
    (keyword name attributes).length + (suffix name attributes).length ≤
      name.toList.length + attributes.length := by
  simp only [clauseNames, List.mem_cons, List.not_mem_nil, or_false] at listed
  rcases listed with rfl | rfl | rfl
  · exact Nat.le_add_right _ _
  · exact Nat.le_add_right _ _
  · have different : "prefix" ≠ "suffix" := by decide
    have apart := length_attributes_le different attributes
    have named : "trim".toList.length = 4 := rfl
    rw [keyword_trim, suffix_trim, List.length_cons, named]
    omega

theorem length_clause_le (listed : name ∈ clauseNames) (attributes body : List Char) :
    (clause name attributes body).length ≤
      name.toList.length + attributes.length + body.length + 3 := by
  obtain ⟨core, part, whole⟩ := exists_clause listed attributes body
  have := length_keywordAndBody_le (keyword name attributes) (core ++ suffix name attributes)
  have := length_keyword_suffix_le listed attributes
  have := part.length_le
  rw [whole]
  simp only [List.length_append] at *
  omega

/-- **Writing a clause shortens the text**, whatever its attributes add. -/
theorem length_writeInnermost? {shorter : List Char}
    (innermost : writeInnermost? text = some shorter) : shorter.length < text.length := by
  simp only [writeInnermost?, Option.bind_eq_bind, Option.bind_eq_some_iff] at innermost
  obtain ⟨⟨before, ⟨name, attributes⟩, after⟩, last, innermost⟩ := innermost
  obtain ⟨behind, rfl, opens⟩ := of_lastPlace? last
  obtain ⟨listed, rfl⟩ := of_opening opens
  dsimp only at innermost
  split at innermost
  · next body v rest first =>
    obtain rfl := Option.some.inj innermost
    obtain ⟨behind, rfl, closes⟩ := of_firstPlace? first
    obtain ⟨other, _, closing⟩ := length_closing closes
    have := length_clause_le listed attributes body
    simp only [List.length_append, List.length_cons]
    omega
  · obtain rfl := Option.some.inj innermost
    simp only [List.length_append, List.length_cons]
    omega

theorem writeClauses_of_none (plain : writeInnermost? text = none) : writeClauses text = text := by
  rw [writeClauses, plain]

theorem writeClauses_of_some {shorter : List Char}
    (innermost : writeInnermost? text = some shorter) :
    writeClauses text = writeClauses shorter := by
  rw [writeClauses, innermost]
  exact if_pos (length_writeInnermost? innermost)

/-- Where nothing stands for something else, the value of an attribute is a part of what is
written. -/
theorem attribute_subset (whole : '&' ∉ attributes) (name : String) :
    (attribute? attributes name).getD [] ⊆ attributes := by
  cases found : attribute? attributes name with
  | none => exact List.nil_subset _
  | some value =>
    obtain ⟨raw, listed, rfl⟩ := exists_of_attribute? found
    obtain ⟨behind, after, part, found⟩ := exists_of_mem_occurrences listed
    have within : raw ⊆ attributes := fun c member => part.subset
      ((of_attributePattern found).subset (List.mem_append_left _ member))
    rw [Option.getD_some, unescape_of_absent (mt (@within _) whole)]
    exact within

/-- A clause opens no tag if its body and its attributes do not. -/
theorem clause_absent (listed : name ∈ clauseNames) (whole : '&' ∉ attributes)
    (outside : '<' ∉ attributes) (inside : '<' ∉ body) : '<' ∉ clause name attributes body := by
  obtain ⟨core, part, same⟩ := exists_clause listed attributes body
  have front : '<' ∉ keyword name attributes ∧ '<' ∉ suffix name attributes := by
    simp only [clauseNames, List.mem_cons, List.not_mem_nil, or_false] at listed
    rcases listed with rfl | rfl | rfl
    · exact ⟨show '<' ∉ "WHERE".toList by decide, List.not_mem_nil⟩
    · exact ⟨show '<' ∉ "SET".toList by decide, List.not_mem_nil⟩
    · have first := mt (@attribute_subset _ whole "prefix" '<') outside
      have last := mt (@attribute_subset _ whole "suffix" '<') outside
      exact ⟨first, by simpa [suffix_trim] using last⟩
  rw [same]
  intro member
  rcases mem_keywordAndBody member with blank | first | member
  · cases blank
  · exact front.1 first
  · rcases List.mem_append.mp member with middle | last
    · exact inside (part.subset middle)
    · exact front.2 last

end TableAccess.Template
