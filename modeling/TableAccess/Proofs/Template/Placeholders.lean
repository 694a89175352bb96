import TableAccess.Proofs.Template.Entities
import TableAccess.Proofs.Template.Signs

/-! The two forms of parameters. No substitution or entity begins in a sign or reaches over it, and no
blank stands in it, so each pass does to a text with marked parameters what it does to the text in
whatever form they are written, unless a substitution has a parameter in its name. So the statement is
the same in both forms, up to the signs. -/
namespace TableAccess.Template
open TableAccess.Text

variable {form : Placeholder} {next : Nat} {c : Char} {mark text : List Char} {segs front rest : Marked}

/-- Whether a substitution has a parameter in its name. -/
def EnclosesParameter (text : List Char) : Prop :=
  ∃ behind name rest, behind <:+ segments parameter text ∧ Substitutes behind name rest ∧
    ∃ v, .found v ∈ name

theorem enclosesParameter_iff : EnclosesParameter text ↔
    ∃ behind ∈ (segments parameter text).tails,
      (substitutionIn? behind).any (fun found => !(values found.1).isEmpty) = true := by
  constructor
  · rintro ⟨behind, name, rest, part, written, v, member⟩
    refine ⟨behind, (List.mem_tails _ _).mpr part, ?_⟩
    rw [substitutionIn?_eq_some_iff.mpr written, Option.any_some, Bool.not_eq_true',
      List.isEmpty_eq_false_iff]
    exact fun none_ => values_eq_nil_iff.mp none_ v member
  · rintro ⟨behind, part, found⟩
    obtain ⟨⟨name, rest⟩, found, some_⟩ := (Option.any_eq_true _ _).mp found
    have written := substitutionIn?_eq_some_iff.mp found
    refine ⟨behind, name, rest, (List.mem_tails _ _).mp part, written, ?_⟩
    by_contra absent
    have none_ := values_eq_nil_iff.mpr (not_exists.mp absent)
    simp [none_] at some_

instance (text : List Char) : Decidable (EnclosesParameter text) :=
  decidable_of_iff _ enclosesParameter_iff.symm

/-! What the passes make of parameters. -/

/-- Whether a change leaves parameters as they are: what it makes of a text has the same parameters,
in whatever form they are written. -/
def Keeps (change : List Char → List Char) (segs : Marked) : Prop :=
  ∃ changed, values changed = values segs ∧ ∀ form next,
    change (writeParameters form next segs) = writeParameters form next changed

variable {change change' : List Char → List Char}

theorem Keeps.comp (kept : Keeps change segs) (kept' : ∀ segs, Keeps change' segs) :
    Keeps (change' ∘ change) segs := by
  obtain ⟨changed, same, spelled⟩ := kept
  obtain ⟨changed', same', spelled'⟩ := kept' changed
  refine ⟨changed', same'.trans same, fun form next => ?_⟩
  rw [Function.comp_apply, spelled, spelled']

/-- A change keeps parameters if it writes something with the same parameters for a part, and then
goes on as a change that keeps them. -/
theorem Keeps.append (written : Marked) (same : values written = values front)
    (step : ∀ form next, change (writeParameters form next (front ++ rest)) =
      writeParameters form next written ++
        change' (writeParameters form (next + (values front).length) rest))
    (kept : Keeps change' rest) : Keeps change (front ++ rest) := by
  obtain ⟨changed, same', spelled⟩ := kept
  refine ⟨written ++ changed, ?_, fun form next => ?_⟩
  · rw [values_append, values_append, same, same']
  · rw [step, spelled, writeParameters_append, same]

/-- A parameter is kept by a change that goes on behind its sign. -/
theorem Keeps.found {v : List Char} (lead : List Char) (passed : ∀ form next text,
      change ((Placeholder.sign form next).toList ++ text) =
        lead ++ ((form.sign next).toList ++ change' text))
    (kept : Keeps change' segs) : Keeps change (.found v :: segs) := by
  show Keeps change ([.found v] ++ segs)
  refine Keeps.append (lead.map .plain ++ [.found v]) (by simp) (fun form next => ?_) kept
  rw [List.singleton_append, writeParameters_found, passed, writeParameters_append,
    writeParameters_map_plain, writeParameters_found]
  simp [writeParameters]

theorem Keeps.plain (written : List Char) (passed : ∀ form next,
      change (c :: writeParameters form next segs) =
        written ++ change' (writeParameters form next segs))
    (kept : Keeps change' segs) : Keeps change (.plain c :: segs) := by
  show Keeps change ([.plain c] ++ segs)
  refine Keeps.append (written.map .plain) (by simp) (fun form next => ?_) kept
  rw [writeParameters_map_plain]
  exact passed form next

private theorem Substitutes.split {name : Marked}
    (written : Substitutes segs name rest) :
    ∃ front, segs = front ++ rest ∧ front ≠ [] ∧ values front = values name := by
  obtain @⟨front, _, back, _, _, _, blank⟩ := written
  have none_ : values (front ++ back) = [] := by
    refine values_eq_nil_iff.mpr fun v member => ?_
    cases blank _ member
  rw [values_append, List.append_eq_nil_iff] at none_
  refine ⟨.plain '$' :: .plain '\x7b' :: (front ++ (name ++ (back ++ [.plain '\x7d']))), by simp,
    List.cons_ne_nil _ _, by simp [none_]⟩

/-- Substitutions without parameters in them are replaced in one way. -/
theorem keeps_replace (apart : ∀ behind, behind <:+ segs → ∀ name rest,
    Substitutes behind name rest → values name = []) :
    Keeps (replace substitution identifier) segs := by
  induction size : segs.length using Nat.strong_induction_on generalizing segs with
  | _ n ih =>
    subst size
    have later {rest : Marked} (part : rest <:+ segs)
        (shorter : rest.length < segs.length) : Keeps (replace substitution identifier) rest :=
      ih _ shorter (fun behind inside => apart behind (inside.trans part)) rfl
    cases taken : substitutionIn? segs with
    | some found =>
      obtain ⟨name, rest⟩ := found
      have written := substitutionIn?_eq_some_iff.mp taken
      have none_ := apart segs (List.suffix_refl segs) name rest written
      obtain ⟨front, rfl, some_, same⟩ := written.split
      obtain ⟨chars, rfl⟩ := exists_of_values_eq_nil none_
      obtain ⟨text, rfl⟩ := exists_of_values_eq_nil (same.trans none_)
      refine Keeps.append ((identifier chars).map .plain) (by simp) (fun form next => ?_)
        (later (List.suffix_append _ rest) ?_)
      · have found := substitution_writeParameters form next (text.map .plain ++ rest)
        rw [taken] at found
        simp only [Option.map_some, writeParameters_append, writeParameters_map_plain,
          values_map_plain, List.length_nil, Nat.add_zero] at found ⊢
        exact replace_of_nonempty (by simpa using some_) found
      · simpa [List.length_pos_iff] using some_
    | none =>
      cases segs with
      | nil => exact ⟨[], rfl, fun _ _ => rfl⟩
      | cons seg segs =>
        have kept := later (List.suffix_cons seg segs) (Nat.lt_succ_self _)
        cases seg with
        | plain c =>
          refine Keeps.plain [c] (fun form next => replace_cons_of_none ?_) kept
          have missed := substitution_writeParameters form next (.plain c :: segs)
          rwa [taken] at missed
        | found v => exact Keeps.found [] (fun form next => (misses_sign form next).replace) kept

/-- What no sign has a character of is written in a text only where its characters stand by
themselves. -/
private theorem prefix_of_writeParameters
    (absent : ∀ c ∈ mark, ∀ next, c ∉ (form.sign next).toList)
    (front : mark <+: writeParameters form next segs) : mark.map Segment.plain <+: segs := by
  induction mark generalizing segs with
  | nil => exact List.nil_prefix
  | cons c mark ih =>
    obtain ⟨own, absent⟩ := List.forall_mem_cons.mp absent
    rcases segs with _ | ⟨d | v, segs⟩
    · cases List.prefix_nil.mp front
    · obtain ⟨rfl, later⟩ := List.cons_prefix_cons.mp front
      exact List.cons_prefix_cons.mpr ⟨rfl, ih absent later⟩
    · obtain ⟨d, behind, spelled, _⟩ := exists_sign form next
      rw [writeParameters_found, spelled] at front
      have same := (List.cons_prefix_cons.mp front).1
      exact absurd (spelled ▸ same ▸ List.mem_cons_self) (own next)

theorem keeps_unescape (segs : Marked) : Keeps unescape segs := by
  have solid : ∀ entity ∈ namedEntities, ∀ c ∈ entity.1,
      ¬ (c = '?' ∨ c = '$' ∨ c.isDigit = true) := by simp [namedEntities]
  induction size : segs.length using Nat.strong_induction_on generalizing segs with
  | _ n ih =>
    subst size
    by_cases some_ : ∃ entity ∈ namedEntities, entity.1.map Segment.plain <+: segs
    · obtain ⟨entity, listed, rest, rfl⟩ := some_
      refine Keeps.append [.plain entity.2] (by simp) (fun form next => ?_)
        (ih _ ?_ rest rfl)
      · rw [writeParameters_append, writeParameters_map_plain, unescape_entity listed]
        rfl
      · obtain ⟨behind, spelled⟩ := List.head?_eq_some_iff.mp (head?_entity listed)
        simp only [spelled, List.map_cons, List.cons_append, List.length_cons, List.length_append]
        omega
    · rcases segs with _ | ⟨c | v, segs⟩
      · exact ⟨[], rfl, fun _ _ => rfl⟩
      · refine Keeps.plain [c] (fun form next => ?_) (ih _ (Nat.lt_succ_self _) segs rfl)
        refine unescape_cons fun entity listed front => some_ ⟨entity, listed, ?_⟩
        exact prefix_of_writeParameters
          (fun c member _ => mt mem_sign (solid entity listed c member)) front
      · refine Keeps.found [] (fun form next => ?_) (ih _ (Nat.lt_succ_self _) segs rfl)
        exact unescape_append (mt mem_sign (by decide))

private theorem squeeze_word (solid : ∀ c ∈ mark, isBlank c = false) (text : List Char) :
    squeeze false (mark ++ text) = mark ++ squeeze false text := by
  induction mark with
  | nil => rfl
  | cons c mark ih =>
    obtain ⟨first, solid⟩ := List.forall_mem_cons.mp solid
    rw [List.cons_append, squeeze_cons first, ih solid]
    rfl

private theorem squeeze_sign (pending : Bool) (form : Placeholder) (next : Nat) (text : List Char) :
    squeeze pending ((form.sign next).toList ++ text) =
      (if pending then [' '] else []) ++ ((form.sign next).toList ++ squeeze false text) := by
  have solid : ∀ c ∈ (form.sign next).toList, isBlank c = false := fun _ => solid_sign
  obtain ⟨c, behind, spelled, _⟩ := exists_sign form next
  rw [spelled] at solid ⊢
  obtain ⟨first, solid⟩ := List.forall_mem_cons.mp solid
  rw [List.cons_append, squeeze_cons first, squeeze_word solid]
  cases pending <;> rfl

theorem keeps_squeeze (pending : Bool) (segs : Marked) :
    Keeps (squeeze pending) segs := by
  induction segs generalizing pending with
  | nil => exact ⟨[], rfl, fun _ _ => rfl⟩
  | cons seg segs ih =>
    cases seg with
    | found v => exact Keeps.found _ (squeeze_sign pending) (ih false)
    | plain c =>
      cases blank : isBlank c with
      | true =>
        refine Keeps.plain [] (fun form next => ?_) (ih true)
        rw [squeeze, if_pos blank]
        rfl
      | false => exact Keeps.plain _ (fun form next => squeeze_cons blank _) (ih false)

theorem keeps_trimStart (segs : Marked) : Keeps trimStart segs := by
  refine ⟨segs.dropWhile isBlankSegment, ?_, fun form next =>
    trimStart_writeParameters form next segs⟩
  conv_rhs => rw [← List.takeWhile_append_dropWhile (p := isBlankSegment) (l := segs)]
  rw [values_append, values_takeWhile_blank, List.nil_append]

theorem keeps_words (segs : Marked) : Keeps words segs :=
  (keeps_trimStart segs).comp (keeps_squeeze false)

/-! A statement as the pieces between its parameters. -/

/-- Some pieces with a sign between each two; the first sign is that of number `next`. -/
def joined (sign : Nat → String) (next : Nat) (first : String) : List String → String
  | [] => first
  | piece :: later => first ++ sign next ++ joined sign (next + 1) piece later

private theorem joined_append (sign : Nat → String) (next : Nat) (front first : String)
    (later : List String) :
    joined sign next (front ++ first) later = front ++ joined sign next first later := by
  cases later with
  | nil => rfl
  | cons piece later => simp only [joined, String.append_assoc]

theorem exists_joined (segs : Marked) :
    ∃ first later, later.length = (values segs).length ∧ ∀ form next,
      String.ofList (writeParameters form next segs) = joined form.sign next first later := by
  induction segs with
  | nil => exact ⟨"", [], rfl, fun _ _ => rfl⟩
  | cons seg segs ih =>
    obtain ⟨first, later, counted, spelled⟩ := ih
    cases seg with
    | plain c =>
      refine ⟨String.singleton c ++ first, later, counted, fun form next => ?_⟩
      rw [joined_append, ← spelled, ← String.toList_inj]
      simp [writeParameters]
    | found v =>
      refine ⟨"", first :: later, congrArg (· + 1) counted, fun form next => ?_⟩
      rw [joined, ← spelled, writeParameters_found, ← String.toList_inj]
      simp

/-- Whether a list has some names, each once, in the order in which they first appear. -/
structure FirstAppearances (names listed : List String) : Prop where
  members : ∀ name, name ∈ listed ↔ name ∈ names
  ordered : listed.Pairwise fun a b => names.idxOf a < names.idxOf b

private theorem idxOf_lt_of_filter {names : List String} {test : String → Bool} {a b : String}
    (kept : test a = true) (kept' : test b = true)
    (before : (names.filter test).idxOf a < (names.filter test).idxOf b) :
    names.idxOf a < names.idxOf b := by
  induction names with
  | nil => exact before
  | cons name names ih =>
    cases passes : test name with
    | true =>
      rw [List.filter_cons_of_pos passes] at before
      simp only [List.idxOf_cons] at before ⊢
      grind
    | false =>
      have other : name ≠ a := by rintro rfl; simp [passes] at kept
      have other' : name ≠ b := by rintro rfl; simp [passes] at kept'
      rw [List.filter_cons_of_neg (by simp [passes])] at before
      rw [List.idxOf_cons_ne _ other, List.idxOf_cons_ne _ other']
      exact Nat.succ_lt_succ (ih before)

theorem firstAppearances_eraseDups (names : List String) :
    FirstAppearances names names.eraseDups := by
  refine ⟨fun name => List.mem_eraseDups, ?_⟩
  induction size : names.length using Nat.strong_induction_on generalizing names with
  | _ n ih =>
    subst size
    cases names with
    | nil => exact List.Pairwise.nil
    | cons name names =>
      rw [List.eraseDups_cons]
      have fewer := Nat.lt_succ_of_le (List.length_filter_le (fun b => !b == name) names)
      have later := ih _ fewer (names.filter fun b => !b == name) rfl
      have other {b : String} (member : b ∈ (names.filter fun b => !b == name).eraseDups) :
          b ≠ name ∧ (!b == name) = true := by
        rw [List.mem_eraseDups, List.mem_filter] at member
        exact ⟨by simpa using member.2, member.2⟩
      refine List.pairwise_cons.mpr ⟨fun b member => ?_, ?_⟩
      · rw [List.idxOf_cons_self, List.idxOf_cons_ne _ (other member).1.symm]
        exact Nat.succ_pos _
      · refine later.imp_of_mem fun {a b} member member' before => ?_
        rw [List.idxOf_cons_ne _ (other member).1.symm, List.idxOf_cons_ne _ (other member').1.symm]
        exact Nat.succ_lt_succ (idxOf_lt_of_filter (other member).2 (other member').2 before)

/-- The passes behind those that are about elements keep the parameters of a text. -/
theorem exists_finish_joined (apart : ¬ EnclosesParameter text) :
    ∃ first later, later.length = (occurrences parameter text).length ∧ ∀ form,
      (finish form text).text = joined form.sign 1 first later := by
  have replaced : Keeps (replace substitution identifier) (segments parameter text) := by
    refine keeps_replace fun behind part name rest written => values_eq_nil_iff.mpr fun v member => ?_
    exact apart ⟨behind, name, rest, part, written, v, member⟩
  obtain ⟨changed, same, spelled⟩ := (replaced.comp keeps_unescape).comp keeps_words
  obtain ⟨first, later, counted, pieces⟩ := exists_joined changed
  refine ⟨first, later, ?_, fun form => ?_⟩
  · rw [counted, same, occurrences_eq_values]
  · rw [← pieces form 1, ← spelled]
    rfl

/-- **The two forms of parameters write one statement.** A template in which no substitution encloses a
parameter has the same pieces in both forms, one more than it has parameters; between them stand
question marks, or numbers from one on. What is listed is the same as well: each name once, in the order
in which the template first has it. -/
theorem fill_joined {template : String} (apart : ¬ EnclosesParameter (flatten template.toList)) :
    (∃ first later, later.length = (occurrences parameter (flatten template.toList)).length ∧
      ∀ form, (fill form template).text = joined form.sign 1 first later) ∧
    ∃ parameters substitutions,
      FirstAppearances ((occurrences parameter (flatten template.toList)).map String.ofList)
        parameters ∧
      FirstAppearances ((occurrences substitution (flatten template.toList)).map String.ofList)
        substitutions ∧
      ∀ form, (fill form template).parameters = parameters ∧
        (fill form template).substitutions = substitutions :=
  ⟨exists_finish_joined apart, _, _, firstAppearances_eraseDups _, firstAppearances_eraseDups _,
    fun _ => ⟨rfl, rfl⟩⟩

/-- Parameters in a clause, and a substitution behind it. -/
theorem fill_joined_clause :
    ¬ EnclosesParameter (flatten "<where>AND #\x7ba\x7d = #\x7bb, c\x7d</where> $\x7bd\x7d".toList) ∧
      ∃ first later, later.length = 2 ∧ ∀ form,
        (fill form "<where>AND #\x7ba\x7d = #\x7bb, c\x7d</where> $\x7bd\x7d").text =
          joined form.sign 1 first later := by
  have flat : flatten "<where>AND #\x7ba\x7d = #\x7bb, c\x7d</where> $\x7bd\x7d".toList =
      " WHERE #\x7ba\x7d = #\x7bb, c\x7d  $\x7bd\x7d".toList := by decide +kernel
  have apart : ¬ EnclosesParameter
      (flatten "<where>AND #\x7ba\x7d = #\x7bb, c\x7d</where> $\x7bd\x7d".toList) := by
    rw [flat]
    decide +kernel
  obtain ⟨first, later, counted, spelled⟩ := (fill_joined apart).1
  refine ⟨apart, first, later, counted.trans ?_, spelled⟩
  rw [flat]
  decide +kernel

/-- The number of a parameter becomes part of a name around it. -/
example : (fill .mark "$\x7b#\x7ba\x7d\x7d").text = "_" ∧
    (fill .numbered "$\x7b#\x7ba\x7d\x7d").text = "_1" := by
  decide +kernel

end TableAccess.Template
