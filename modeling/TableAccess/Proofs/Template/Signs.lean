import TableAccess.Proofs.Template.Unmarked
import Mathlib.Data.List.TakeWhile

/-! Texts with parameters. What is written for a parameter is a sign: a question mark, or a dollar sign
and a number. A text with its parameters marked is written with such signs, and what a pass looks for in
it (blanks, a run of characters, a substitution) is there or not whatever the form of the signs is. -/
namespace TableAccess.Text

variable {α : Type} {c : Char} {v : α} {segs : List (Segment α)}

/-- What a segment has found. -/
def Segment.value? : Segment α → Option α
  | plain _ => none
  | found value => some value

/-- What segments have found, in order. -/
def values (segs : List (Segment α)) : List α := segs.filterMap Segment.value?

@[simp] theorem values_nil : values ([] : List (Segment α)) = [] := rfl

@[simp] theorem values_plain (c : Char) (segs : List (Segment α)) :
    values (.plain c :: segs) = values segs := rfl

@[simp] theorem values_found (v : α) (segs : List (Segment α)) :
    values (.found v :: segs) = v :: values segs := rfl

@[simp] theorem values_append (front back : List (Segment α)) :
    values (front ++ back) = values front ++ values back :=
  List.filterMap_append

theorem occurrences_eq_values (pattern : Pattern α) (text : List Char) :
    occurrences pattern text = values (segments pattern text) := by
  refine congrArg (List.filterMap · (segments pattern text)) (funext fun seg => ?_)
  cases seg <;> rfl

theorem values_eq_nil_iff : values segs = [] ↔ ∀ v, .found v ∉ segs := by
  rw [values, List.filterMap_eq_nil_iff]
  constructor
  · intro none_ v member
    cases none_ _ member
  · intro absent seg member
    cases seg with
    | plain c => rfl
    | found v => exact absurd member (absent v)

/-- Segments that have found nothing are characters. -/
theorem exists_of_values_eq_nil (none_ : values segs = []) :
    ∃ text : List Char, segs = text.map Segment.plain := by
  induction segs with
  | nil => exact ⟨[], rfl⟩
  | cons seg segs ih =>
    cases seg with
    | plain c =>
      obtain ⟨text, rfl⟩ := ih none_
      exact ⟨c :: text, rfl⟩
    | found v => cases none_

@[simp] theorem values_map_plain (text : List Char) :
    values (text.map (@Segment.plain α)) = [] := by
  induction text with
  | nil => rfl
  | cons c text ih => exact ih

/-- Whether a segment passes a test for characters. What is found passes it or not, whatever it
is. -/
def Segment.test (test : Char → Bool) (passes : Bool) : Segment α → Bool
  | plain c => test c
  | found _ => passes

end TableAccess.Text
namespace TableAccess
open TableAccess.Text

/-- What is written for a parameter. -/
def Placeholder.sign : Placeholder → Nat → String
  | mark, _ => "?"
  | numbered, number => "$" ++ toString number

namespace Template

/-- A text with its parameters marked. -/
abbrev Marked := List (Segment (List Char))

/-! What is written for parameters. -/

variable {form : Placeholder} {next : Nat} {c : Char} {mark text : List Char}
  {segs front back rest : Marked} {test : Char → Bool} {passes : Bool}

private theorem writeParameters_mark (next next' : Nat) (segs : Marked) :
    writeParameters .mark next segs = writeParameters .mark next' segs := by
  induction segs with
  | nil => rfl
  | cons seg segs ih => cases seg <;> simp only [writeParameters, ih]

theorem writeParameters_found (form : Placeholder) (next : Nat) (v : List Char)
    (segs : Marked) : writeParameters form next (.found v :: segs) =
      (form.sign next).toList ++ writeParameters form (next + 1) segs := by
  cases form with
  | mark => simp [writeParameters, Placeholder.sign, writeParameters_mark next (next + 1)]
  | numbered => simp [writeParameters, Placeholder.sign]

theorem writeParameters_append (form : Placeholder) (next : Nat)
    (front back : Marked) : writeParameters form next (front ++ back) =
      writeParameters form next front ++ writeParameters form (next + (values front).length) back := by
  induction front generalizing next with
  | nil => rfl
  | cons seg front ih =>
    cases seg with
    | plain c => exact congrArg (c :: ·) (ih next)
    | found v =>
      rw [List.cons_append, writeParameters_found, writeParameters_found, ih, values_found,
        List.length_cons, List.append_assoc, Nat.add_assoc, Nat.add_comm 1]

/-! The signs. -/

private theorem isDigit_of_mem_digits {number : Nat} (member : c ∈ (toString number).toList) :
    c.isDigit = true := by
  rw [Nat.toString_eq_repr, Nat.toList_repr] at member
  exact Nat.isDigit_of_mem_toDigits (by decide) (by decide) member

theorem exists_sign (form : Placeholder) (next : Nat) :
    ∃ c rest, (form.sign next).toList = c :: rest ∧ ∀ d ∈ rest, d.isDigit = true := by
  cases form with
  | mark => exact ⟨'?', [], by simp [Placeholder.sign], by simp⟩
  | numbered =>
    exact ⟨'$', (toString next).toList, by simp [Placeholder.sign], fun _ => isDigit_of_mem_digits⟩

theorem sign_ne_nil (form : Placeholder) (next : Nat) : (form.sign next).toList ≠ [] := by
  obtain ⟨c, rest, spelled, _⟩ := exists_sign form next
  exact spelled ▸ List.cons_ne_nil c rest

/-- The characters of signs. -/
theorem mem_sign (member : c ∈ (form.sign next).toList) :
    c = '?' ∨ c = '$' ∨ c.isDigit = true := by
  cases form with
  | mark => exact .inl (by simpa [Placeholder.sign] using member)
  | numbered =>
    rw [Placeholder.sign, String.toList_append, List.mem_append] at member
    exact .inr (member.imp (by simp) isDigit_of_mem_digits)

/-- A test that a question mark, a dollar sign and digits answer alike is answered alike by every
sign. -/
theorem test_sign (test : Char → Bool) (asked : test '?' = passes) (dollar : test '$' = passes)
    (digits : ∀ n ∈ List.range 10, test (Char.ofNat (48 + n)) = passes)
    (member : c ∈ (form.sign next).toList) : test c = passes := by
  rcases mem_sign member with rfl | rfl | digit
  · exact asked
  · exact dollar
  · have bounds : 48 ≤ c.toNat ∧ c.toNat ≤ 57 := by
      simpa [Char.isDigit, UInt32.le_iff_toNat_le] using digit
    have spelled := digits (c.toNat - 48) (List.mem_range.mpr (by omega))
    rwa [Nat.add_sub_cancel' bounds.1, Char.ofNat_toNat] at spelled

theorem solid_sign (member : c ∈ (form.sign next).toList) : isBlank c = false :=
  test_sign isBlank (by decide) (by decide) (by decide) member

/-! Runs of characters that pass a test to which every sign has the same answer. -/

/-- Whether every sign has the same answer to a test. -/
def Settles (test : Char → Bool) (passes : Bool) : Prop :=
  ∀ (form : Placeholder) (next : Nat), ∀ c ∈ (form.sign next).toList, test c = passes

private theorem forall_mem_writeParameters (settled : Settles test passes) (form : Placeholder)
    (next : Nat) (inside : ∀ seg ∈ segs, seg.test test passes = true) :
    ∀ c ∈ writeParameters form next segs, test c = true := by
  induction segs generalizing next with
  | nil => simp [writeParameters]
  | cons seg segs ih =>
    obtain ⟨first, later⟩ := List.forall_mem_cons.mp inside
    cases seg with
    | plain c => exact List.forall_mem_cons.mpr ⟨first, ih next later⟩
    | found v =>
      rw [writeParameters_found]
      intro c member
      rcases List.mem_append.mp member with sign | behind
      · exact (settled form next c sign).trans first
      · exact ih (next + 1) later c behind

private theorem head?_writeParameters (settled : Settles test passes) (form : Placeholder)
    (next : Nat) (ends : ∀ seg ∈ segs.head?, seg.test test passes = false) :
    ∀ c ∈ (writeParameters form next segs).head?, test c = false := by
  cases segs with
  | nil => simp [writeParameters]
  | cons seg segs =>
    have first : seg.test test passes = false := ends seg rfl
    intro c front
    cases seg with
    | plain d =>
      obtain rfl : d = c := Option.some.inj front
      exact first
    | found v =>
      rw [writeParameters_found, List.head?_append_of_ne_nil _ (sign_ne_nil form next)] at front
      exact (settled form next c (List.mem_of_mem_head? front)).trans first

private theorem head?_dropWhile (test : Segment (List Char) → Bool) :
    ∀ seg ∈ (segs.dropWhile test).head?, test seg = false := by
  intro seg first
  have stopped := List.head?_dropWhile_not test segs
  rw [Option.mem_def.mp first] at stopped
  simpa using stopped

theorem takeWhile_writeParameters (settled : Settles test passes) (form : Placeholder)
    (next : Nat) (segs : Marked) :
    (writeParameters form next segs).takeWhile test =
      writeParameters form next (segs.takeWhile (Segment.test test passes)) := by
  conv_lhs => rw [← List.takeWhile_append_dropWhile (p := Segment.test test passes) (l := segs)]
  rw [writeParameters_append]
  exact takeWhile_run
    (forall_mem_writeParameters settled form next fun seg => List.mem_takeWhile_imp)
    (head?_writeParameters settled form _ (head?_dropWhile _))

theorem dropWhile_writeParameters (settled : Settles test passes) (form : Placeholder)
    (next : Nat) (segs : Marked) :
    (writeParameters form next segs).dropWhile test =
      writeParameters form (next + (values (segs.takeWhile (Segment.test test passes))).length)
        (segs.dropWhile (Segment.test test passes)) := by
  conv_lhs => rw [← List.takeWhile_append_dropWhile (p := Segment.test test passes) (l := segs)]
  rw [writeParameters_append]
  exact dropWhile_run
    (forall_mem_writeParameters settled form next fun seg => List.mem_takeWhile_imp)
    (head?_writeParameters settled form _ (head?_dropWhile _))

/-! Substitutions, where parameters are in the text already. -/

/-- Blanks, which stand around a name. -/
def isBlankSegment (seg : Segment (List Char)) : Bool := seg.test isBlank false

/-- What a name is made of. -/
def isNameSegment (seg : Segment (List Char)) : Bool :=
  seg.test (fun c => !(c == '\x7d' || isBlank c)) true

/-- What follows a character. -/
def afterPlain? (c : Char) : Marked → Option (Marked)
  | .plain d :: rest => if c == d then some rest else none
  | _ => none

/-- What follows the characters that open a substitution. -/
def afterOpening? (segs : Marked) : Option (Marked) :=
  (afterPlain? '$' segs).bind (afterPlain? '\x7b')

/-- A substitution: its name, and what follows. -/
def substitutionIn? (segs : Marked) :
    Option (Marked × Marked) := do
  let rest := (← afterOpening? segs).dropWhile isBlankSegment
  let name := rest.takeWhile isNameSegment
  if name.isEmpty then none
  let rest ← afterPlain? '\x7d' ((rest.dropWhile isNameSegment).dropWhile isBlankSegment)
  return (name, rest)

private theorem settles_isBlank : Settles isBlank false := fun _ _ _ => solid_sign

private theorem settles_inName : Settles (fun c => !(c == '\x7d' || isBlank c)) true :=
  fun _ _ _ => test_sign (fun c => !(c == '\x7d' || isBlank c)) (by decide) (by decide) (by decide)

/-- No parameter stands in a run of blanks. -/
theorem values_takeWhile_blank (segs : Marked) :
    values (segs.takeWhile isBlankSegment) = [] := by
  refine values_eq_nil_iff.mpr fun v member => ?_
  cases List.mem_takeWhile_imp member

theorem trimStart_writeParameters (form : Placeholder) (next : Nat)
    (segs : Marked) : trimStart (writeParameters form next segs) =
      writeParameters form next (segs.dropWhile isBlankSegment) := by
  have dropped := dropWhile_writeParameters settles_isBlank form next segs
  rwa [show Segment.test isBlank false = isBlankSegment from rfl, values_takeWhile_blank] at dropped

/-- A character that is not in a sign is the first one of a text if it is written there. -/
private theorem afterStart?_writeParameters (form : Placeholder) (next : Nat)
    (absent : c ∉ (form.sign next).toList) (segs : Marked) :
    afterStart? [c] (writeParameters form next segs) =
      (afterPlain? c segs).map (writeParameters form next) := by
  rcases segs with _ | ⟨d | v, segs⟩
  · rfl
  · rw [writeParameters, afterStart?, afterPlain?]
    split <;> rfl
  · obtain ⟨d, behind, spelled, _⟩ := exists_sign form next
    rw [spelled] at absent
    rw [writeParameters_found, spelled]
    simp [afterStart?, afterPlain?, List.ne_of_not_mem_cons absent]

/-- What opens a substitution does not begin with a sign. -/
private theorem afterStart?_sign (form : Placeholder) (next : Nat) (rest : List Char) :
    afterStart? ['$', '\x7b'] ((form.sign next).toList ++ rest) = none := by
  cases form with
  | mark => simp [Placeholder.sign, afterStart?]
  | numbered =>
    have digits : ∀ c ∈ (toString next).toList, c.isDigit = true := fun c => isDigit_of_mem_digits
    have some_ : (toString next).toList ≠ [] := by simp
    rw [Placeholder.sign, String.toList_append]
    obtain ⟨d, behind, spelled⟩ := List.exists_cons_of_ne_nil some_
    rw [spelled] at digits ⊢
    have other : '\x7b' ≠ d := by
      rintro rfl
      cases digits '\x7b' List.mem_cons_self
    simp [afterStart?, other]

theorem misses_sign (form : Placeholder) (next : Nat) :
    substitution.Misses (form.sign next).toList := by
  have opens : substitution.OpensWith '$' := by
    intro d rest other
    simp [substitution, afterStart?, Ne.symm other]
  have none_ := afterStart?_sign form next
  obtain ⟨c, behind, spelled, digits⟩ := exists_sign form next
  rw [spelled] at none_ ⊢
  refine ⟨fun rest => ?_, .of_absent opens fun member => ?_⟩
  · rw [substitution, none_]
    rfl
  · cases digits '$' member

private theorem afterStart?_opening (form : Placeholder) (next : Nat)
    (segs : Marked) :
    afterStart? ['$', '\x7b'] (writeParameters form next segs) =
      (afterOpening? segs).map (writeParameters form next) := by
  rcases segs with _ | ⟨d | v, segs⟩
  · rfl
  · have absent : '\x7b' ∉ (form.sign next).toList := mt mem_sign (by decide)
    rw [writeParameters, afterStart?, afterOpening?, afterPlain?]
    split
    · exact afterStart?_writeParameters form next absent segs
    · rfl
  · rw [writeParameters_found]
    exact afterStart?_sign form next _

private theorem isEmpty_writeParameters (form : Placeholder) (next : Nat)
    (segs : Marked) :
    (writeParameters form next segs).isEmpty = segs.isEmpty := by
  rcases segs with _ | ⟨c | v, segs⟩
  · rfl
  · rfl
  · obtain ⟨c, behind, spelled, _⟩ := exists_sign form next
    rw [writeParameters_found, spelled]
    rfl

/-- Where a substitution is found does not depend on the form of parameters. -/
theorem substitution_writeParameters (form : Placeholder) (next : Nat)
    (segs : Marked) : substitution (writeParameters form next segs) =
      (substitutionIn? segs).map fun (name, rest) => (writeParameters form next name,
        writeParameters form (next + (values name).length) rest) := by
  have absent (next : Nat) : '\x7d' ∉ (form.sign next).toList := mt mem_sign (by decide)
  have inName : Segment.test (fun c => !(c == '\x7d' || isBlank c)) true = isNameSegment := rfl
  simp only [substitution, substitutionIn?, afterStart?_opening, Option.bind_eq_bind]
  cases afterOpening? segs with
  | none => rfl
  | some rest =>
    simp only [Option.map_some, Option.bind_some, trimStart_writeParameters,
      takeWhile_writeParameters settles_inName, dropWhile_writeParameters settles_inName, inName,
      isEmpty_writeParameters, afterStart?_writeParameters _ _ (absent _)]
    split
    · rfl
    · cases afterPlain? '\x7d' (((rest.dropWhile isBlankSegment).dropWhile
        isNameSegment).dropWhile isBlankSegment) <;> rfl

private theorem of_afterPlain? (found : afterPlain? c segs = some rest) :
    segs = .plain c :: rest := by
  rcases segs with _ | ⟨d | v, segs⟩
  · cases found
  · rw [afterPlain?] at found
    split at found
    · next same => rw [beq_iff_eq.mp same, Option.some.inj found]
    · cases found
  · cases found

private theorem isBlankSegment_of_isNameSegment {seg : Segment (List Char)}
    (inName : isNameSegment seg = true) : isBlankSegment seg = false := by
  cases seg with
  | plain c =>
    simp only [isNameSegment, Segment.test, Bool.not_eq_true', Bool.or_eq_false_iff] at inName
    exact inName.2
  | found v => rfl

private theorem isNameSegment_of_isBlankSegment {seg : Segment (List Char)}
    (blank : isBlankSegment seg = true) : isNameSegment seg = false := by
  cases inName : isNameSegment seg with
  | false => rfl
  | true => rw [isBlankSegment_of_isNameSegment inName] at blank; cases blank

/-- A substitution at the start of segments, with its name and with what follows: the name stands
between blanks, in braces behind a dollar sign. -/
inductive Substitutes : Marked → Marked →
    Marked → Prop where
  | braces {front name back rest : Marked} (some_ : name ≠ [])
      (inName : ∀ seg ∈ name, isNameSegment seg = true)
      (blank : ∀ seg ∈ front ++ back, isBlankSegment seg = true) :
      Substitutes (.plain '$' :: .plain '\x7b' :: (front ++ (name ++ (back ++ .plain '\x7d' :: rest))))
        name rest

theorem substitutionIn?_eq_some_iff {name : Marked} :
    substitutionIn? segs = some (name, rest) ↔ Substitutes segs name rest := by
  constructor
  · intro found
    simp only [substitutionIn?, afterOpening?, Option.bind_eq_bind, Option.bind_eq_some_iff] at found
    obtain ⟨inside, ⟨behind, dollar, brace⟩, found⟩ := found
    split at found
    · cases found
    · next some_ =>
      obtain ⟨after, closed, same⟩ := Option.bind_eq_some_iff.mp found
      obtain ⟨rfl, rfl⟩ := Prod.mk.inj (Option.some.inj same)
      have written := @Substitutes.braces (inside.takeWhile isBlankSegment) _
        (((inside.dropWhile isBlankSegment).dropWhile isNameSegment).takeWhile isBlankSegment) after
        (by simpa using some_) (fun seg => List.mem_takeWhile_imp) fun seg member =>
          (List.mem_append.mp member).elim List.mem_takeWhile_imp List.mem_takeWhile_imp
      rwa [← of_afterPlain? closed, List.takeWhile_append_dropWhile, List.takeWhile_append_dropWhile,
        List.takeWhile_append_dropWhile, ← of_afterPlain? brace, ← of_afterPlain? dollar] at written
  · rintro @⟨front, _, back, _, some_, inName, blank⟩
    obtain ⟨blank, blank'⟩ := List.forall_mem_append.mp blank
    have starts : ∀ seg ∈ (name ++ (back ++ .plain '\x7d' :: rest)).head?,
        isBlankSegment seg = false := by
      intro seg first
      rw [List.head?_append_of_ne_nil _ some_] at first
      exact isBlankSegment_of_isNameSegment (inName seg (List.mem_of_mem_head? first))
    have ends : ∀ seg ∈ (back ++ .plain '\x7d' :: rest).head?, isNameSegment seg = false := by
      intro seg first
      cases back with
      | nil => cases first; rfl
      | cons b back =>
        cases first
        exact isNameSegment_of_isBlankSegment (blank' _ List.mem_cons_self)
    have closes : ∀ seg ∈ (Segment.plain '\x7d' :: rest).head?, isBlankSegment seg = false := by
      rintro seg ⟨⟩
      rfl
    have empty : name.isEmpty = false := List.isEmpty_eq_false_iff.mpr some_
    simp only [substitutionIn?, afterOpening?, afterPlain?, beq_self_eq_true, if_true,
      Option.bind_eq_bind, Option.bind_some, dropWhile_run blank starts, takeWhile_run inName ends,
      dropWhile_run inName ends, dropWhile_run blank' closes, empty, Bool.false_eq_true, if_false]
    rfl

end Template
end TableAccess
