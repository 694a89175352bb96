import TableAccess.Proofs.Template.Clauses
import Mathlib.Data.List.Infix

/-! Entities. Replacing them undoes escaping, in whatever text the escaped part stands. No entity
is written with a brace or with the marks that stand for parameters, so replacing looks at what is
in front of such a character and at what is behind it by themselves. -/
namespace TableAccess.Template
open TableAccess.Text

/-- The entities that are replaced, with what they stand for. -/
def namedEntities : List (List Char × Char) :=
  [("&lt;".toList, '<'), ("&gt;".toList, '>'), ("&quot;".toList, '"'), ("&apos;".toList, '\''),
    ("&amp;".toList, '&')]

variable {part text rest : List Char} {a b c : Char} {entity : List Char × Char}

theorem unescape_entity (listed : entity ∈ namedEntities) (rest : List Char) :
    unescape (entity.1 ++ rest) = entity.2 :: unescape rest := by
  simp only [namedEntities, List.mem_cons, List.not_mem_nil, or_false] at listed
  rcases listed with rfl | rfl | rfl | rfl | rfl <;> rfl

/-- A character stays where no entity starts. -/
theorem unescape_cons (plain : ∀ e ∈ namedEntities, ¬ e.1 <+: c :: rest) :
    unescape (c :: rest) = c :: unescape rest := by
  simp only [namedEntities, List.forall_mem_cons, List.not_mem_nil, false_implies, implies_true,
    and_true] at plain
  obtain ⟨less, greater, double, single, ampersand⟩ := plain
  conv_lhs => unfold unescape
  split
  · next rest' same => exact absurd ⟨rest', same.symm⟩ less
  · next rest' same => exact absurd ⟨rest', same.symm⟩ greater
  · next rest' same => exact absurd ⟨rest', same.symm⟩ double
  · next rest' same => exact absurd ⟨rest', same.symm⟩ single
  · next rest' same => exact absurd ⟨rest', same.symm⟩ ampersand
  · next same =>
    obtain ⟨rfl, rfl⟩ := List.cons.inj same
    rfl
  · next same => cases same

/-- Every entity starts with the same character. -/
theorem head?_entity (listed : entity ∈ namedEntities) : entity.1.head? = some '&' := by
  simp only [namedEntities, List.mem_cons, List.not_mem_nil, or_false] at listed
  rcases listed with rfl | rfl | rfl | rfl | rfl <;> rfl

theorem unescape_append (plain : '&' ∉ part) (rest : List Char) :
    unescape (part ++ rest) = part ++ unescape rest := by
  induction part with
  | nil => rfl
  | cons c part ih =>
    obtain ⟨other, plain⟩ := not_or.mp (mt List.mem_cons.mpr plain)
    rw [List.cons_append, unescape_cons, ih plain, List.cons_append]
    intro entity listed front
    obtain ⟨behind, spelled⟩ := List.head?_eq_some_iff.mp (head?_entity listed)
    rw [spelled] at front
    exact other (List.cons_prefix_cons.mp front).1

/-- Replacing entities undoes escaping, whatever follows. -/
theorem unescape_escape (text rest : List Char) :
    unescape (escape text ++ rest) = text ++ unescape rest := by
  induction text using escape.induct with
  | case1 => rfl
  | case2 text ih => exact congrArg ('&' :: ·) ih
  | case3 text ih => exact congrArg ('<' :: ·) ih
  | case4 text ih => exact congrArg ('>' :: ·) ih
  | case5 c text other less greater ih =>
    rw [escape.eq_5 _ _ other less greater, List.cons_append, ← List.singleton_append,
      unescape_append, ih]
    · rfl
    · simpa using Ne.symm other

/-- Nothing that is escaped is left. -/
theorem absent_escape (text : List Char) : '<' ∉ escape text := by
  induction text using escape.induct with
  | case1 => exact List.not_mem_nil
  | case2 text ih => exact List.not_mem_append (by decide) ih
  | case3 text ih => exact List.not_mem_append (by decide) ih
  | case4 text ih => exact List.not_mem_append (by decide) ih
  | case5 c text other less greater ih =>
    rw [escape.eq_5 _ _ other less greater]
    exact List.not_mem_cons_of_ne_of_not_mem (Ne.symm less) ih

end TableAccess.Template
