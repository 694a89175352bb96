import TableAccess.Resolution
import Mathlib.Data.List.Basic

/-! Repetitions are dropped and nothing else. What a note says is its finding, its subject and its
message. Of the notes that say the same the first one is kept, in its place; the statement that a
note is tagged with afterwards does not change what it says. -/
namespace TableAccess

namespace Diagnostic

/-- What a note says, and about what. -/
def key (d : Diagnostic) : Finding × Option String × String := (d.finding, d.subject, d.message)

/-- A note with the identifier of its statement, where that has one. -/
def tagged (id : Option StatementId) (d : Diagnostic) : Diagnostic :=
  match id with
  | some id => d.inStatement id.text
  | none => d

@[simp] theorem finding_tagged (id : Option StatementId) (d : Diagnostic) :
    (d.tagged id).finding = d.finding := by
  cases id <;> rfl

@[simp] theorem subject_tagged (id : Option StatementId) (d : Diagnostic) :
    (d.tagged id).subject = d.subject := by
  cases id <;> rfl

/-- Whether none of some notes says the same as another one. -/
def isNewAfter (d : Diagnostic) (before : List Diagnostic) : Bool :=
  before.all fun earlier => earlier.key != d.key

@[simp] theorem isNewAfter_nil (d : Diagnostic) : d.isNewAfter [] = true := rfl

@[simp] theorem isNewAfter_cons (d e : Diagnostic) (before : List Diagnostic) :
    d.isNewAfter (e :: before) = (e.key != d.key && d.isNewAfter before) := rfl

theorem isNewAfter_eq_false_iff {d : Diagnostic} {before : List Diagnostic} :
    d.isNewAfter before = false ↔ ∃ earlier ∈ before, earlier.key = d.key := by
  simp [isNewAfter]

theorem any_repeats (d : Diagnostic) (before : List Diagnostic) :
    before.any d.repeats = !d.isNewAfter before := by
  have same : d.repeats = fun earlier => !(earlier.key != d.key) := by
    funext earlier
    rw [Bool.eq_iff_iff, bne, Bool.not_not, beq_iff_eq]
    simp only [repeats, key, Bool.and_eq_true, beq_iff_eq, Prod.mk.injEq]
    grind
  rw [same, isNewAfter, List.not_all_eq_any_not]

end Diagnostic

/-- The notes that say something for the first time, in order. -/
def firstNotes (notes : List Diagnostic) : List Diagnostic :=
  (notes.zipIdx.filter fun (n, place) => n.isNewAfter (notes.take place)).map Prod.fst

private theorem withoutRepeats_eq (seen notes : List Diagnostic) :
    withoutRepeats seen notes = (notes.zipIdx.filter fun (n, place) =>
      n.isNewAfter seen && n.isNewAfter (notes.take place)).map Prod.fst := by
  induction notes generalizing seen with
  | nil => rfl
  | cons d rest ih =>
    -- What comes after `d` is kept as if `d` were among the notes seen before.
    have later (before : List Diagnostic)
        (same : ∀ n : Diagnostic, (n.isNewAfter seen && d.key != n.key) = n.isNewAfter before) :
        (((rest.zipIdx 1).filter fun (n, place) =>
          n.isNewAfter seen && n.isNewAfter ((d :: rest).take place)).map Prod.fst) =
        withoutRepeats before rest := by
      rw [ih, List.zipIdx_succ, List.filter_map, List.map_map]
      refine congrArg (List.map Prod.fst) (List.filter_congr fun (n, place) _ => ?_)
      simp only [Function.comp_apply, List.take_succ_cons, ← same n, Bool.and_assoc]
      rfl
    rw [withoutRepeats, Diagnostic.any_repeats, List.zipIdx_cons, List.filter_cons]
    cases new : d.isNewAfter seen with
    | true =>
      have extended (n : Diagnostic) :
          (n.isNewAfter seen && d.key != n.key) = n.isNewAfter (d :: seen) := by
        rw [Bool.and_comm, Diagnostic.isNewAfter_cons]
      simp [new, later _ extended]
    | false =>
      obtain ⟨earlier, member, same⟩ := Diagnostic.isNewAfter_eq_false_iff.mp new
      have unchanged (n : Diagnostic) :
          (n.isNewAfter seen && d.key != n.key) = n.isNewAfter seen := by
        by_cases repeated : d.key = n.key
        · have old : n.isNewAfter seen = false :=
            Diagnostic.isNewAfter_eq_false_iff.mpr ⟨earlier, member, same.trans repeated⟩
          rw [old, Bool.false_and]
        · rw [bne_iff_ne.mpr repeated, Bool.and_true]
      simp [new, later _ unchanged]

/-- Dropping repetitions keeps what is said for the first time. -/
theorem withoutRepeats_nil (notes : List Diagnostic) :
    withoutRepeats [] notes = firstNotes notes := withoutRepeats_eq [] notes

theorem mem_of_mem_firstNotes {notes : List Diagnostic} {n : Diagnostic}
    (kept : n ∈ firstNotes notes) : n ∈ notes := by
  obtain ⟨placed, member, rfl⟩ := List.mem_map.mp kept
  exact List.fst_mem_of_mem_zipIdx (List.mem_of_mem_filter member)

private theorem said_of_mem {seen notes : List Diagnostic} {n : Diagnostic} (member : n ∈ notes) :
    (∃ earlier ∈ seen, earlier.key = n.key) ∨ ∃ k ∈ withoutRepeats seen notes, k.key = n.key := by
  induction notes generalizing seen with
  | nil => cases member
  | cons d rest ih =>
    rw [withoutRepeats, Diagnostic.any_repeats]
    cases new : d.isNewAfter seen with
    | true =>
      simp only [Bool.not_true, Bool.false_eq_true, if_false]
      rcases List.mem_cons.mp member with rfl | member
      · exact .inr ⟨n, List.mem_cons_self, rfl⟩
      · have later : (∃ earlier ∈ d :: seen, earlier.key = n.key) ∨
            ∃ k ∈ withoutRepeats (d :: seen) rest, k.key = n.key := ih member
        rcases later with ⟨earlier, before, same⟩ | ⟨k, kept, same⟩
        · rcases List.mem_cons.mp before with rfl | before
          · exact .inr ⟨earlier, List.mem_cons_self, same⟩
          · exact .inl ⟨earlier, before, same⟩
        · exact .inr ⟨k, List.mem_cons_of_mem _ kept, same⟩
    | false =>
      simp only [Bool.not_false, if_true]
      rcases List.mem_cons.mp member with rfl | member
      · exact .inl (Diagnostic.isNewAfter_eq_false_iff.mp new)
      · exact ih member

/-- Whatever is said is left to be said once. -/
theorem exists_mem_firstNotes {notes : List Diagnostic} {n : Diagnostic} (member : n ∈ notes) :
    ∃ k ∈ firstNotes notes, k.key = n.key := by
  rw [← withoutRepeats_nil]
  exact (said_of_mem member).resolve_left (by simp)

end TableAccess
