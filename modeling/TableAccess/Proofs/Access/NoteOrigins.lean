import TableAccess.Proofs.Access.Contents
import TableAccess.Proofs.Repetition

/-! What the notes of a statement can be. Whatever is noted while a statement is read is about a
name, a column or the depth of a scope, and names no file. What goes wrong before there is a
statement to read, in a text or in a file, is noted elsewhere, so the two are never mixed up. -/
namespace TableAccess

/-- Whether a note is one that the reading of a statement makes. -/
structure Diagnostic.OfReading (d : Diagnostic) : Prop where
  finding : d.finding ∈ [.duplicateAlias, .depthExceeded, .ambiguousColumn, .unknownColumn]
  file : d.file = none

namespace Diagnostic.OfReading
variable {r : Resolver} {frames : Frames} {depth : Nat} {d : Diagnostic}

theorem tagged (reading : d.OfReading) (id : Option StatementId) : (d.tagged id).OfReading := by
  cases id with
  | none => exact reading
  | some id => exact ⟨reading.finding, reading.file⟩

theorem of_note {a : Attribution} {column : ColumnRef} (noted : a.note column = some d) :
    d.OfReading := by
  cases a with
  | table name => cases noted
  | ambiguous tables =>
    cases noted
    exact ⟨by simp [about, of], rfl⟩
  | unknown reason =>
    cases noted
    exact ⟨by simp [about, of], rfl⟩

theorem of_mention {column : ColumnRef} (noted : d ∈ (r.mention frames column).notes) :
    d.OfReading := of_note (Option.mem_toList.mp noted)

theorem of_cut {what : String} {subject : Option String}
    (noted : d ∈ Findings.notes (r.cut depth what subject)) : d.OfReading := by
  unfold Resolver.cut at noted
  split at noted
  · cases Multiset.notMem_zero _ noted
  · obtain rfl := List.mem_singleton.mp noted
    exact ⟨by simp [of], rfl⟩

theorem of_declared {m : AliasMap} {declarations : List AliasEntry}
    (noted : d ∈ (m.declareAll declarations).2) : d.OfReading := by
  induction declarations generalizing m with
  | nil => cases noted
  | cons e rest ih =>
    rcases List.mem_append.mp noted with here | later
    · obtain ⟨previous, _, rfl⟩ := List.mem_map.mp here
      exact ⟨by simp [AliasMap.duplicate, about, of], rfl⟩
    · exact ih later

theorem of_place {p : Place} (noted : d ∈ Findings.notes (p.own r frames depth)) :
    d.OfReading := by
  match p with
  | .column c => exact of_mention noted
  | .subquery body => exact of_cut noted
  | .argument call c =>
    have noted : d ∈ (r.mentionInCall frames call c).notes := noted
    rw [r.notes_mentionInCall] at noted
    exact of_mention noted

theorem of_output {o : Output} (noted : d ∈ (r.output frames o).notes) : d.OfReading := by
  match o with
  | .named name => cases noted
  | .wildcard none =>
    rw [r.notes_output_all] at noted
    cases noted
  | .wildcard (some qualifier) =>
    rw [r.notes_output_qualified] at noted
    exact of_mention noted

/-- Each part of a visit notes only what is of its kind. -/
theorem of_visit {v : Visit} {outer : Chain} (noted : d ∈ Findings.notes (v.own r outer)) :
    d.OfReading := by
  simp only [Visit.own, map_add, Multiset.mem_add, Findings.mem_sum] at noted
  obtain ((((named | source) | declared) | table) | place) | given := noted
  · obtain ⟨c, _, noted⟩ := named
    rw [Cte.own, map_add, Multiset.mem_add] at noted
    rcases noted with cut | table
    · exact of_cut cut
    · cases Multiset.notMem_zero _ table
  · obtain ⟨s, _, noted⟩ := source
    exact of_cut noted
  · exact of_declared declared
  · cases Multiset.notMem_zero _ table
  · obtain ⟨p, _, noted⟩ := place
    exact of_place noted
  · split at given
    · cases Multiset.notMem_zero _ given
    · rw [r.findings_outputs, Findings.mem_sum] at given
      obtain ⟨o, _, noted⟩ := given
      exact of_output noted

end Diagnostic.OfReading

/-- Reading a statement makes no other notes. -/
theorem Statement.notes_ofReading {r : Resolver} {s : Statement} {d : Diagnostic}
    (noted : d ∈ (s.read r).notes) : d.OfReading := by
  obtain ⟨v, outer, _, found⟩ := mem_notes_read.mp noted
  exact .of_visit found

/-- A resolution has no other notes. -/
theorem Resolver.notes_ofReading {r : Resolver} {s : Statement} {id : Option StatementId}
    {d : Diagnostic} (noted : d ∈ (r.resolve s id).notes) : d.OfReading := by
  obtain ⟨n, kept, rfl⟩ := List.mem_map.mp noted
  rw [withoutRepeats_nil] at kept
  exact (Statement.notes_ofReading (mem_of_mem_firstNotes kept)).tagged id

end TableAccess
