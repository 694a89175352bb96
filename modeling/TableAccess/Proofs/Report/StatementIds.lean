import TableAccess.Proofs.Template.Scanning
import TableAccess.Report.Assembly
import Mathlib.Data.List.TakeWhile

/-! Identifiers of statements and their written forms. The last period separates the namespace, so an
identifier is read back from its written form unless its name in the namespace has a period itself; and
a text is written again as it was read unless the period that separates has nothing in front of it, since
none is written for an empty namespace. Notes say by that written form which statement they are about, so
they never mix up two statements whose names have no period. -/
namespace TableAccess
open TableAccess.Text

namespace StatementId
variable {space id : List Char}

theorem toList_text (space id : List Char) : (text ⟨String.ofList space, String.ofList id⟩).toList =
    if space = [] then id else space ++ '.' :: id := by
  cases space with
  | nil => exact String.toList_ofList
  | cons c rest => simp [text]

/-- The last period of a text separates. -/
theorem parse_append (absent : '.' ∉ id) :
    parse (String.ofList (space ++ '.' :: id)) = ⟨String.ofList space, String.ofList id⟩ := by
  have backwards : (space ++ '.' :: id).reverse = id.reverse ++ '.' :: space.reverse := by simp
  have last : (id.reverse ++ '.' :: space.reverse).takeWhile (· != '.') = id.reverse := by
    refine takeWhile_run (fun c held => ?_) (by simp)
    exact bne_iff_ne.mpr fun same => absent (same ▸ List.mem_reverse.mp held)
  have before : (id.reverse ++ '.' :: space.reverse).drop (id.reverse.length + 1) = space.reverse := by
    rw [← List.drop_drop, List.drop_left]
    rfl
  simp only [parse, String.toList_ofList, backwards, last, before, List.reverse_reverse]

/-- A text without a period has no namespace. -/
theorem parse_of_absent (absent : '.' ∉ id) : parse (String.ofList id) = ⟨"", String.ofList id⟩ := by
  have all : id.reverse.takeWhile (· != '.') = id.reverse := by
    refine List.takeWhile_eq_self_iff.mpr fun c held => ?_
    exact bne_iff_ne.mpr fun same => absent (same ▸ List.mem_reverse.mp held)
  have nothing : id.reverse.drop (id.reverse.length + 1) = [] :=
    List.drop_eq_nil_iff.mpr (Nat.le_succ _)
  simp only [parse, String.toList_ofList, all, nothing, List.reverse_reverse]
  rfl

/-- A text has no period, or a last one. -/
theorem absent_or_last (written : List Char) :
    '.' ∉ written ∨ ∃ space id, written = space ++ '.' :: id ∧ '.' ∉ id := by
  by_cases held : '.' ∈ written
  · obtain ⟨id, space, split, absent⟩ := List.eq_append_cons_of_mem (List.mem_reverse.mpr held)
    refine .inr ⟨space.reverse, id.reverse, ?_, fun member => absent (List.mem_reverse.mp member)⟩
    rw [← List.reverse_reverse written, split]
    simp
  · exact .inl held

/-- What is read of a text has no period behind the namespace. -/
theorem not_mem_id_parse (written : String) : '.' ∉ (parse written).id.toList := by
  rw [← String.ofList_toList (s := written)]
  rcases absent_or_last written.toList with absent | ⟨space, id, split, absent⟩
  · rw [parse_of_absent absent, String.toList_ofList]
    exact absent
  · rw [split, parse_append absent, String.toList_ofList]
    exact absent

theorem parse_text {s : StatementId} (absent : '.' ∉ s.id.toList) : parse s.text = s := by
  obtain ⟨space, id⟩ := s
  have written := toList_text space.toList id.toList
  rw [String.ofList_toList, String.ofList_toList] at written
  rw [← String.ofList_toList (s := text ⟨space, id⟩), written]
  split
  · next none_ =>
    rw [parse_of_absent absent, String.ofList_toList, String.toList_eq_nil_iff.mp none_]
  · rw [parse_append absent, String.ofList_toList, String.ofList_toList]

theorem parse_text_iff (s : StatementId) : parse s.text = s ↔ '.' ∉ s.id.toList :=
  ⟨fun same => same ▸ not_mem_id_parse s.text, parse_text⟩

theorem text_parse_iff (written : String) : (parse written).text = written ↔
    ¬ ∃ rest, written.toList = '.' :: rest ∧ '.' ∉ rest := by
  obtain ⟨characters, rfl⟩ : ∃ characters, written = String.ofList characters :=
    ⟨written.toList, String.ofList_toList.symm⟩
  rw [← String.toList_inj, String.toList_ofList]
  rcases absent_or_last characters with absent | ⟨space, id, rfl, absent⟩
  · have whole : (text ⟨"", String.ofList characters⟩).toList = characters := toList_text [] characters
    rw [parse_of_absent absent, whole]
    refine iff_of_true rfl ?_
    rintro ⟨rest, rfl, _⟩
    exact absent List.mem_cons_self
  · rw [parse_append absent, toList_text]
    cases space with
    | nil =>
      -- The period is not written again.
      refine iff_of_false (fun same => ?_) (fun other => other ⟨id, rfl, absent⟩)
      simpa using congrArg List.length same
    | cons c rest =>
      refine iff_of_true (if_neg (List.cons_ne_nil c rest)) ?_
      rintro ⟨behind, split, unseparated⟩
      obtain ⟨rfl, rfl⟩ := List.cons.inj split
      exact unseparated (List.mem_append_right rest List.mem_cons_self)

theorem eq_of_text_eq {a b : StatementId} (first : '.' ∉ a.id.toList) (second : '.' ∉ b.id.toList)
    (same : a.text = b.text) : a = b := by
  rw [← parse_text first, ← parse_text second, same]

end StatementId

/-- Whether a note says that it is about a statement. -/
def Diagnostic.Cites (d : Diagnostic) (id : StatementId) : Prop := d.statement = some id.text

namespace Diagnostic
variable {note : Diagnostic}

theorem cites_of_mem_resolve {r : Resolver} {s : Statement} {id : StatementId}
    (noted : note ∈ (r.resolve s (some id)).notes) : note.Cites id := by
  obtain ⟨d, _, rfl⟩ := List.mem_map.mp noted
  rfl

theorem cites_missing (method : String) (id : StatementId) : (Joiner.missing method id).Cites id := rfl

theorem Cites.inFileIfNone {id : StatementId} (cites : note.Cites id) (file : String) :
    (note.inFileIfNone file).Cites id := by
  rw [Diagnostic.inFileIfNone]
  split
  · exact cites
  · exact cites

/-- All notes about a statement of a file say which one it is, whether or not it parses. -/
theorem cites_of_mem_entryOf {p : Plan} {r : Resolver} {file space : String} {s : MapperStatement}
    (noted : note ∈ (Report.entryOf p r file space s).notes) : note.Cites ⟨space, s.id⟩ := by
  simp only [Report.entryOf] at noted
  split at noted
  · obtain rfl := List.mem_singleton.mp noted
    rfl
  · obtain ⟨d, found, rfl⟩ := List.mem_map.mp noted
    exact (cites_of_mem_resolve found).inFileIfNone file

theorem Cites.unique {other : Diagnostic} {a b : StatementId} (cites : note.Cites a)
    (cites' : other.Cites b) (first : '.' ∉ a.id.toList) (second : '.' ∉ b.id.toList)
    (same : note.statement = other.statement) : a = b :=
  StatementId.eq_of_text_eq first second (Option.some.inj (cites.symm.trans (same.trans cites')))

end Diagnostic

/-- **An identifier is read back exactly if its name has no period, and a text is written again
exactly unless its only period comes first.** Notes about statements whose names have no period
therefore tell the statements apart. -/
theorem StatementId.reads_back_iff (p : Plan) (r : Resolver) :
    (∀ s : StatementId, parse s.text = s ↔ '.' ∉ s.id.toList) ∧
      (∀ written : String, (parse written).text = written ↔
        ¬ ∃ rest, written.toList = '.' :: rest ∧ '.' ∉ rest) ∧
      (∀ a b : StatementId, '.' ∉ a.id.toList → '.' ∉ b.id.toList → a.text = b.text → a = b) ∧
      (∀ file space s, ∀ note ∈ (Report.entryOf p r file space s).notes,
        note.Cites ⟨space, s.id⟩) ∧
      ∀ (note other : Diagnostic) (a b : StatementId), note.Cites a → other.Cites b →
        '.' ∉ a.id.toList → '.' ∉ b.id.toList → note.statement = other.statement → a = b :=
  ⟨parse_text_iff, text_parse_iff, fun _ _ => eq_of_text_eq,
    fun _ _ _ _ noted => Diagnostic.cites_of_mem_entryOf noted,
    fun _ _ _ _ cites cites' => cites.unique cites'⟩

theorem StatementId.reads_back_iff_dotted :
    parse (text ⟨"com.example.UserMapper", "selectById"⟩) = ⟨"com.example.UserMapper", "selectById"⟩ ∧
      parse (text ⟨"UserMapper", "select.byId"⟩) ≠ ⟨"UserMapper", "select.byId"⟩ ∧
      (parse ".selectById").text ≠ ".selectById" ∧ (parse "..selectById").text = "..selectById" ∧
      text ⟨"example.UserMapper", "save"⟩ ≠ text ⟨"example", "save"⟩ ∧
      (Joiner.missing "UserDao.save" ⟨"example", "save"⟩).statement ≠
        (Joiner.missing "UserDao.save" ⟨"", "save"⟩).statement := by
  obtain ⟨parsed, written, apart, _, noted⟩ := reads_back_iff default default
  refine ⟨(parsed _).mpr (by decide), fun same => (parsed _).mp same (by decide), ?_, ?_, ?_, ?_⟩
  · exact fun same => (written _).mp same ⟨"selectById".toList, by decide, by decide⟩
  · refine (written _).mpr ?_
    rintro ⟨rest, split, absent⟩
    obtain rfl : ".selectById".toList = rest := (List.cons.inj split).2
    exact absent (by decide)
  · intro same
    exact absurd (apart _ _ (by decide) (by decide) same) (by decide)
  · intro same
    exact absurd (noted _ _ _ _ (Diagnostic.cites_missing _ _) (Diagnostic.cites_missing _ _) (by decide)
      (by decide) same) (by decide)

end TableAccess
