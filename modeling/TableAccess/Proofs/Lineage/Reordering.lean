import TableAccess.Proofs.Lineage.JoinedRecords
import Mathlib.Data.List.Perm.Basic

/-! What a join answers whatever the order of its input. Records and missing statements are sorted,
so they depend on what is found and not on when; of the methods that share a key any one does for
its record, as long as methods of one class and name do and take the same. The calls that match no
method are noted one by one, in the order of the logic. -/
namespace TableAccess

/-- The notes of a join that note a finding. -/
def Lineage.notesOf (a : Lineage) (finding : Finding) : List Diagnostic :=
  a.notes.filter fun d => d.finding = finding

namespace Joiner

/-- Whether methods of one class and name do and take the same. -/
def Agree (methods : List DaoMethod) : Prop :=
  ∀ m ∈ methods, ∀ other ∈ methods, m.daoClass = other.daoClass → m.method = other.method →
    m.operation = other.operation ∧ m.parameters = other.parameters

instance (methods : List DaoMethod) : Decidable (Agree methods) :=
  inferInstanceAs (Decidable (∀ m ∈ methods, ∀ other ∈ methods, _ → _ → _))

/-- The notes about invocations that call no known method. -/
def unresolvedNotes (j : Joiner) (logic : List LogicMethod) : List Diagnostic :=
  logic.flatMap fun l => l.invocations.flatMap fun invoked =>
    if j.candidates invoked = [] then [unresolved l invoked] else []

/-- The statements that methods name and that are not there, each with the method. -/
def absentStatements (j : Joiner) (logic : List LogicMethod) : List (String × StatementId) :=
  logic.flatMap fun l => l.invocations.flatMap fun invoked =>
    (j.candidates invoked).flatMap fun m => (j.matchMethod l invoked m).missing

/-- The notes about statements that are not there. -/
def missingNotes (j : Joiner) (logic : List LogicMethod) : List Diagnostic :=
  (sortedNew missingOrder (j.absentStatements logic)).map fun (method, id) => missing method id

instance : Std.TransCmp missingOrder :=
  inferInstanceAs (Std.TransCmp (compareLex (compareOn Prod.fst)
    (compareLex (compareOn fun absent : String × StatementId => absent.2.space)
      (compareOn fun absent => absent.2.id))))

section
variable {j : Joiner} {methods : List DaoMethod} {l : LogicMethod} {logic logic' : List LogicMethod}
  {invoked : String} {m other : DaoMethod} {key : LineageKey}

theorem eq_of_missingOrder (a b : String × StatementId) (same : missingOrder a b = .eq) : a = b := by
  rw [missingOrder, Ordering.then_eq_eq] at same
  exact Prod.ext (Std.LawfulEqOrd.eq_of_compare same.1) (StatementId.order_eq_eq_iff.mp same.2)

theorem notes_matchMethod : (j.matchMethod l invoked m).notes = [] := by
  unfold matchMethod
  split <;> rfl

/-- Each invocation is noted if it calls no known method. -/
theorem notes_matchInvocation : (j.matchInvocation l invoked).flatMap Match.notes =
    if j.candidates invoked = [] then [unresolved l invoked] else [] := by
  unfold matchInvocation
  split
  · rename_i nothing
    simp [nothing]
  · rename_i known
    rw [if_neg known, List.flatMap_map]
    simp only [notes_matchMethod, List.flatMap_eq_nil_iff, implies_true]

theorem missing_matchInvocation : (j.matchInvocation l invoked).flatMap Match.missing =
    (j.candidates invoked).flatMap fun m => (j.matchMethod l invoked m).missing := by
  unfold matchInvocation
  split
  · rename_i nothing
    simp [nothing]
  · exact List.flatMap_map ..

/-- A join notes the calls without a method first, then the missing statements. -/
theorem notes_join : (j.join logic).notes = j.unresolvedNotes logic ++ j.missingNotes logic := by
  simp only [join, unresolvedNotes, missingNotes, absentStatements, List.flatMap_assoc,
    notes_matchInvocation, missing_matchInvocation]

theorem finding_of_mem_unresolvedNotes {d : Diagnostic} (noted : d ∈ j.unresolvedNotes logic) :
    d.finding = .unresolvedCall := by
  simp only [unresolvedNotes, List.mem_flatMap] at noted
  obtain ⟨l, _, invoked, _, noted⟩ := noted
  split at noted
  · obtain rfl := List.mem_singleton.mp noted
    rfl
  · cases noted

theorem finding_of_mem_missingNotes {d : Diagnostic} (noted : d ∈ j.missingNotes logic) :
    d.finding = .missingStatement := by
  obtain ⟨absent, _, rfl⟩ := List.mem_map.mp noted
  rfl

private theorem filter_finding {notes : List Diagnostic} {finding found : Finding}
    (alike : ∀ d ∈ notes, d.finding = found) :
    (notes.filter fun d => d.finding = finding) = if found = finding then notes else [] := by
  split
  · rename_i same
    exact List.filter_eq_self.mpr fun d noted => decide_eq_true ((alike d noted).trans same)
  · rename_i different
    refine List.filter_eq_nil_iff.mpr fun d noted kept => different ?_
    exact (alike d noted).symm.trans (of_decide_eq_true kept)

/-- A join notes nothing else. -/
theorem notesOf_join {finding : Finding} : (j.join logic).notesOf finding =
    (if .unresolvedCall = finding then j.unresolvedNotes logic else [])
      ++ if .missingStatement = finding then j.missingNotes logic else [] := by
  rw [Lineage.notesOf, notes_join, List.filter_append,
    filter_finding fun _ noted => finding_of_mem_unresolvedNotes noted,
    filter_finding fun _ noted => finding_of_mem_missingNotes noted]

theorem unresolvedCalls_join : (j.join logic).notesOf .unresolvedCall = j.unresolvedNotes logic :=
  notesOf_join.trans (List.append_nil _)

theorem missingStatements_join : (j.join logic).notesOf .missingStatement = j.missingNotes logic :=
  notesOf_join.trans (List.nil_append _)

theorem candidates_perm (permuted : j.methods.Perm methods) :
    (j.candidates invoked).Perm ({ j with methods }.candidates invoked) := permuted.filter _

theorem unresolvedNotes_perm (permuted : j.methods.Perm methods) (reordered : logic.Perm logic') :
    (j.unresolvedNotes logic).Perm ({ j with methods }.unresolvedNotes logic') := by
  have noMore (invoked : String) :
      j.candidates invoked = [] ↔ { j with methods }.candidates invoked = [] := by
    rw [← List.length_eq_zero_iff, ← List.length_eq_zero_iff, (candidates_perm permuted).length_eq]
  simp only [unresolvedNotes, noMore]
  exact reordered.flatMap_right _

theorem absentStatements_perm (permuted : j.methods.Perm methods) (reordered : logic.Perm logic') :
    (j.absentStatements logic).Perm ({ j with methods }.absentStatements logic') := by
  refine reordered.flatMap fun l _ => List.Perm.flatMap_left _ fun invoked _ => ?_
  exact (candidates_perm permuted).flatMap_right _

theorem missingNotes_eq_of_perm (permuted : j.methods.Perm methods) (reordered : logic.Perm logic') :
    j.missingNotes logic = { j with methods }.missingNotes logic' := by
  rw [missingNotes, missingNotes, sortedNew_congr eq_of_missingOrder fun absent =>
    (absentStatements_perm permuted reordered).mem_iff]

/-- Methods that agree have the same record. -/
theorem describe_eq_of_agree (named : m.qualifiedName = other.qualifiedName)
    (calls : j.Calls key.invoked key.statement m) (calls' : j.Calls key.invoked key.statement other)
    (agree : m.daoClass = other.daoClass → m.method = other.method →
      m.operation = other.operation ∧ m.parameters = other.parameters) :
    j.describe key m = j.describe key other := by
  obtain ⟨sameClass, sameMethod⟩ := calls.eq_of_qualifiedName calls' named
  obtain ⟨sameOperation, sameParameters⟩ := agree sameClass sameMethod
  simp only [describe, record, parametersOf, sameClass, sameMethod, sameOperation, sameParameters]

private theorem mem_records_of_perm {r : LineageRecord} (agree : Agree j.methods)
    (permuted : j.methods.Perm methods) (reordered : logic.Perm logic')
    (member : r ∈ (j.join logic).records) : r ∈ ({ j with methods }.join logic').records := by
  obtain ⟨⟨l, listed, logicOf⟩, m, found, described⟩ := mem_records_iff.mp member
  obtain ⟨present, named, calls⟩ := firstCalled?_eq_some found
  obtain ⟨first, found'⟩ := exists_firstCalled? (j := { j with methods }) (permuted.subset present)
    named ⟨calls.named, calls.reaches⟩
  obtain ⟨present', named', calls'⟩ := firstCalled?_eq_some found'
  have same : j.describe r.key first = j.describe r.key m :=
    describe_eq_of_agree (named'.trans named.symm) ⟨calls'.named, calls'.reaches⟩ calls
      (agree first (permuted.symm.subset present') m present)
  exact mem_records_iff.mpr
    ⟨⟨l, reordered.subset listed, logicOf⟩, first, found', same.trans described⟩

/-- **The order of the input makes no difference to a join,** as long as methods of one class and
name agree. The calls that match no method are noted in another order, each as often as before. -/
theorem join_reordered (agree : Agree j.methods) (permuted : j.methods.Perm methods)
    (reordered : logic.Perm logic') :
    (j.join logic).records = ({ j with methods }.join logic').records ∧
    ((j.join logic).notesOf .unresolvedCall).Perm
      (({ j with methods }.join logic').notesOf .unresolvedCall) ∧
    (j.join logic).notesOf .missingStatement =
      ({ j with methods }.join logic').notesOf .missingStatement := by
  refine ⟨?_, ?_, ?_⟩
  · have agree' : Agree methods := fun m present other present' =>
      agree m (permuted.symm.subset present) other (permuted.symm.subset present')
    have sorted (j : Joiner) (logic : List LogicMethod) :
        (j.join logic).records.Pairwise fun a b => a.order b = .lt := pairwise_records
    refine eq_of_pairwise_of_mem (sorted ..) (sorted ..) fun r => ?_
    exact ⟨mem_records_of_perm agree permuted reordered,
      mem_records_of_perm (j := { j with methods }) agree' permuted.symm reordered.symm⟩
  · rw [unresolvedCalls_join, unresolvedCalls_join]
    exact unresolvedNotes_perm permuted reordered
  · rw [missingStatements_join, missingStatements_join]
    exact missingNotes_eq_of_perm permuted reordered

end

/-- A method that two declarations name, one of them by a statement without namespace, and a method
of the same name whose statement is not there. -/
def sharedSave : Joiner where
  methods := [⟨"UserDao", "save", ⟨"UserMapper", "save"⟩, .create, ["user"]⟩,
    ⟨"UserDao", "save", ⟨"", "save"⟩, .create, ["user"]⟩,
    ⟨"OrderDao", "save", ⟨"OrderMapper", "put"⟩, .update, []⟩]
  statements := [(⟨"UserMapper", "save"⟩, ⟨.insert, ["users"], [("users", ["name"])]⟩)]
  parameters := [(⟨"OrderMapper", "put"⟩, ["id"])]

theorem join_reordered_shared :
    let reversed : Joiner := { sharedSave with methods := sharedSave.methods.reverse }
    let logic : List LogicMethod := [⟨"UserLogic", "store", ["userDao.save(user)", "log.info(id)"]⟩,
      ⟨"AdminLogic", "store", ["save", "audit.note(user)"]⟩]
    Agree sharedSave.methods ∧
      (sharedSave.join logic).records = (reversed.join logic.reverse).records ∧
      ((sharedSave.join logic).notesOf .unresolvedCall).Perm
        ((reversed.join logic.reverse).notesOf .unresolvedCall) ∧
      (sharedSave.join logic).notesOf .missingStatement =
        (reversed.join logic.reverse).notesOf .missingStatement := by
  have agree : Agree sharedSave.methods := by decide
  exact ⟨agree, join_reordered agree (List.reverse_perm _).symm (List.reverse_perm _).symm⟩

end Joiner
end TableAccess
