import TableAccess.Proofs.Lineage.Reordering

/-! What a join notes. A call that reaches no method is noted each time that it is listed, in the
order of the logic. A statement that is not there is noted once for each written name of a method
that is called for it, however many calls reach the method, in the order of names and statements.
Nothing else is noted: a call with a method leaves no note, nor does a method without a call. -/
namespace TableAccess
namespace Joiner

/-- The calls that some logic lists, each with what lists it, in order and as often as listed. -/
def calls (logic : List LogicMethod) : List (LogicMethod × String) :=
  logic.flatMap fun l => l.invocations.map fun invoked => (l, invoked)

/-- Whether no method has the name that an invocation calls. -/
def Unmatched (j : Joiner) (invoked : String) : Prop :=
  ∀ m ∈ j.methods, m.method ≠ Invocation.method invoked

instance (j : Joiner) (invoked : String) : Decidable (j.Unmatched invoked) :=
  inferInstanceAs (Decidable (∀ m ∈ j.methods, m.method ≠ _))

/-- Whether some logic calls a method for a statement that is not there: the name of the method
with its class, and the reference that means none of the known statements. -/
def Lacks (j : Joiner) (logic : List LogicMethod) (absent : String × StatementId) : Prop :=
  ∃ call ∈ calls logic, ∃ m ∈ j.methods, m.method = Invocation.method call.2 ∧
    (∀ id ∈ j.known, ¬ m.statement.Means id) ∧ (m.qualifiedName, m.statement) = absent

section
variable {j : Joiner} {logic : List LogicMethod} {l : LogicMethod} {invoked : String}
  {m : DaoMethod} {call : LogicMethod × String} {absent : String × StatementId}

theorem mem_calls : call ∈ calls logic ↔ call.1 ∈ logic ∧ call.2 ∈ call.1.invocations := by
  simp only [calls, List.mem_flatMap, List.mem_map]
  constructor
  · rintro ⟨l, listed, invoked, called, rfl⟩
    exact ⟨listed, called⟩
  · rintro ⟨listed, called⟩
    exact ⟨call.1, listed, call.2, called, rfl⟩

theorem candidates_eq_nil_iff : j.candidates invoked = [] ↔ j.Unmatched invoked := by
  simp only [candidates, Unmatched, List.filter_eq_nil_iff, beq_iff_eq, ne_eq]

theorem mem_candidates :
    m ∈ j.candidates invoked ↔ m ∈ j.methods ∧ m.method = Invocation.method invoked := by
  rw [candidates, List.mem_filter, beq_iff_eq]

/-- The calls without a method are noted one by one. -/
theorem unresolvedNotes_eq : j.unresolvedNotes logic =
    ((calls logic).filter fun call => j.Unmatched call.2).map fun call =>
      unresolved call.1 call.2 := by
  have each (l : LogicMethod) :
      (l.invocations.flatMap fun invoked =>
        if j.candidates invoked = [] then [unresolved l invoked] else []) =
      ((l.invocations.map fun invoked => (l, invoked)).filter fun call => j.Unmatched call.2).map
        fun call => unresolved call.1 call.2 := by
    induction l.invocations with
    | nil => rfl
    | cons invoked rest ih =>
      rw [List.flatMap_cons, ih, List.map_cons, List.filter_cons]
      by_cases unmatched : j.Unmatched invoked
      · simp [candidates_eq_nil_iff, unmatched]
      · simp [candidates_eq_nil_iff, unmatched]
  simp only [unresolvedNotes, calls, List.filter_flatMap, List.map_flatMap, each]

/-- A method leaves its statement out exactly if its reference means none that is there. -/
theorem mem_missing_matchMethod : absent ∈ (j.matchMethod l invoked m).missing ↔
    (∀ id ∈ j.known, ¬ m.statement.Means id) ∧ (m.qualifiedName, m.statement) = absent := by
  rw [← statementsOf_eq_nil_iff]
  unfold matchMethod
  split
  · rename_i nothing
    simp [nothing, eq_comm]
  · rename_i found
    simp only [List.not_mem_nil, false_iff, not_and]
    intro nothing
    exact (found nothing).elim

theorem mem_absentStatements : absent ∈ j.absentStatements logic ↔ j.Lacks logic absent := by
  simp only [absentStatements, List.mem_flatMap, mem_missing_matchMethod, mem_candidates]
  constructor
  · rintro ⟨l, listed, invoked, called, m, ⟨present, named⟩, lacking⟩
    exact ⟨(l, invoked), mem_calls.mpr ⟨listed, called⟩, m, present, named, lacking⟩
  · rintro ⟨call, listed, m, present, named, lacking⟩
    obtain ⟨listed, called⟩ := mem_calls.mp listed
    exact ⟨call.1, listed, call.2, called, m, ⟨present, named⟩, lacking⟩

end
end Joiner
end TableAccess
