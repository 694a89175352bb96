import TableAccess.Proofs.Lineage.Matching

/-! What a join answers. Its records come in the order of their keys, each key once. There is a
record of a key exactly when some logic lists the invocation and some method of the name may be
called by it for the statement; the record then describes the first such method and the statement.
The name of a method with its class tells the methods that one invocation may call apart. -/
namespace TableAccess
namespace Joiner

/-- Whether a record says of a method and of its statement what is known of them. -/
structure Describes (j : Joiner) (m : DaoMethod) (r : LineageRecord) : Prop where
  operation : r.operation = m.operation
  parameters : r.parameters =
    if m.parameters = [] then (j.parameters.lookup r.statement).getD [] else m.parameters
  tables : r.tables = ((j.statements.lookup r.statement).map Access.tables).getD []
  columns : r.columns = ((j.statements.lookup r.statement).map Access.columns).getD []

section
variable {j : Joiner} {logic : List LogicMethod} {key : LineageKey} {m other : DaoMethod}
  {r : LineageRecord} {id : StatementId} {invoked : String}

/-- Parameters that are not declared are those of the statement. -/
theorem parametersOf_eq : j.parametersOf m id =
    if m.parameters = [] then (j.parameters.lookup id).getD [] else m.parameters := by
  unfold parametersOf
  cases m.parameters with
  | cons first rest => simp
  | nil =>
    simp only [List.isEmpty_nil, Bool.not_true, Bool.false_eq_true, if_false, if_true,
      lookup_eq_find?]
    cases j.parameters.find? fun entry => entry.1 == id <;> rfl

theorem describes_describe : j.Describes m (j.describe key m) where
  operation := rfl
  parameters := parametersOf_eq
  tables := rfl
  columns := rfl

/-- Two methods that one invocation may call are the same method of the same class if they have the
same name. -/
theorem Calls.eq_of_qualifiedName (calls : j.Calls invoked id m) (calls' : j.Calls invoked id other)
    (same : m.qualifiedName = other.qualifiedName) :
    m.daoClass = other.daoClass ∧ m.method = other.method := by
  have named : m.method = other.method := calls.named.trans calls'.named.symm
  refine ⟨?_, named⟩
  rw [DaoMethod.qualifiedName, DaoMethod.qualifiedName, named] at same
  simpa using same

/-- Records come in the order of their keys, and no key comes twice. -/
theorem pairwise_records : (j.join logic).records.Pairwise fun a b => a.key.order b.key = .lt := by
  have sorted : (sortedNew LineageRecord.order (j.matched logic)).Pairwise
      fun a b => a.order b = .lt := pairwise_sortedNew
  rw [records_join]
  exact sorted

/-- A record describes the first method of its name that its invocation may call. -/
theorem mem_records_iff : r ∈ (j.join logic).records ↔
    (∃ l ∈ logic, l.logicClass = r.logicClass ∧ l.logicMethod = r.logicMethod ∧
      r.invoked ∈ l.invocations) ∧
    ∃ m, j.firstCalled? r.key = some m ∧ j.describe r.key m = r := by
  have sorted : (j.join logic).records.Pairwise fun a b => a.order b = .lt := pairwise_records
  have first : r ∈ (j.join logic).records ↔
      ((j.matched logic).find? fun other => other.key == r.key) = some r := by
    rw [mem_iff_find?_of_pairwise sorted, records_join, find?_sortedNew]
    simp only [LineageRecord.order_beq_eq]
  rw [first, find?_matched]
  split
  · rename_i listed
    rw [Option.map_eq_some_iff]
    exact (and_iff_right listed).symm
  · rename_i unlisted
    simp only [reduceCtorEq, false_iff]
    exact fun ⟨listed, _⟩ => unlisted listed

theorem firstCalled?_eq_some (found : j.firstCalled? key = some m) :
    m ∈ j.methods ∧ m.qualifiedName = key.dao ∧ j.Calls key.invoked key.statement m := by
  unfold firstCalled? at found
  have kept := List.find?_some found
  exact ⟨List.mem_of_find?_eq_some found, of_decide_eq_true kept⟩

theorem exists_firstCalled? (present : m ∈ j.methods) (named : m.qualifiedName = key.dao)
    (calls : j.Calls key.invoked key.statement m) : ∃ first, j.firstCalled? key = some first :=
  Option.isSome_iff_exists.mp (List.find?_isSome.mpr ⟨m, present, decide_eq_true ⟨named, calls⟩⟩)

theorem key_describe (named : m.qualifiedName = key.dao) : (j.describe key m).key = key := by
  cases key
  exact congrArg (LineageKey.mk _ _ · _ _) named

/-- There is a record of a key where an invocation and a method are found for it. -/
theorem exists_record_iff : (∃ r ∈ (j.join logic).records, r.key = key) ↔
    (∃ l ∈ logic, l.logicClass = key.logicClass ∧ l.logicMethod = key.logicMethod ∧
      key.invoked ∈ l.invocations) ∧
    ∃ m ∈ j.methods, m.qualifiedName = key.dao ∧ j.Calls key.invoked key.statement m := by
  constructor
  · rintro ⟨r, member, rfl⟩
    obtain ⟨listed, m, found, _⟩ := mem_records_iff.mp member
    exact ⟨listed, m, firstCalled?_eq_some found⟩
  · rintro ⟨listed, m, present, named, calls⟩
    obtain ⟨first, found⟩ := exists_firstCalled? present named calls
    have same : (j.describe key first).key = key := key_describe (firstCalled?_eq_some found).2.1
    refine ⟨j.describe key first, mem_records_iff.mpr ⟨listed, first, ?_, ?_⟩, same⟩
    · rw [same, found]
    · rw [same]

/-- Among the methods that the invocation of a record may call, the written name of its method is
that of no other class or method. -/
theorem sameMethod_iff (found : j.firstCalled? r.key = some m) (described : j.describe r.key m = r)
    (other : DaoMethod) :
    (other.daoClass = r.daoClass ∧ other.method = r.daoMethod ∧ j.Calls r.invoked r.statement other) ↔
      other.qualifiedName = r.key.dao ∧ j.Calls r.invoked r.statement other := by
  obtain ⟨_, named, calls⟩ := firstCalled?_eq_some found
  have ofClass : m.daoClass = r.daoClass := congrArg LineageRecord.daoClass described
  have ofMethod : m.method = r.daoMethod := congrArg LineageRecord.daoMethod described
  constructor
  · rintro ⟨sameClass, sameMethod, calls'⟩
    refine ⟨?_, calls'⟩
    rw [DaoMethod.qualifiedName, sameClass, sameMethod]
    rfl
  · rintro ⟨sameName, calls'⟩
    obtain ⟨sameClass, sameMethod⟩ := calls'.eq_of_qualifiedName calls (sameName.trans named.symm)
    exact ⟨sameClass.trans ofClass, sameMethod.trans ofMethod, calls'⟩

/-- The first method of a record is the first one of its class and its name. -/
theorem find?_of_firstCalled? (found : j.firstCalled? r.key = some m)
    (described : j.describe r.key m = r) :
    (j.methods.find? fun m => m.daoClass = r.daoClass ∧ m.method = r.daoMethod ∧
      j.Calls r.invoked r.statement m) = some m := by
  simp only [sameMethod_iff found described]
  exact found

/-- **A join has a record for each key that a match has, and no other.** The record describes the
first method that it may be about, and its key is that of no method of another class or name. -/
theorem records_exact (j : Joiner) (logic : List LogicMethod) :
    ((j.join logic).records.Pairwise fun a b => a.key.order b.key = .lt) ∧
    (∀ key, (∃ r ∈ (j.join logic).records, r.key = key) ↔
      (∃ l ∈ logic, l.logicClass = key.logicClass ∧ l.logicMethod = key.logicMethod ∧
        key.invoked ∈ l.invocations) ∧
      ∃ m ∈ j.methods, m.qualifiedName = key.dao ∧ j.Calls key.invoked key.statement m) ∧
    ∀ r ∈ (j.join logic).records,
      (∃ m, j.Describes m r ∧
        (j.methods.find? fun m => m.daoClass = r.daoClass ∧ m.method = r.daoMethod ∧
          j.Calls r.invoked r.statement m) = some m) ∧
      ∀ m ∈ j.methods, m.qualifiedName = r.key.dao → j.Calls r.invoked r.statement m →
        m.daoClass = r.daoClass ∧ m.method = r.daoMethod := by
  refine ⟨pairwise_records, fun key => exists_record_iff, fun r member => ?_⟩
  obtain ⟨_, first, found, described⟩ := mem_records_iff.mp member
  refine ⟨⟨first, described ▸ describes_describe, find?_of_firstCalled? found described⟩, ?_⟩
  intro m _ named calls
  obtain ⟨sameClass, sameMethod, _⟩ := (sameMethod_iff found described m).mpr ⟨named, calls⟩
  exact ⟨sameClass, sameMethod⟩

end
end Joiner
end TableAccess
