import TableAccess.Proofs.Lineage.JoinedRecords

/-! Which matches a join keeps. The key of a record has the name of the method and not what the
method does or takes, so methods of one class and name share the record that the first of them
has. All matches are kept exactly when such methods agree wherever an invocation reaches them for
one statement. -/
namespace TableAccess
namespace Joiner

/-- The key of the records of a match. -/
def keyOf (l : LogicMethod) (invoked : String) (m : DaoMethod) (id : StatementId) : LineageKey :=
  ⟨l.logicClass, l.logicMethod, m.qualifiedName, id, invoked⟩

/-- Whether a record is that of a match: of its logic, its invocation and its statement, and of the
method with what the method does and takes. -/
structure Keeps (j : Joiner) (l : LogicMethod) (invoked : String) (m : DaoMethod) (id : StatementId)
    (r : LineageRecord) : Prop where
  logicClass : r.logicClass = l.logicClass
  logicMethod : r.logicMethod = l.logicMethod
  invoked : r.invoked = invoked
  statement : r.statement = id
  daoClass : r.daoClass = m.daoClass
  daoMethod : r.daoMethod = m.method
  operation : r.operation = m.operation
  parameters : r.parameters = j.parametersOf m id

/-- Whether every match of some logic has a record of its own. -/
def KeepsAll (j : Joiner) (logic : List LogicMethod) : Prop :=
  ∀ l ∈ logic, ∀ invoked ∈ l.invocations, ∀ m ∈ j.methods, ∀ id, j.Calls invoked id m →
    ∃ r ∈ (j.join logic).records, j.Keeps l invoked m id r

section
variable {j : Joiner} {logic : List LogicMethod} {l : LogicMethod} {invoked : String}
  {m other : DaoMethod} {id : StatementId} {r : LineageRecord}

theorem Keeps.key_eq (keeps : j.Keeps l invoked m id r) : r.key = keyOf l invoked m id := by
  rw [LineageRecord.key, keeps.logicClass, keeps.logicMethod, keeps.daoClass, keeps.daoMethod,
    keeps.statement, keeps.invoked]
  rfl

/-- A match has a record exactly when the first method of its name that the invocation may call for
the statement does and takes the same. -/
theorem kept_iff (listed : l ∈ logic) (called : invoked ∈ l.invocations)
    (calls : j.Calls invoked id m) : (∃ r ∈ (j.join logic).records, j.Keeps l invoked m id r) ↔
      ∃ first ∈ j.firstCalled? (keyOf l invoked m id),
        first.operation = m.operation ∧ j.parametersOf first id = j.parametersOf m id := by
  constructor
  · rintro ⟨r, member, keeps⟩
    obtain ⟨_, first, found, described⟩ := mem_records_iff.mp member
    rw [keeps.key_eq] at found described
    refine ⟨first, found, ?_, ?_⟩
    · exact (congrArg LineageRecord.operation described).trans keeps.operation
    · exact (congrArg LineageRecord.parameters described).trans keeps.parameters
  · rintro ⟨first, found, sameOperation, sameParameters⟩
    obtain ⟨_, named, firstCalls⟩ := firstCalled?_eq_some found
    obtain ⟨sameClass, sameMethod⟩ := firstCalls.eq_of_qualifiedName calls named
    have key := key_describe (j := j) named
    refine ⟨j.describe (keyOf l invoked m id) first, mem_records_iff.mpr ⟨?_, first, ?_, ?_⟩, ?_⟩
    · exact ⟨l, listed, rfl, rfl, called⟩
    · rw [key, found]
    · rw [key]
    · exact ⟨rfl, rfl, rfl, rfl, sameClass, sameMethod, sameOperation, sameParameters⟩

/-- **All matches are kept exactly when the methods of one class and name that an invocation may
call for one statement do and take the same.** -/
theorem keeps_all_iff (j : Joiner) (logic : List LogicMethod) :
    j.KeepsAll logic ↔
      ∀ l ∈ logic, ∀ invoked ∈ l.invocations, ∀ m ∈ j.methods, ∀ other ∈ j.methods,
        m.daoClass = other.daoClass → ∀ id, j.Calls invoked id m → j.Calls invoked id other →
        m.operation = other.operation ∧ j.parametersOf m id = j.parametersOf other id := by
  constructor
  · intro keeps l listed invoked called m present other present' sameClass id calls calls'
    have sameKey : keyOf l invoked m id = keyOf l invoked other id := by
      rw [keyOf, keyOf, DaoMethod.qualifiedName, DaoMethod.qualifiedName, sameClass,
        calls.named.trans calls'.named.symm]
    obtain ⟨first, found, sameOperation, sameParameters⟩ :=
      (kept_iff listed called calls).mp (keeps l listed invoked called m present id calls)
    obtain ⟨first', found', sameOperation', sameParameters'⟩ :=
      (kept_iff listed called calls').mp (keeps l listed invoked called other present' id calls')
    rw [sameKey] at found
    obtain rfl := Option.mem_unique found found'
    exact ⟨sameOperation.symm.trans sameOperation', sameParameters.symm.trans sameParameters'⟩
  · intro agree l listed invoked called m present id calls
    obtain ⟨first, found⟩ : ∃ first, j.firstCalled? (keyOf l invoked m id) = some first :=
      exists_firstCalled? present rfl calls
    obtain ⟨present', named, calls'⟩ := firstCalled?_eq_some found
    have sameClass := (calls'.eq_of_qualifiedName calls named).1
    exact (kept_iff listed called calls).mpr
      ⟨first, found, agree l listed invoked called first present' m present sameClass id calls' calls⟩

end

/-- A declaration that adds a user. -/
def addingSave : DaoMethod := ⟨"UserDao", "save", ⟨"UserMapper", "save"⟩, .create, ["user"]⟩

/-- A declaration of the same method for the same statement that changes a user. -/
def changingSave : DaoMethod :=
  ⟨"UserDao", "save", ⟨"UserMapper", "save"⟩, .update, ["id", "user"]⟩

/-- What a join is given where a method is declared twice. -/
def overloadedSave : Joiner where
  methods := [addingSave, changingSave]
  statements := [(⟨"UserMapper", "save"⟩, ⟨.insert, ["users"], [("users", ["name"])]⟩)]
  parameters := []

/-- Of two declarations only the first one has a record. -/
theorem overload_merged_away :
    ¬ overloadedSave.KeepsAll [⟨"UserLogic", "store", ["userDao.save(user)"]⟩] := by
  intro keeps
  have present : changingSave ∈ overloadedSave.methods := by decide
  have calls : overloadedSave.Calls "userDao.save(user)" changingSave.statement changingSave := by
    decide +kernel
  have kept := keeps _ List.mem_cons_self _ List.mem_cons_self _ present _ calls
  obtain ⟨first, found, sameOperation, _⟩ :=
    (kept_iff List.mem_cons_self List.mem_cons_self calls).mp kept
  have adds : overloadedSave.firstCalled? (keyOf ⟨"UserLogic", "store", ["userDao.save(user)"]⟩
      "userDao.save(user)" changingSave changingSave.statement) = some addingSave := by
    decide +kernel
  obtain rfl := Option.mem_unique found adds
  cases sameOperation

end Joiner
end TableAccess
