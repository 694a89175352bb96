import TableAccess.Lineage.Join
import TableAccess.Proofs.Collection

/-! Which matches the records of a join stand for. A record is known by its key, and of the matches
with one key the first one is kept. Whatever logic lists an invocation, the methods that it may call
are the same and come in the same order, so a key decides by itself which method its record
describes. -/
namespace TableAccess

/-- What a record is known by: the method of the logic, the data access method under its written
name, the statement, and the invocation. -/
structure LineageKey where
  logicClass : String
  logicMethod : String
  dao : String
  statement : StatementId
  invoked : String
deriving DecidableEq, Repr, Inhabited

/-- By the parts of a key, one after the other. -/
def LineageKey.order (a b : LineageKey) : Ordering :=
  (compare a.logicClass b.logicClass).then <|
    (compare a.logicMethod b.logicMethod).then <|
      (compare a.dao b.dao).then <|
        (a.statement.order b.statement).then (compare a.invoked b.invoked)

/-- What a record is known by. -/
def LineageRecord.key (r : LineageRecord) : LineageKey :=
  ⟨r.logicClass, r.logicMethod, r.daoClass ++ "." ++ r.daoMethod, r.statement, r.invoked⟩

theorem StatementId.order_eq_eq_iff {a b : StatementId} : a.order b = .eq ↔ a = b := by
  obtain ⟨space, id⟩ := a
  obtain ⟨space', id'⟩ := b
  simp [order, Ordering.then_eq_eq]

theorem LineageKey.order_eq_eq_iff {a b : LineageKey} : a.order b = .eq ↔ a = b := by
  cases a
  cases b
  simp [order, Ordering.then_eq_eq, StatementId.order_eq_eq_iff]

instance : Std.TransCmp StatementId.order :=
  inferInstanceAs (Std.TransCmp (compareLex (compareOn StatementId.space) (compareOn StatementId.id)))

instance : Std.TransCmp LineageRecord.order :=
  inferInstanceAs (Std.TransCmp (compareLex (compareOn LineageRecord.logicClass)
    (compareLex (compareOn LineageRecord.logicMethod)
      (compareLex (compareOn fun r : LineageRecord => r.daoClass ++ "." ++ r.daoMethod)
        (compareLex (compareLex (compareOn fun r : LineageRecord => r.statement.space)
            (compareOn fun r : LineageRecord => r.statement.id))
          (compareOn LineageRecord.invoked))))))

theorem LineageRecord.order_eq_key_order (a b : LineageRecord) : a.order b = a.key.order b.key := rfl

/-- Records that are not told apart by their order have the same key. -/
theorem LineageRecord.order_beq_eq (a b : LineageRecord) : (a.order b == .eq) = (a.key == b.key) := by
  rw [Bool.eq_iff_iff, beq_iff_eq, beq_iff_eq, order_eq_key_order, LineageKey.order_eq_eq_iff]

/-- Whether a reference to a statement means an identifier: that identifier itself or, without a
namespace, any one with the same name. -/
def StatementId.Means (reference id : StatementId) : Prop :=
  id = reference ∨ (reference.hasSpace = false ∧ id.id = reference.id)

namespace Joiner
variable (j : Joiner)

/-- The identifiers of the statements that are there. -/
def known : List StatementId := j.statements.map Prod.fst

/-- Whether a reference leads to an identifier: to each statement that it means, or to itself if
there is none. -/
def Reaches (reference id : StatementId) : Prop :=
  (id ∈ j.known ∧ reference.Means id) ∨ ((∀ other ∈ j.known, ¬ reference.Means other) ∧ id = reference)

/-- Whether an invocation may call a method for a statement. -/
structure Calls (invoked : String) (id : StatementId) (m : DaoMethod) : Prop where
  named : m.method = Invocation.method invoked
  reaches : j.Reaches m.statement id

instance (reference id : StatementId) : Decidable (reference.Means id) :=
  inferInstanceAs (Decidable (_ ∨ _))

instance (reference id : StatementId) : Decidable (j.Reaches reference id) :=
  inferInstanceAs (Decidable (_ ∨ _))

instance (invoked : String) (id : StatementId) (m : DaoMethod) : Decidable (j.Calls invoked id m) :=
  decidable_of_iff (m.method = Invocation.method invoked ∧ j.Reaches m.statement id)
    ⟨fun ⟨named, reaches⟩ => ⟨named, reaches⟩, fun ⟨named, reaches⟩ => ⟨named, reaches⟩⟩

/-- The first method of a written name that an invocation may call for a statement. -/
def firstCalled? (key : LineageKey) : Option DaoMethod :=
  j.methods.find? fun m => m.qualifiedName = key.dao ∧ j.Calls key.invoked key.statement m

/-- The record of a key that describes a method. -/
def describe (key : LineageKey) (m : DaoMethod) : LineageRecord :=
  j.record ⟨key.logicClass, key.logicMethod, []⟩ key.invoked m key.statement
    (j.statements.lookup key.statement)

/-- The statements that a reference leads to, with what is known of them. -/
def reached (reference : StatementId) : List (StatementId × Option Access) :=
  match j.statementsOf reference with
  | [] => [(reference, none)]
  | found => found.map fun (id, access) => (id, some access)

/-- The records of all matches, in the order in which they are found. -/
def matched (logic : List LogicMethod) : List LineageRecord :=
  logic.flatMap fun l => l.invocations.flatMap fun invoked =>
    (j.candidates invoked).flatMap fun m => (j.matchMethod l invoked m).records

section
variable {j} {l : LogicMethod} {logic : List LogicMethod} {invoked : String} {m : DaoMethod}
  {reference id : StatementId} {key : LineageKey}

private theorem fits_eq (entry : StatementId × Access) :
    (if reference.hasSpace then entry.1 == reference else entry.1.id == reference.id) =
      decide (reference.Means entry.1) := by
  rw [Bool.eq_iff_iff, decide_eq_true_iff, StatementId.Means]
  cases spaced : reference.hasSpace with
  | true => simp
  | false =>
    simp only [Bool.false_eq_true, if_false, beq_iff_eq, true_and]
    exact ⟨.inr, fun means => means.elim (congrArg StatementId.id) id⟩

theorem statementsOf_eq : j.statementsOf reference =
    j.statements.filter fun entry => decide (reference.Means entry.1) := by
  simp only [statementsOf, fits_eq]

theorem reaches_of_means (means : ∃ other ∈ j.known, reference.Means other) :
    j.Reaches reference id ↔ id ∈ j.known ∧ reference.Means id := by
  obtain ⟨other, present, means⟩ := means
  exact or_iff_left fun ⟨absent, _⟩ => absent other present means

theorem reaches_of_absent (absent : ∀ other ∈ j.known, ¬ reference.Means other) :
    j.Reaches reference id ↔ id = reference := by
  constructor
  · rintro (⟨present, means⟩ | ⟨_, itself⟩)
    · exact absurd means (absent id present)
    · exact itself
  · exact fun itself => .inr ⟨absent, itself⟩

theorem lookup_eq_find? {β : Type} (entries : List (StatementId × β)) :
    entries.lookup id = (entries.find? fun entry => entry.1 == id).map Prod.snd := by
  induction entries with
  | nil => rfl
  | cons entry rest ih =>
    obtain ⟨first, value⟩ := entry
    rw [List.lookup_cons, List.find?_cons, ih, Bool.beq_comm]
    cases first == id <;> rfl

private theorem find?_entry (entries : List (StatementId × Access)) :
    (entries.find? fun entry => entry.1 == id) =
      (entries.lookup id).map fun access => (id, access) := by
  rw [lookup_eq_find?]
  cases found : entries.find? fun entry => entry.1 == id with
  | none => rfl
  | some entry =>
    have same : entry.1 = id := by simpa using List.find?_some found
    simp [← same]

theorem lookup_eq_none_iff : j.statements.lookup id = none ↔ id ∉ j.known := by
  rw [List.lookup_eq_none_iff, known, List.mem_map]
  constructor
  · rintro others ⟨entry, present, rfl⟩
    simpa using others entry present
  · intro absent entry present
    exact bne_iff_ne.mpr fun same => absent ⟨entry, present, same.symm⟩

theorem statementsOf_eq_nil_iff :
    j.statementsOf reference = [] ↔ ∀ other ∈ j.known, ¬ reference.Means other := by
  rw [statementsOf_eq, List.filter_eq_nil_iff, known, List.forall_mem_map]
  simp only [decide_eq_true_iff]

private theorem find?_statementsOf : ((j.statementsOf reference).find? fun entry => entry.1 == id) =
    if reference.Means id then (j.statements.lookup id).map fun access => (id, access) else none := by
  rw [statementsOf_eq, List.find?_filter]
  split
  · rename_i fits
    rw [← find?_entry]
    congr 1
    funext entry
    by_cases same : entry.1 = id <;> simp [same, fits]
  · rename_i unfit
    refine List.find?_eq_none.mpr fun entry _ kept => unfit ?_
    obtain ⟨fits, same⟩ := of_decide_eq_true kept
    rw [← beq_iff_eq.mp same]
    exact of_decide_eq_true fits

/-- A reference leads to an identifier at most once, with what is known of it. -/
theorem find?_reached : ((j.reached reference).find? fun entry => entry.1 == id) =
    if j.Reaches reference id then some (id, j.statements.lookup id) else none := by
  unfold reached
  split
  · rename_i nothing
    have absent := statementsOf_eq_nil_iff.mp nothing
    have unknown : j.statements.lookup reference = none :=
      lookup_eq_none_iff.mpr fun present => absent reference present (.inl rfl)
    simp only [reaches_of_absent absent]
    by_cases itself : id = reference
    · simp [itself, unknown]
    · simp [itself, Ne.symm itself]
  · rename_i found
    have means : ∃ other ∈ j.known, reference.Means other := by
      by_contra none
      exact found (statementsOf_eq_nil_iff.mpr fun other present means => none ⟨other, present, means⟩)
    have mapped : ((fun entry : StatementId × Option Access => entry.1 == id) ∘
        fun (entry : StatementId × Access) => (entry.1, some entry.2)) =
          fun entry => entry.1 == id := rfl
    rw [List.find?_map, mapped, find?_statementsOf]
    simp only [reaches_of_means means]
    cases lookup : j.statements.lookup id with
    | none => simp [lookup_eq_none_iff.mp lookup]
    | some access =>
      have present : id ∈ j.known := by
        by_contra absent
        rw [lookup_eq_none_iff.mpr absent] at lookup
        cases lookup
      by_cases fits : reference.Means id <;> simp [fits, present]

theorem records_matchMethod : (j.matchMethod l invoked m).records =
    (j.reached m.statement).map fun (id, access) => j.record l invoked m id access := by
  unfold matchMethod reached
  split <;> simp [*]

theorem records_matchInvocation : (j.matchInvocation l invoked).flatMap Match.records =
    (j.candidates invoked).flatMap fun m => (j.matchMethod l invoked m).records := by
  unfold matchInvocation
  split
  · rename_i nothing
    simp [nothing]
  · exact List.flatMap_map ..

/-- A join sorts the records of all matches. -/
theorem records_join : (j.join logic).records = sortedNew LineageRecord.order (j.matched logic) := by
  simp only [join, matched, List.flatMap_assoc, records_matchInvocation]

private theorem key_record_eq_iff {access : Option Access} :
    (j.record l invoked m id access).key = key ↔
      ((l.logicClass = key.logicClass ∧ l.logicMethod = key.logicMethod ∧ invoked = key.invoked) ∧
        m.qualifiedName = key.dao) ∧ id = key.statement := by
  have parts : (j.record l invoked m id access).key =
      ⟨l.logicClass, l.logicMethod, m.qualifiedName, id, invoked⟩ := rfl
  cases key
  rw [parts, LineageKey.mk.injEq]
  tauto

/-- A call of a method has one record with a key, if the method is called so and leads to the
statement. -/
private theorem find?_matchMethod :
    ((j.matchMethod l invoked m).records.find? fun r => r.key == key) =
      if ((l.logicClass = key.logicClass ∧ l.logicMethod = key.logicMethod ∧ invoked = key.invoked) ∧
        m.qualifiedName = key.dao) ∧ j.Reaches m.statement key.statement
      then some (j.describe key m) else none := by
  rw [records_matchMethod, List.find?_map]
  by_cases here : (l.logicClass = key.logicClass ∧ l.logicMethod = key.logicMethod ∧
      invoked = key.invoked) ∧ m.qualifiedName = key.dao
  · have decided : ((fun r => r.key == key) ∘ fun (entry : StatementId × Option Access) =>
        j.record l invoked m entry.1 entry.2) = fun entry => entry.1 == key.statement := by
      funext entry
      rw [Function.comp_apply, Bool.eq_iff_iff, beq_iff_eq, beq_iff_eq, key_record_eq_iff]
      exact and_iff_right here
    rw [decided, find?_reached]
    obtain ⟨⟨sameClass, sameMethod, sameText⟩, sameName⟩ := here
    by_cases reaches : j.Reaches m.statement key.statement
    · simp only [reaches, sameName, sameClass, sameMethod, sameText, and_self, if_true,
        Option.map_some, describe, record]
    · simp only [reaches, and_false, if_false, Option.map_none]
  · have absent : (j.reached m.statement).find? ((fun r => r.key == key) ∘
        fun (entry : StatementId × Option Access) => j.record l invoked m entry.1 entry.2) = none := by
      refine List.find?_eq_none.mpr fun entry _ same => here ?_
      rw [Function.comp_apply, beq_iff_eq, key_record_eq_iff] at same
      exact same.1
    rw [absent, if_neg fun holds => here holds.1, Option.map_none]

section
variable {α β : Type} {p : α → Prop} [DecidablePred p]

private theorem findSome?_const {result : Option β} (items : List α) :
    (items.findSome? fun a => if p a then result else none) =
      if ∃ a ∈ items, p a then result else none := by
  induction items with
  | nil => simp
  | cons a rest ih =>
    rw [List.findSome?_cons, ih]
    by_cases holds : p a
    · cases result <;> simp [holds]
    · simp [holds]

private theorem findSome?_some {f : α → β} (items : List α) :
    (items.findSome? fun a => if p a then some (f a) else none) =
      (items.find? fun a => p a).map f := by
  induction items with
  | nil => rfl
  | cons a rest ih => by_cases holds : p a <;> simp [holds, ih]

end

/-- The first match of an invocation with a key is the first method of its name that may be called
for the statement. -/
private theorem find?_candidates :
    ((j.candidates invoked).findSome? fun m =>
      (j.matchMethod l invoked m).records.find? fun r => r.key == key) =
      if l.logicClass = key.logicClass ∧ l.logicMethod = key.logicMethod ∧ invoked = key.invoked
      then (j.firstCalled? key).map (j.describe key) else none := by
  simp only [find?_matchMethod]
  by_cases here : l.logicClass = key.logicClass ∧ l.logicMethod = key.logicMethod ∧
      invoked = key.invoked
  · obtain ⟨sameClass, sameMethod, rfl⟩ := here
    have called (m : DaoMethod) :
        ((m.method == Invocation.method key.invoked) = true ∧
          decide (m.qualifiedName = key.dao ∧ j.Reaches m.statement key.statement) = true) ↔
        m.qualifiedName = key.dao ∧ j.Calls key.invoked key.statement m := by
      rw [beq_iff_eq, decide_eq_true_iff]
      constructor
      · rintro ⟨named, sameName, reaches⟩
        exact ⟨sameName, named, reaches⟩
      · rintro ⟨sameName, named, reaches⟩
        exact ⟨named, sameName, reaches⟩
    simp only [sameClass, sameMethod, and_self, true_and, if_true]
    rw [findSome?_some, candidates, List.find?_filter, firstCalled?]
    simp only [called]
  · simp [here]

/-- Whatever lists an invocation, the record of a key describes the first method of its name that
the invocation may call for the statement. -/
theorem find?_matched : ((j.matched logic).find? fun r => r.key == key) =
    if ∃ l ∈ logic, l.logicClass = key.logicClass ∧ l.logicMethod = key.logicMethod ∧
      key.invoked ∈ l.invocations
    then (j.firstCalled? key).map (j.describe key) else none := by
  have listed (l : LogicMethod) :
      (∃ invoked ∈ l.invocations, l.logicClass = key.logicClass ∧ l.logicMethod = key.logicMethod ∧
        invoked = key.invoked) ↔
      l.logicClass = key.logicClass ∧ l.logicMethod = key.logicMethod ∧
        key.invoked ∈ l.invocations := by
    constructor
    · rintro ⟨invoked, member, sameClass, sameMethod, rfl⟩
      exact ⟨sameClass, sameMethod, member⟩
    · rintro ⟨sameClass, sameMethod, member⟩
      exact ⟨key.invoked, member, sameClass, sameMethod, rfl⟩
  simp only [matched, List.find?_flatMap, find?_candidates, findSome?_const, listed]

end
end Joiner
end TableAccess
