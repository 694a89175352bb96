import TableAccess.Proofs.Collection

/-! The names of a scope as its declarations give them. A scope declares its tables and
then its named subqueries; what a name means afterwards is what the last declaration of
that name says, whatever was declared in between, and a map of names holds no table that
was not declared. -/
namespace TableAccess
namespace AliasMap
variable {m : AliasMap} {new e : AliasEntry} {entries declarations : List AliasEntry}
  {name table probe : String}

private theorem find?_place :
    ((place new entries).find? fun e => sameName e.aliasName probe) =
      if sameName new.aliasName probe then some new
      else entries.find? fun e => sameName e.aliasName probe := by
  induction entries with
  | nil => cases same : sameName new.aliasName probe <;> simp [place, same]
  | cons head rest ih =>
    rw [place]
    by_cases replaced : sameName head.aliasName new.aliasName = true
    · have alike := sameName_congr replaced probe
      cases same : sameName new.aliasName probe <;> simp [replaced, alike, same]
    · cases atHead : sameName head.aliasName probe with
      | false => simp [replaced, atHead, ih]
      | true =>
        have different : sameName new.aliasName probe = false := by
          rw [sameName_comm] at atHead ⊢
          rw [sameName_congr atHead]
          simpa using replaced
        simp [replaced, atHead, different]

/-- A new meaning replaces the old one and leaves all other names alone. -/
theorem find?_insert :
    (m.insert name table).find? probe =
      if sameName name probe then some table else m.find? probe := by
  simp only [find?, entry?, insert, find?_place]
  split <;> rfl

/-- Declare several names, each with a note where it had a meaning before. -/
def declareAll : AliasMap → List AliasEntry → AliasMap × List Diagnostic
  | m, [] => (m, [])
  | m, e :: rest =>
    let (m, notes) := m.insertNoting e.aliasName e.table
    let (m, more) := declareAll m rest
    (m, notes ++ more)

theorem addTables_eq_declareAll (canonical : String → String) (tables : List TableRef) :
    addTables canonical m tables =
      m.declareAll (tables.map fun t => ⟨t.key, canonical t.name⟩) := by
  induction tables generalizing m with
  | nil => rfl
  | cons t rest ih => simp only [addTables, List.map_cons, declareAll, ih]

/-- The names of tables depend on nothing but what the tables are called. -/
theorem ofTables_congr {canonical other : String → String} {tables : List TableRef}
    (same : ∀ t ∈ tables, canonical t.name = other t.name) :
    ofTables canonical tables = ofTables other tables := by
  have entries : (tables.map fun t => (⟨t.key, canonical t.name⟩ : AliasEntry)) =
      tables.map fun t => ⟨t.key, other t.name⟩ :=
    List.map_congr_left fun t present => by rw [same t present]
  rw [ofTables, ofTables, addTables_eq_declareAll, addTables_eq_declareAll, entries]

theorem declareAll_append (more : List AliasEntry) :
    m.declareAll (declarations ++ more) =
      ((m.declareAll declarations).1.declareAll more |>.1,
        (m.declareAll declarations).2 ++ ((m.declareAll declarations).1.declareAll more).2) := by
  induction declarations generalizing m with
  | nil => simp [declareAll]
  | cons e rest ih => simp only [List.cons_append, declareAll, ih, List.append_assoc]

/-- All that is noted about names is that they mean another table from now on. -/
theorem finding_of_mem_insertNoting {n : Diagnostic} (noted : n ∈ (m.insertNoting name table).2) :
    n.finding = .duplicateAlias := by
  obtain ⟨previous, _, rfl⟩ := List.mem_map.mp noted
  rfl

theorem finding_of_mem_declareAll {n : Diagnostic} (noted : n ∈ (m.declareAll declarations).2) :
    n.finding = .duplicateAlias := by
  induction declarations generalizing m with
  | nil => cases noted
  | cons e rest ih =>
    exact (List.mem_append.mp noted).elim finding_of_mem_insertNoting ih

/-- The table of the last declaration of a name. -/
def lastDeclared (declarations : List AliasEntry) (name : String) : Option String :=
  (declarations.reverse.find? fun e => sameName e.aliasName name).map AliasEntry.table

theorem lastDeclared_cons :
    lastDeclared (e :: declarations) name =
      (lastDeclared declarations name).or
        (if sameName e.aliasName name then some e.table else none) := by
  simp only [lastDeclared, List.reverse_cons, List.find?_append, Option.map_or]
  cases same : sameName e.aliasName name <;> simp [same]

theorem lastDeclared_eq_none_iff :
    lastDeclared declarations name = none ↔
      ∀ e ∈ declarations, sameName e.aliasName name = false := by
  simp [lastDeclared]

/-- A name that is declared once means what its declaration says. -/
theorem lastDeclared_of_distinct
    (distinct : declarations.Pairwise fun a b => sameName a.aliasName b.aliasName = false)
    (declared : e ∈ declarations) :
    lastDeclared declarations e.aliasName = some e.table := by
  induction declarations with
  | nil => cases declared
  | cons first rest ih =>
    obtain ⟨others, distinct⟩ := List.pairwise_cons.mp distinct
    rw [lastDeclared_cons]
    rcases List.mem_cons.mp declared with rfl | later
    · have none_ : lastDeclared rest e.aliasName = none := lastDeclared_eq_none_iff.mpr fun other member => by
        rw [sameName_comm]
        exact others other member
      rw [none_, Option.none_or, if_pos (sameName_refl _)]
    · rw [ih distinct later]
      rfl

/-- Among declarations of one table all names mean that table. -/
theorem lastDeclared_of_table (same : ∀ e ∈ declarations, e.table = table) (name : String) :
    lastDeclared declarations name =
      if hasName (declarations.map AliasEntry.aliasName) name then some table else none := by
  induction declarations with
  | nil => rfl
  | cons e rest ih =>
    obtain ⟨rfl, others⟩ := List.forall_mem_cons.mp same
    rw [lastDeclared_cons, ih others, hasName, hasName, List.map_cons, List.any_cons,
      sameName_comm e.aliasName name]
    cases sameName name e.aliasName <;> cases (rest.map AliasEntry.aliasName).any (sameName name) <;> rfl

/-- **The last declaration counts.** Names that are not declared keep their meaning. -/
theorem find?_declareAll :
    (m.declareAll declarations).1.find? name =
      (lastDeclared declarations name).or (m.find? name) := by
  induction declarations generalizing m with
  | nil => simp [declareAll, lastDeclared]
  | cons e rest ih =>
    simp only [declareAll, insertNoting, ih, find?_insert, lastDeclared_cons, Option.or_assoc]
    split <;> rfl

/-- A map is empty only when nothing was declared. -/
theorem entries_declareAll_eq_nil :
    (m.declareAll declarations).1.entries = [] ↔ m.entries = [] ∧ declarations = [] := by
  induction declarations generalizing m with
  | nil => simp [declareAll]
  | cons head rest ih =>
    have placed (entries : List AliasEntry) : place head entries ≠ [] := by
      cases entries <;> simp only [place, ne_eq]
      · exact List.cons_ne_nil _ _
      · split <;> exact List.cons_ne_nil _ _
    simp [declareAll, insertNoting, ih, insert, placed]

private theorem mem_place (held : e ∈ place new entries) : e = new ∨ e ∈ entries := by
  induction entries with
  | nil => exact .inl (List.mem_singleton.mp held)
  | cons head rest ih =>
    rw [place] at held
    split at held
    · exact (List.mem_cons.mp held).imp_right (List.mem_cons_of_mem _)
    · rcases List.mem_cons.mp held with rfl | held
      · exact .inr List.mem_cons_self
      · exact (ih held).imp_right (List.mem_cons_of_mem _)

theorem mem_tables_of_find? (found : m.find? name = some table) :
    table ∈ m.entries.map AliasEntry.table := by
  obtain ⟨entry, present, rfl⟩ := Option.map_eq_some_iff.mp found
  exact List.mem_map_of_mem (List.mem_of_find?_eq_some present)

private theorem pairwise_place
    (distinct : entries.Pairwise fun a b => sameName a.aliasName b.aliasName = false) :
    (place new entries).Pairwise fun a b => sameName a.aliasName b.aliasName = false := by
  induction entries with
  | nil => exact List.pairwise_singleton _ _
  | cons head rest ih =>
    obtain ⟨first, others⟩ := List.pairwise_cons.mp distinct
    rw [place]
    by_cases replaced : sameName head.aliasName new.aliasName = true
    · rw [if_pos replaced]
      refine List.pairwise_cons.mpr ⟨fun e held => ?_, others⟩
      rw [← sameName_congr replaced]
      exact first e held
    · rw [if_neg replaced]
      refine List.pairwise_cons.mpr ⟨fun e held => ?_, ih others⟩
      rcases mem_place held with rfl | held
      · simpa using replaced
      · exact first e held

/-- What is declared has one entry for each name. -/
theorem pairwise_declareAll
    (distinct : m.entries.Pairwise fun a b => sameName a.aliasName b.aliasName = false) :
    (m.declareAll declarations).1.entries.Pairwise
      fun a b => sameName a.aliasName b.aliasName = false := by
  induction declarations generalizing m with
  | nil => exact distinct
  | cons head rest ih => exact ih (m := m.insert head.aliasName head.table) (pairwise_place distinct)

private theorem find?_of_pairwise
    (distinct : entries.Pairwise fun a b => sameName a.aliasName b.aliasName = false)
    (held : e ∈ entries) : (entries.find? fun a => sameName a.aliasName e.aliasName) = some e := by
  induction entries with
  | nil => cases held
  | cons head rest ih =>
    obtain ⟨first, others⟩ := List.pairwise_cons.mp distinct
    rw [List.find?_cons]
    rcases List.mem_cons.mp held with rfl | held
    · simp
    · simp [first e held, ih others held]

/-- A map that is declared holds a table exactly when it is the last one that is declared for some
name. -/
theorem mem_tables_declareAll : table ∈ (empty.declareAll declarations).1.entries.map AliasEntry.table ↔
    ∃ name, lastDeclared declarations name = some table := by
  have meaning (name : String) : (empty.declareAll declarations).1.find? name =
      lastDeclared declarations name := by
    rw [find?_declareAll]
    exact Option.or_none
  simp only [← meaning]
  constructor
  · intro held
    obtain ⟨e, present, rfl⟩ := List.mem_map.mp held
    exact ⟨e.aliasName, congrArg (Option.map AliasEntry.table)
      (find?_of_pairwise (pairwise_declareAll .nil) present)⟩
  · rintro ⟨name, found⟩
    exact mem_tables_of_find? found

/-- A map has no entry that was not declared. -/
theorem mem_declarations_of_mem_entries (held : e ∈ (m.declareAll declarations).1.entries) :
    e ∈ m.entries ∨ e ∈ declarations := by
  induction declarations generalizing m with
  | nil => exact .inl held
  | cons head rest ih =>
    rcases ih (m := m.insert head.aliasName head.table) held with placed | declared
    · rcases mem_place placed with rfl | kept
      · exact .inr List.mem_cons_self
      · exact .inl kept
    · exact .inr (List.mem_cons_of_mem _ declared)

section
variable {seen names : List String}

/-- A name is among the distinct ones exactly when it is the first of its kind and was not seen. -/
theorem mem_distinctNames_iff : name ∈ distinctNames seen names ↔
    hasName seen name = false ∧ names.find? (sameName name) = some name := by
  induction names generalizing seen with
  | nil => simp [distinctNames]
  | cons first rest ih =>
    rw [distinctNames, List.find?_cons]
    cases known : hasName seen first with
    | true =>
      simp only [if_true, ih]
      cases same : sameName name first with
      | false => rfl
      | true =>
        have seenToo : hasName seen name = true := by
          rw [hasName, funext (sameName_congr same)]
          exact known
        simp [seenToo]
    | false =>
      simp only [Bool.false_eq_true, if_false, List.mem_cons, ih]
      have step : hasName (first :: seen) name = (sameName name first || hasName seen name) := rfl
      cases same : sameName name first with
      | false =>
        have other : name ≠ first := by
          rintro rfl
          rw [sameName_refl] at same
          cases same
        simp [step, same, other]
      | true =>
        simp only [step, same, Bool.true_or, Bool.true_eq_false, false_and, or_false, Option.some.injEq]
        constructor
        · rintro rfl
          exact ⟨known, rfl⟩
        · rintro ⟨_, rfl⟩
          rfl

theorem pairwise_distinctNames :
    (distinctNames seen names).Pairwise fun a b => sameName a b = false := by
  induction names generalizing seen with
  | nil => exact .nil
  | cons name rest ih =>
    rw [distinctNames]
    split
    · exact ih
    · refine List.pairwise_cons.mpr ⟨fun a member => ?_, ih⟩
      have new := (mem_distinctNames_iff.mp member).1
      rw [hasName, List.any_cons, Bool.or_eq_false_iff] at new
      exact (sameName_comm _ _).trans new.1

private theorem mem_of_mem_distinctNames (held : name ∈ distinctNames seen names) : name ∈ names :=
  List.mem_of_find?_eq_some (mem_distinctNames_iff.mp held).2

end

/-- The distinct tables of a map are tables of its entries. -/
theorem mem_entries_of_mem_tables (held : table ∈ m.tables) :
    table ∈ m.entries.map AliasEntry.table := mem_of_mem_distinctNames held

private theorem distinctNames_of_seen {seen names : List String} (known : hasName seen table = true)
    (same : ∀ name ∈ names, name = table) : distinctNames seen names = [] := by
  induction names with
  | nil => rfl
  | cons name rest ih =>
    obtain ⟨rfl, others⟩ := List.forall_mem_cons.mp same
    rw [distinctNames, if_pos known, ih others]

/-- A map whose entries have one table has that table only. -/
theorem tables_of_table {m : AliasMap} (some_ : m.entries ≠ []) (same : ∀ e ∈ m.entries, e.table = table) :
    m.tables = [table] := by
  obtain ⟨e, rest, split⟩ := List.exists_cons_of_ne_nil some_
  obtain ⟨first, others⟩ := List.forall_mem_cons.mp (split ▸ same)
  have seen : hasName [table] table = true := by simp [hasName]
  rw [tables, split, List.map_cons, first, distinctNames, if_neg (by simp [hasName]),
    distinctNames_of_seen seen (List.forall_mem_map.mpr others)]

end AliasMap
end TableAccess
