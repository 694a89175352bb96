import TableAccess.Proofs.Access.Contents
import TableAccess.Proofs.Binding.Lookup

/-! The tables of a statement are exactly those that its scopes read or declare. Which scopes
count, and which named queries each of them sees, can be told from the tree alone: a body sees the
named queries declared in front of it where it is declared, and everything that its surroundings
see, and what a table is called depends on the names of these only and not on their columns.
Nothing else gets into the set, whatever the names of a scope do to each other; a table can only
get lost where a name is used twice in one scope, which is noted. -/
namespace TableAccess

namespace AliasMap
variable {m : AliasMap} {new : AliasEntry} {entries declarations : List AliasEntry}

private theorem place_of_absent
    (absent : ∀ e ∈ entries, sameName e.aliasName new.aliasName = false) :
    place new entries = entries ++ [new] := by
  induction entries with
  | nil => rfl
  | cons head rest ih =>
    obtain ⟨first, others⟩ := List.forall_mem_cons.mp absent
    rw [place, first, ih others]
    rfl

/-- Names that are declared without a note are new, so each keeps an entry of its own. -/
theorem entries_declareAll_of_unnoted (unnoted : (m.declareAll declarations).2 = []) :
    (m.declareAll declarations).1.entries = m.entries ++ declarations := by
  induction declarations generalizing m with
  | nil => exact (List.append_nil _).symm
  | cons e rest ih =>
    obtain ⟨here, later⟩ := List.append_eq_nil_iff.mp unnoted
    have unused : m.find? e.aliasName = none := by
      simpa [insertNoting] using here
    have absent : ∀ old ∈ m.entries, sameName old.aliasName e.aliasName = false := by
      simpa [find?, entry?] using unused
    have placed : (m.insert e.aliasName e.table).entries = m.entries ++ [e] :=
      place_of_absent absent
    have whole := ih (m := m.insert e.aliasName e.table) later
    rw [placed, List.append_assoc] at whole
    exact whole

end AliasMap

namespace Scope

/-- The names of the named queries that the body of a scope sees, the latest first. -/
def seenNames (named : List String) (s : Scope) : List String :=
  (s.ctes.map Cte.aliasName).reverse ++ named

/-- The scopes of a tree that lie within a bound, each with the names of the named queries that it
sees from outside, the latest first, and with its depth. -/
inductive Reached (bound : Nat) (whole : Scope) : Scope → List String → Nat → Prop where
  | whole : Reached bound whole whole [] 0
  | cte {s : Scope} {named : List String} {depth : Nat} {before after : List Cte} {c : Cte}
      (outside : Reached bound whole s named depth) (within : depth < bound)
      (declared : s.ctes = before ++ c :: after) :
      Reached bound whole c.body ((before.map Cte.aliasName).reverse ++ named) (depth + 1)
  | derived {s : Scope} {named : List String} {depth : Nat} {d : Derived}
      (outside : Reached bound whole s named depth) (within : depth < bound)
      (declared : d ∈ s.derived) : Reached bound whole d.body (s.seenNames named) (depth + 1)
  | subquery {s body : Scope} {named : List String} {depth : Nat}
      (outside : Reached bound whole s named depth) (within : depth < bound)
      (mentioned : .subquery body ∈ Node.placesOf s.nodes) :
      Reached bound whole body (s.seenNames named) (depth + 1)

end Scope

/-- What a table is called: by the latest named query of its name, or else as the database
declares it, or else as it is written. -/
def Catalog.calledAs (c : Catalog) (named : List String) (written : String) : String :=
  (named.find? fun name => sameName name written).getD
    ((c.find? written).elim written TableSchema.name)

/-- The reasons for which a statement lists a table. -/
inductive Statement.Lists (r : Resolver) (s : Statement) (table : String) : Prop where
  /-- A scope reads it. -/
  | read {whole scope : Scope} {named : List String} {depth : Nat} {t : TableRef}
      (part : whole ∈ s.scopes) (reached : whole.Reached r.maxDepth scope named depth)
      (present : t ∈ scope.tables)
      (called : r.catalog.calledAs (scope.seenNames named) t.name = table)
  /-- A scope declares it as a subquery among its sources, which may lie too deep to be read. -/
  | derived {whole scope : Scope} {named : List String} {depth : Nat} {d : Derived}
      (part : whole ∈ s.scopes) (reached : whole.Reached r.maxDepth scope named depth)
      (declared : d ∈ scope.derived) (called : d.aliasName = some table)
  /-- A scope declares it as a named query, which may lie too deep to be read. -/
  | named {whole scope : Scope} {named : List String} {depth : Nat} {c : Cte}
      (part : whole ∈ s.scopes) (reached : whole.Reached r.maxDepth scope named depth)
      (declared : c ∈ scope.ctes) (called : c.aliasName = table)
  /-- The statement adds rows to it. -/
  | filled {i : Insert} (adds : s = .insert i)
      (called : r.catalog.calledAs [] i.table.name = table)

section
variable {r : Resolver} {chain outer : Chain} {v : Visit} {ctes : LocalTables}

/-- A table is called by the names of the named queries, whatever their columns are. -/
theorem Catalog.canonical_eq_calledAs {c : Catalog} {written : String} :
    c.canonical ctes written = c.calledAs (ctes.map TableSchema.name) written := by
  have byName : (ctes.map TableSchema.name).find? (fun name => sameName name written) =
      (ctes.find? written).map TableSchema.name := List.find?_map ..
  rw [canonical, calledAs, byName, Option.orElse_eq_or]
  cases ctes.find? written with
  | some declared => rfl
  | none =>
    cases c.find? written <;> rfl

theorem Visit.visible_names : (v.visible r outer).map TableSchema.name =
    v.scope.seenNames (v.ctes.map TableSchema.name) := Cte.readAll_names ..

namespace Scope
variable {whole : Scope}

theorem Visited.reached (visited : whole.Visited r chain) : ∀ v outer, chain = v :: outer →
    whole.Reached r.maxDepth v.scope (v.ctes.map TableSchema.name) v.depth := by
  induction visited with
  | whole =>
    rintro v outer ⟨⟩
    exact .whole
  | cte _ within declared ih =>
    rintro v outer ⟨⟩
    rw [Cte.readAll_names]
    exact .cte (ih _ _ rfl) within declared
  | derived _ within declared ih =>
    rintro v outer ⟨⟩
    rw [Visit.visible_names]
    exact .derived (ih _ _ rfl) within declared
  | subquery _ within mentioned ih =>
    rintro v outer ⟨⟩
    rw [Visit.visible_names]
    exact .subquery (ih _ _ rfl) within mentioned

theorem Reached.visited {s : Scope} {named : List String} {depth : Nat}
    (reached : whole.Reached r.maxDepth s named depth) : ∃ v outer, whole.Visited r (v :: outer) ∧
      v.scope = s ∧ v.ctes.map TableSchema.name = named ∧ v.depth = depth := by
  induction reached with
  | whole => exact ⟨_, _, .whole, rfl, rfl, rfl⟩
  | cte _ within declared ih =>
    obtain ⟨v, outer, visited, rfl, rfl, rfl⟩ := ih
    exact ⟨_, _, .cte visited within declared, rfl, Cte.readAll_names .., rfl⟩
  | derived _ within declared ih =>
    obtain ⟨v, outer, visited, rfl, rfl, rfl⟩ := ih
    exact ⟨_, _, .derived visited within declared, rfl, Visit.visible_names, rfl⟩
  | subquery _ within mentioned ih =>
    obtain ⟨v, outer, visited, rfl, rfl, rfl⟩ := ih
    exact ⟨_, _, .subquery visited within mentioned, rfl, Visit.visible_names, rfl⟩

end Scope

/-- The declarations of a visited scope are its tables, as they are called there, and its named
subqueries. -/
theorem Visit.mem_declarations {table : String} :
    (∃ e ∈ v.declarations r outer, e.table = table) ↔
      (∃ t ∈ v.scope.tables, r.catalog.calledAs
        (v.scope.seenNames (v.ctes.map TableSchema.name)) t.name = table) ∨
      ∃ d ∈ v.scope.derived, d.aliasName = some table := by
  simp only [declarations, Scope.declarations, Catalog.canonical_eq_calledAs, visible_names,
    List.mem_append, List.mem_map, List.mem_filterMap]
  constructor
  · rintro ⟨e, ⟨t, present, rfl⟩ | ⟨name, ⟨d, declared, named⟩, rfl⟩, rfl⟩
    · exact .inl ⟨t, present, rfl⟩
    · exact .inr ⟨d, declared, named⟩
  · rintro (⟨t, present, called⟩ | ⟨d, declared, named⟩)
    · exact ⟨_, .inl ⟨t, present, rfl⟩, called⟩
    · exact ⟨_, .inr ⟨table, ⟨d, declared, named⟩, rfl⟩, rfl⟩

/-- The names of a visited scope are noted when the scope is read. -/
theorem Visit.mem_notes_of_declared {n : Diagnostic}
    (noted : n ∈ (AliasMap.empty.declareAll (v.declarations r outer)).2) :
    n ∈ Findings.notes (v.own r outer) := by
  simp only [own, map_add, Multiset.mem_add]
  exact .inl (.inl (.inl (.inr noted)))

end

namespace Statement
variable {r : Resolver} {s : Statement} {v : Visit} {outer : Chain} {table : String}

/-- Nothing gets into the set of tables without a reason. -/
theorem lists_of_mem_tables (found : table ∈ (s.read r).tables) : s.Lists r table := by
  rcases mem_tables_read.mp found with added | ⟨v, outer, ⟨whole, part, visited⟩, found⟩
  · cases s with
    | insert i =>
      exact .filled rfl
        (Catalog.canonical_eq_calledAs.symm.trans (List.mem_singleton.mp added).symm)
    | _ => cases added
  · have reached := visited.reached v outer rfl
    rcases found with ⟨c, declared, called⟩ | found
    · exact .named part reached declared called
    · obtain ⟨e, held, rfl⟩ := List.mem_map.mp found
      rw [Visit.frame, Scope.frame_aliases] at held
      have declared := (AliasMap.mem_declarations_of_mem_entries held).resolve_left
        (by simp [AliasMap.empty])
      rcases Visit.mem_declarations.mp ⟨e, declared, rfl⟩ with
        ⟨t, present, called⟩ | ⟨d, declared, called⟩
      · exact .read part reached present called
      · exact .derived part reached declared called

/-- A visited scope without a note about its names lists all that it reads and declares. -/
theorem mem_tables_of_declared (visited : s.Visited r (v :: outer))
    (unrepeated : ∀ n ∈ (s.read r).notes, n.finding ≠ .duplicateAlias)
    (declared : ∃ e ∈ v.declarations r outer, e.table = table) : table ∈ (s.read r).tables := by
  have unnoted : (AliasMap.empty.declareAll (v.declarations r outer)).2 = [] := by
    refine List.eq_nil_iff_forall_not_mem.mpr fun n noted => ?_
    exact unrepeated n (mem_notes_read.mpr ⟨v, outer, visited, Visit.mem_notes_of_declared noted⟩)
      (AliasMap.finding_of_mem_declareAll noted)
  obtain ⟨e, declared, rfl⟩ := declared
  refine mem_tables_read.mpr (.inr ⟨v, outer, visited, .inr (List.mem_map_of_mem ?_)⟩)
  rw [Visit.frame, Scope.frame_aliases]
  exact AliasMap.entries_declareAll_of_unnoted unnoted ▸ List.mem_append_right _ declared

/-- **The set of tables is exact** where no scope uses a name twice. -/
theorem tables_exact (r : Resolver) (s : Statement) (id : Option StatementId)
    (unrepeated : ∀ n ∈ (s.read r).notes, n.finding ≠ .duplicateAlias) (table : String) :
    table ∈ (r.resolve s id).access.tables ↔ s.Lists r table := by
  rw [Resolver.mem_tables_resolve]
  refine ⟨lists_of_mem_tables, fun listed => ?_⟩
  cases listed with
  | read part reached present called =>
    obtain ⟨v, outer, visited, rfl, rfl, rfl⟩ := reached.visited
    exact mem_tables_of_declared ⟨_, part, visited⟩ unrepeated
      (Visit.mem_declarations.mpr (.inl ⟨_, present, called⟩))
  | derived part reached declared called =>
    obtain ⟨v, outer, visited, rfl, rfl, rfl⟩ := reached.visited
    exact mem_tables_of_declared ⟨_, part, visited⟩ unrepeated
      (Visit.mem_declarations.mpr (.inr ⟨_, declared, called⟩))
  | named part reached declared called =>
    obtain ⟨v, outer, visited, rfl, rfl, rfl⟩ := reached.visited
    exact mem_tables_read.mpr (.inr ⟨v, outer, ⟨_, part, visited⟩, .inl ⟨_, declared, called⟩⟩)
  | filled adds called =>
    subst adds
    refine mem_tables_read.mpr (.inl (List.mem_singleton.mpr ?_))
    rw [Catalog.canonical_eq_calledAs]
    exact called.symm

/-- A query with a subquery among its sources. -/
def latePayments : Scope where
  ctes := []
  tables := [⟨"orders", some "o"⟩]
  derived := [⟨some "late", [], ⟨[], [⟨"payments", none⟩], [], [], [.named "id"]⟩⟩]
  nodes := [.column ⟨some "late", "id"⟩]
  outputs := [.named "id"]

/-- A query that hides a table by a named query which reads it, and has a query in its
condition. -/
def archivedOrders : Scope where
  ctes := [⟨"Orders", [], ⟨[], [⟨"orders", none⟩], [], [], [.named "id"]⟩⟩]
  tables := [⟨"ORDERS", none⟩, ⟨"users", some "u"⟩]
  derived := []
  nodes := [.subquery latePayments]
  outputs := [.named "id"]

/-- The subquery is listed by its name though it lies too deep to be read. -/
theorem tables_exact_recent :
    let r : Resolver := ⟨.ofTables [⟨"ARCHIVE", ["id"]⟩], 1⟩
    let s := Statement.insert ⟨⟨"archive", none⟩, ["id"], some archivedOrders, none⟩
    (∀ n ∈ (s.read r).notes, n.finding ≠ .duplicateAlias) ∧
      ("late" ∈ (r.resolve s none).access.tables ↔ s.Lists r "late") ∧
      "late" ∈ (r.resolve s none).access.tables := by
  intro r s
  have unrepeated : ∀ n ∈ (s.read r).notes, n.finding ≠ .duplicateAlias := by decide +kernel
  have exactly := tables_exact r s none unrepeated "late"
  have reached : archivedOrders.Reached r.maxDepth latePayments ["Orders"] 1 :=
    .subquery .whole Nat.one_pos (List.mem_singleton_self _)
  have listed : s.Lists r "late" :=
    .derived (List.mem_singleton_self _) reached (List.mem_singleton_self _) rfl
  exact ⟨unrepeated, exactly, exactly.mpr listed⟩

end Statement
end TableAccess
