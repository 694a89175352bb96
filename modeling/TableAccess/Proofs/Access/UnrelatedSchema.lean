import TableAccess.Proofs.Binding.External

/-! A statement depends on nothing of the database but the tables that it names itself: those that
it writes, and those that its scopes read where no named query of the same name is visible. What
else is declared, even under the name of a named query or a subquery, makes no difference. -/
namespace TableAccess

/-- The names that an update takes from the database: that of the table that is changed, and
those that its scope does. -/
def Update.external (u : Update) : List String :=
  (u.table?.map TableRef.name).toList ++ u.scope.external []

namespace Statement

/-- The names that a statement takes from the database. -/
def external : Statement → List String
  | .select scope | .delete scope => scope.external []
  | .insert i =>
    i.table.name :: ((i.source.map (Scope.external [])).getD []
      ++ (i.onConflict.map Update.external).getD [])
  | .update u => u.external
  | .unknown => []

section
variable {c c' : Catalog} {d : Nat}

private theorem write_agree {name : String} (columns : List String)
    (agree : c.find? name = c'.find? name) :
    Resolver.write ⟨c, d⟩ (c.canonical [] name) columns =
      Resolver.write ⟨c', d⟩ (c'.canonical [] name) columns := by
  have called : c.canonical [] name = c'.canonical [] name := Catalog.canonical_agree fun _ => agree
  have known :
      c.columnsOf? [] (c'.canonical [] name) = c'.columnsOf? [] (c'.canonical [] name) := by
    rw [Catalog.columnsOf?_congr Catalog.sameName_canonical,
      Catalog.columnsOf?_congr Catalog.sameName_canonical]
    exact congrArg _ agree
  simp only [Resolver.write, called, Catalog.spelling, known]

private theorem scope_agree (scope : Scope) (agree : c.AgreeOn c' (scope.external [])) :
    scope.read ⟨c, d⟩ [] [] 0 = scope.read ⟨c', d⟩ [] [] 0 := by
  have nothing : Frames.Alike c c' [] := by
    rintro table ⟨frame, member, _⟩
    cases member
  exact scope.independent c c' d [] [] 0 nothing agree

private theorem update_agree (u : Update) (agree : c.AgreeOn c' u.external) :
    u.read ⟨c, d⟩ = u.read ⟨c', d⟩ := by
  obtain ⟨first, inside⟩ := List.forall_mem_append.mp agree
  have read := scope_agree (d := d) u.scope inside
  unfold Update.read
  rw [read]
  cases changed : u.table? with
  | none => rfl
  | some t =>
    have written := write_agree (d := d) u.targets (first t.name (by simp [changed]))
    simp only [written]

theorem read_agree (s : Statement) (agree : c.AgreeOn c' s.external) :
    s.read ⟨c, d⟩ = s.read ⟨c', d⟩ := by
  match s with
  | .select scope | .delete scope => exact scope_agree scope agree
  | .update u => exact update_agree u agree
  | .unknown => rfl
  | .insert ⟨table, columns, source, onConflict⟩ =>
    obtain ⟨filled, rest⟩ := List.forall_mem_cons.mp agree
    obtain ⟨inside, upsert⟩ := List.forall_mem_append.mp rest
    have called : c.canonical [] table.name = c'.canonical [] table.name :=
      Catalog.canonical_agree fun _ => filled
    have written : Resolver.write ⟨c, d⟩ (c.canonical [] table.name) columns = _ :=
      write_agree columns filled
    simp only [read, Insert.read]
    rw [written, called]
    cases source with
    | none =>
      cases onConflict with
      | none => rfl
      | some u => simp only [update_agree u upsert]
    | some scope =>
      cases onConflict with
      | none => simp only [scope_agree scope inside]
      | some u => simp only [scope_agree scope inside, update_agree u upsert]

end

/-- **Unrelated tables of the database never matter**, and neither does one that is called like
nothing that the statement takes from there. -/
theorem unrelated_schema (d : Nat) (s : Statement) :
    (∀ c c' : Catalog, c.AgreeOn c' s.external → s.read ⟨c, d⟩ = s.read ⟨c', d⟩) ∧
    ∀ (c : Catalog) (t : TableSchema), (∀ name ∈ s.external, sameName t.name name = false) →
      s.read ⟨c.insert t, d⟩ = s.read ⟨c, d⟩ := by
  refine ⟨fun c c' agree => read_agree s agree, fun c t other => read_agree s ?_⟩
  exact fun name held => Catalog.find?_insert_of_other (other name held)

/-- A query of a table, as a named query and as a subquery. -/
def ordersTwice : Scope where
  ctes := [⟨"users", [], ⟨[], [⟨"orders", none⟩], [], [.column ⟨none, "user_id"⟩],
    [.named "user_id"]⟩⟩]
  tables := [⟨"users", some "u"⟩]
  derived := [⟨some "items", [], ⟨[], [⟨"orders", none⟩], [], [], [.wildcard none]⟩⟩]
  nodes := [.column ⟨none, "id"⟩, .column ⟨some "u", "name"⟩]
  outputs := [.wildcard (some "u"), .wildcard (some "items")]

/-- Tables that the named query and the subquery are called like. -/
theorem unrelated_schema_hidden :
    let c : Catalog := .ofTables [⟨"orders", ["id", "user_id"]⟩]
    let c' : Catalog := .ofTables [⟨"items", ["id"]⟩, ⟨"orders", ["id", "user_id"]⟩, ⟨"users", ["id"]⟩]
    let s := Statement.select ordersTwice
    s.external = ["orders", "orders"] ∧ s.read ⟨c, 32⟩ = s.read ⟨c', 32⟩ ∧
      s.read ⟨c.insert ⟨"users", ["id", "name"]⟩, 32⟩ = s.read ⟨c, 32⟩ := by
  intro c c' s
  have external : s.external = ["orders", "orders"] := by decide +kernel
  refine ⟨external, (unrelated_schema 32 s).1 c c' ?_, (unrelated_schema 32 s).2 c _ ?_⟩
  · rw [external]
    unfold Catalog.AgreeOn
    decide +kernel
  · rw [external]
    decide +kernel

end Statement
end TableAccess
