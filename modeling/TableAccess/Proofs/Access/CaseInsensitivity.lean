import TableAccess.Proofs.Access.Respelling

/-! Case makes no difference. Statements that are the same up to the case of their names, read with
catalogs that are the same up to case, read and write the same tables and columns up to case, give
the same columns and find the same things to note, one after the other. -/
namespace TableAccess

/-- A statement with all its names folded. -/
def Statement.folded (s : Statement) : Statement := s.respell fold fold

/-- A catalog with all its names folded. -/
def Catalog.folded (c : Catalog) : Catalog :=
  ⟨c.tables.map fun t => .of ⟨fold t.name, t.columns.map fold⟩⟩

section
variable {c c' : Catalog} {d : Nat} {s s' : Statement} {tag : Option StatementId}

private theorem find?_folded (c : Catalog) (table : String) : c.folded.find? table =
    (c.find? table).map fun t => ⟨fold t.name, t.columns.map fold⟩ := by
  have same (t : TableSchema) : sameName (fold t.name) table = sameName t.name table := by
    rw [sameName, fold_fold, sameName]
  have tables : c.folded.tables = c.tables.map fun t => ⟨fold t.name, t.columns.map fold⟩ := by
    rw [Catalog.tables, Catalog.folded, List.map_map]
    rfl
  rw [Catalog.find?_eq, Catalog.find?_eq, tables, List.find?_map]
  simp only [Function.comp_def, same]

/-- Catalogs that are the same up to case declare alike tables. -/
theorem Catalog.alike_of_folded (same : c.folded = c'.folded) : c.Alike (.upToCase true) c' := by
  intro table
  have schema (c : Catalog) : (c.find? table).map (Likeness.upToCase true).schema =
      (c.folded.find? table).map fun t => (t.name, arranged true t.columns) := by
    rw [find?_folded, Option.map_map]
    rfl
  rw [schema, schema, same]

/-- A statement resembles itself with all its names folded. -/
private theorem folded_resembles (catalogs : c.Alike (.upToCase true) c') (s : Statement) :
    s.Resembles (.upToCase true) (Scope.ReadsAlike (.upToCase true) c c' d) s.folded :=
  Statement.respell_resembles catalogs (fun _ => rfl) fold_fold fun _ _ =>
    ⟨fun q _ => (fold_fold q).symm, fun n _ => (fold_fold n).symm⟩

/-- **Names are resolved without regard to case.** -/
theorem Statement.case_insensitive (d : Nat) (tag : Option StatementId)
    (statements : s.folded = s'.folded) (catalogs : c.folded = c'.folded) :
    (Resolver.resolve ⟨c, d⟩ s tag).access.folded = (Resolver.resolve ⟨c', d⟩ s' tag).access.folded ∧
      (s.read ⟨c, d⟩).outputs.map fold = (s'.read ⟨c', d⟩).outputs.map fold ∧
      (s.read ⟨c, d⟩).notes.map Diagnostic.finding =
        (s'.read ⟨c', d⟩).notes.map Diagnostic.finding := by
  have declared : c.Alike (.upToCase true) c' := Catalog.alike_of_folded catalogs
  have itself : c'.Alike (.upToCase true) c' := fun _ => rfl
  have first := folded_resembles (d := d) declared s
  have second := folded_resembles (d := d) itself s'
  rw [← statements] at second
  have alike := (first.read declared).trans (second.read itself).symm
  exact ⟨alike.access_folded rfl (first.kind.trans second.kind.symm), alike.outputs_eq rfl,
    alike.findings_eq rfl⟩

/-- A query whose sources, columns and calls are called by given names: a named query that reads all
columns of a table, and a query that reads some of them by an alias. -/
def recentOrders (orders recent row price total : String) : Statement :=
  .select {
    ctes := [⟨recent, [], ⟨[], [⟨orders, none⟩], [], [], [.wildcard none]⟩⟩]
    tables := [⟨recent, some row⟩]
    derived := []
    nodes := [.call "sum" total [.column ⟨some row, price⟩], .column ⟨none, "id"⟩]
    outputs := [.wildcard (some row)] }

theorem Statement.case_insensitive_orders :
    let s := recentOrders "orders" "recent" "r" "price" "sum(r.price)"
    let s' := recentOrders "Orders" "RECENT" "R" "Price" "SUM(R.Price)"
    let c : Catalog := .ofTables [⟨"orders", ["id", "price"]⟩]
    let c' : Catalog := .ofTables [⟨"ORDERS", ["ID", "Price"]⟩]
    s.folded = s'.folded ∧ c.folded = c'.folded ∧
      (Resolver.resolve ⟨c, 32⟩ s none).access.folded =
        (Resolver.resolve ⟨c', 32⟩ s' none).access.folded ∧
      (s.read ⟨c, 32⟩).outputs.map fold = (s'.read ⟨c', 32⟩).outputs.map fold ∧
      (s.read ⟨c, 32⟩).notes.map Diagnostic.finding =
        (s'.read ⟨c', 32⟩).notes.map Diagnostic.finding := by
  intro s s' c c'
  have orders : fold "ORDERS" = fold "orders" := fold_eq_fold_iff.mpr (by decide)
  have orders' : fold "Orders" = fold "orders" := fold_eq_fold_iff.mpr (by decide)
  have recent : fold "RECENT" = fold "recent" := fold_eq_fold_iff.mpr (by decide)
  have row : fold "R" = fold "r" := fold_eq_fold_iff.mpr (by decide)
  have id_ : fold "ID" = fold "id" := fold_eq_fold_iff.mpr (by decide)
  have price : fold "Price" = fold "price" := fold_eq_fold_iff.mpr (by decide)
  have total : fold "SUM(R.Price)" = fold "sum(r.price)" := fold_eq_fold_iff.mpr (by decide)
  have statements : s.folded = s'.folded := by
    simp only [s, s', recentOrders, folded, respell, Scope.respell, Cte.respellAll,
      Derived.respellAll, Node.respellAll, Node.respell, TableRef.respell, ColumnRef.respell,
      Output.respell, List.map_cons, List.map_nil, Option.map_some, orders', recent, row, price, total]
  have tables : c.tables = [⟨"orders", ["id", "price"]⟩] := rfl
  have tables' : c'.tables = [⟨"ORDERS", ["ID", "Price"]⟩] := rfl
  have catalogs : c.folded = c'.folded := by
    simp only [Catalog.folded, tables, tables', List.map_cons, List.map_nil, orders, id_, price]
  exact ⟨statements, catalogs, case_insensitive 32 none statements catalogs⟩

end
end TableAccess
