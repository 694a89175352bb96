import TableAccess.Proofs.Access.UpdateTarget
import TableAccess.Sql.Outline

/-! Columns that an update of several tables sets by a qualified name. The name in front of such a
column is dropped when the statement is read, and the column is recorded for the first table of the
scope. So it is recorded for its own table, and for no other one on its account, exactly if the name in
front of it means the first table, or if other places of the statement make up for both. -/
namespace TableAccess

/-- Whether an access has a column of a table, in whatever spelling. -/
def Access.HasColumn (a : Access) (table column : String) : Prop :=
  ∃ name ∈ a.columnsOf table, sameName name column = true

/-- Whether a scope reads a column of a table, in whatever spelling. -/
def Scope.ReadsColumn (r : Resolver) (s : Scope) (table column : String) : Prop :=
  ∃ name, (table, name) ∈ (s.read r [] [] 0).columns ∧ sameName name column = true

namespace Sql

/-- A name as that of a column: its last part, qualified with the part before it. -/
def Name.column (n : Name) : ColumnRef :=
  ⟨n.dropLast.getLast?.map fun part => unquoted part.text, Name.last n⟩

/-- The columns that assignments write, as they are written. -/
def Assignment.columns (assignments : List Assignment) : List ColumnRef :=
  assignments.flatMap fun a => match a.target with
    | .column name => [Name.column name]
    | .columns names => names.map Name.column

theorem Assignment.targets_eq (assignments : List Assignment) :
    Assignment.targets assignments = (Assignment.columns assignments).map ColumnRef.name := by
  rw [targets, columns, List.map_flatMap]
  refine congrArg (fun f => assignments.flatMap f) (funext fun a => ?_)
  cases a.target with
  | column name => rfl
  | columns names => simp [Name.column]

namespace Update
variable {r : Resolver} {u : Update} {id : Option StatementId} {qualifier column table : String}
  {t : TableRef}

/-- What the names in front of columns mean in an update. -/
def aliases (r : Resolver) (u : Update) : AliasMap := (u.outline.scope.frame r [] [] 0).aliases

/-- The table of a column that is set: what the name in front of it means, or else the first table. -/
def tableOf? (r : Resolver) (u : Update) (target : ColumnRef) : Option String :=
  match target.qualifier with
  | some q => (u.aliases r).find? q
  | none => u.outline.table?.map fun t => r.catalog.canonical [] t.name

/-- Whether a column of a table is read by the statement, or set as a column of that table. -/
def Mentions (r : Resolver) (u : Update) (table column : String) : Prop :=
  u.outline.scope.ReadsColumn r table column ∨
    ∃ other ∈ Assignment.columns u.assignments, u.tableOf? r other = some table ∧
      sameName other.name column = true

/-- Whether a column that is set is recorded for its own table, and for another table only where the
statement mentions it as a column of that one. -/
structure KeepsTarget (r : Resolver) (u : Update) (a : Access) (target : ColumnRef) : Prop where
  recorded : ∀ table ∈ u.tableOf? r target, a.HasColumn table target.name
  elsewhere : ∀ table, u.tableOf? r target ≠ some table → a.HasColumn table target.name →
    u.Mentions r table target.name

/-- What is recorded of an update: what its scope reads, and its targets for the first table. -/
theorem hasColumn_iff (first : u.outline.table? = some t) :
    (r.resolve (.update u.outline) id).access.HasColumn table column ↔
      u.outline.scope.ReadsColumn r table column ∨
        table = r.catalog.canonical [] t.name ∧
          ∃ target ∈ Assignment.columns u.assignments, sameName target.name column = true := by
  have targets : u.outline.targets = (Assignment.columns u.assignments).map ColumnRef.name :=
    Assignment.targets_eq u.assignments
  constructor
  · rintro ⟨name, held, same⟩
    rcases TableAccess.Update.mem_columns_read.mp (Resolver.mem_columnsOf_resolve.mp held) with
      read | ⟨_, first', known, written, member, spelled⟩
    · exact .inl ⟨name, read, same⟩
    · obtain rfl := Option.some.inj (first.symm.trans first')
      rw [targets] at member
      obtain ⟨target, listed, rfl⟩ := List.mem_map.mp member
      have spelled : name = r.catalog.spelling [] table target.name := spelled
      rw [spelled, sameName_congr (Catalog.sameName_spelling target.name)] at same
      exact .inr ⟨known, target, listed, same⟩
  · rintro (⟨name, read, same⟩ | ⟨known, target, member, same⟩)
    · exact ⟨name, Resolver.mem_columnsOf_resolve.mpr
        (TableAccess.Update.mem_columns_read.mpr (.inl read)), same⟩
    · have listed : target.name ∈ u.outline.targets := targets ▸ List.mem_map_of_mem member
      refine ⟨r.catalog.spelling [] table target.name, Resolver.mem_columnsOf_resolve.mpr
        (TableAccess.Update.mem_columns_read.mpr (.inr ⟨t, first, known, _, listed, rfl⟩)), ?_⟩
      rwa [sameName_congr (Catalog.sameName_spelling target.name)]

/-- **A qualified column that an update sets is recorded for its own table, and for no other one on its
account, exactly if its table is the first one, or if the statement reads the column of its table and
mentions it as a column of the first table as well.** -/
theorem keepsTarget_iff (written : ⟨some qualifier, column⟩ ∈ Assignment.columns u.assignments)
    (denoted : (u.aliases r).find? qualifier = some table) (first : u.outline.table? = some t) :
    u.KeepsTarget r (r.resolve (.update u.outline) id).access ⟨some qualifier, column⟩ ↔
      table = r.catalog.canonical [] t.name ∨
        u.outline.scope.ReadsColumn r table column ∧
          u.Mentions r (r.catalog.canonical [] t.name) column := by
  have own : u.tableOf? r ⟨some qualifier, column⟩ = some table := denoted
  -- The target is recorded for the first table in any case.
  have held : (r.resolve (.update u.outline) id).access.HasColumn
      (r.catalog.canonical [] t.name) column :=
    (hasColumn_iff first).mpr (.inr ⟨rfl, _, written, sameName_refl column⟩)
  constructor
  · rintro ⟨recorded, elsewhere⟩
    by_cases known : table = r.catalog.canonical [] t.name
    · exact .inl known
    · have mentioned := elsewhere _ (own ▸ fun same => known (Option.some.inj same)) held
      rcases (hasColumn_iff first).mp (recorded table own) with read | ⟨same, _⟩
      · exact .inr ⟨read, mentioned⟩
      · exact absurd same known
  · intro kept
    refine ⟨fun table' same => ?_, fun other differs had => ?_⟩
    · obtain rfl := Option.some.inj (own.symm.trans same)
      rcases kept with rfl | ⟨read, _⟩
      · exact held
      · exact (hasColumn_iff first).mpr (.inl read)
    · rcases (hasColumn_iff first).mp had with read | ⟨rfl, _⟩
      · exact .inl read
      · rcases kept with rfl | ⟨_, mentioned⟩
        · exact absurd own differs
        · exact mentioned

/-- The update that a text is, if it is nothing else. -/
def ofText? (d : Dialect) (text : String) : Option Update :=
  match statements d text with
  | .ok [.update u] => some u
  | _ => none

private theorem exists_of_map_ofText? {β : Type} {d : Dialect} {text : String} {f : Update → β} {b : β}
    (facts : (ofText? d text).map f = some b) : ∃ u, ofText? d text = some u ∧ f u = b :=
  Option.map_eq_some_iff.mp facts

/-- A column of the first table is kept. -/
theorem keepsTarget_iff_first :
    ∃ u, ofText? .mysql "UPDATE orders o JOIN users u ON o.user_id = u.id SET o.note = u.name" = some u ∧
      ⟨some "o", "note"⟩ ∈ Assignment.columns u.assignments ∧
      (u.aliases ⟨.ofTables [], 32⟩).find? "o" = some "orders" ∧
      u.KeepsTarget ⟨.ofTables [], 32⟩
        (Resolver.resolve ⟨.ofTables [], 32⟩ (.update u.outline) none).access ⟨some "o", "note"⟩ := by
  have facts : (ofText? .mysql
      "UPDATE orders o JOIN users u ON o.user_id = u.id SET o.note = u.name").map (fun u =>
        (Assignment.columns u.assignments, (u.aliases ⟨.ofTables [], 32⟩).find? "o",
          u.outline.table?)) =
      some ([⟨some "o", "note"⟩], some "orders", some ⟨"orders", some "o"⟩) := by decide +kernel
  obtain ⟨u, read, same⟩ := exists_of_map_ofText? facts
  obtain ⟨columns, denoted, first⟩ : Assignment.columns u.assignments = [⟨some "o", "note"⟩] ∧
      (u.aliases ⟨.ofTables [], 32⟩).find? "o" = some "orders" ∧
      u.outline.table? = some ⟨"orders", some "o"⟩ := by simpa using same
  have written : ⟨some "o", "note"⟩ ∈ Assignment.columns u.assignments :=
    columns ▸ List.mem_singleton_self _
  exact ⟨u, read, written, denoted, (keepsTarget_iff written denoted first).mpr (.inl (by decide +kernel))⟩

/-- A column of another table is recorded for the first one, although that has no such column. -/
theorem target_recorded_for_first_table :
    ∃ u, ofText? .mysql "UPDATE orders o JOIN users u ON o.user_id = u.id SET u.name = 'x'" = some u ∧
      ⟨some "u", "name"⟩ ∈ Assignment.columns u.assignments ∧
      let r : Resolver := ⟨.ofTables [⟨"orders", ["id", "user_id"]⟩, ⟨"users", ["id", "name"]⟩], 32⟩
      (u.aliases r).find? "u" = some "users" ∧
      ¬ u.KeepsTarget r (r.resolve (.update u.outline) none).access ⟨some "u", "name"⟩ := by
  let r : Resolver := ⟨.ofTables [⟨"orders", ["id", "user_id"]⟩, ⟨"users", ["id", "name"]⟩], 32⟩
  have facts : (ofText? .mysql
      "UPDATE orders o JOIN users u ON o.user_id = u.id SET u.name = 'x'").map (fun u =>
        (Assignment.columns u.assignments, (u.aliases r).find? "u", (u.outline.read r).columns)) =
      some ([⟨some "u", "name"⟩], some "users",
        [("orders", "user_id"), ("users", "id"), ("orders", "name")]) := by decide +kernel
  obtain ⟨u, read, same⟩ := exists_of_map_ofText? facts
  obtain ⟨written, denoted, columns⟩ : Assignment.columns u.assignments = [⟨some "u", "name"⟩] ∧
      (u.aliases r).find? "u" = some "users" ∧ (u.outline.read r).columns =
        [("orders", "user_id"), ("users", "id"), ("orders", "name")] := by simpa using same
  refine ⟨u, read, written ▸ List.mem_singleton_self _, denoted, fun ⟨recorded, _⟩ => ?_⟩
  obtain ⟨name, held, spelled⟩ := recorded "users" denoted
  have read : ("users", name) ∈ (u.outline.read r).columns := Resolver.mem_columnsOf_resolve.mp held
  obtain rfl : name = "id" := by simpa [columns] using read
  exact absurd spelled (by decide +kernel)

end Update
end Sql
end TableAccess
