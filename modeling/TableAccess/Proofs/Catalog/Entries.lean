import TableAccess.Catalog
import TableAccess.Proofs.Collection

/-! What a catalog keeps beside its tables says nothing else than the tables do: an entry is made of
its table alone. So a catalog is told by its tables, a name is looked up among their names as it is
among the keys, and a column is looked up among the columns as it is in the folded set. Every catalog
has this, however it was put together, since an entry cannot be made in another way. -/
namespace TableAccess

/-- By the folded name. -/
def TableSchema.order (a b : TableSchema) : Ordering := compare (fold a.name) (fold b.name)

instance : Std.TransCmp TableSchema.order :=
  inferInstanceAs (Std.TransCmp (compareOn fun t : TableSchema => fold t.name))

/-- The order of tables does not tell those of one name apart. -/
theorem TableSchema.sameName_eq_order (t u : TableSchema) :
    sameName t.name u.name = (t.order u == .eq) := by
  rw [Bool.eq_iff_iff, sameName_iff, beq_iff_eq, order, Std.compare_eq_iff_eq]

namespace Catalog

namespace Entry

/-- The set of the folded columns finds what going through the columns one by one does. -/
theorem has_eq_hasName (e : Entry) (column : String) : e.has column = hasName e.table.columns column := by
  rw [has, e.folded_eq, Bool.eq_iff_iff, List.contains_iff_mem, mem_nameSet, List.mem_map, hasName,
    List.any_eq_true]
  exact exists_congr fun declared => and_congr_right fun _ => eq_comm.trans sameName_iff.symm

/-- The key finds what comparing the names does. -/
theorem key_beq_fold (e : Entry) (name : String) : (e.key == fold name) = sameName e.table.name name := by
  rw [e.key_eq, sameName]

theorem order_eq (a b : Entry) : a.order b = a.table.order b.table := by
  rw [order, a.key_eq, b.key_eq, TableSchema.order]

/-- An entry is the one of its table. -/
theorem of_table : ∀ e : Entry, of e.table = e
  | ⟨_, _, _, rfl, rfl⟩ => rfl

end Entry

variable {c x y : Catalog} {name : String}

/-- A catalog is told by its tables. -/
theorem eq_of_tables (same : x.tables = y.tables) : x = y := by
  have entries (c : Catalog) : c.tables.map Entry.of = c.entries := by
    rw [tables, List.map_map]
    exact (List.map_congr_left fun e _ => e.of_table).trans (List.map_id _)
  have alike : x.entries = y.entries := by rw [← entries x, ← entries y, same]
  exact congrArg mk alike

/-- A table that is added takes its place among the tables by its name. -/
theorem tables_put (e : Entry) : (c.put e).tables = insertOver TableSchema.order e.table c.tables :=
  map_insertOver Entry.order_eq

theorem tables_insert (t : TableSchema) : (c.insert t).tables = insertOver TableSchema.order t c.tables :=
  tables_put (.of t)

/-- To merge a catalog is to add its tables. -/
theorem merge_eq_insertAll (other : Catalog) : c.merge other = other.tables.foldl insert c := by
  rw [merge, tables, List.foldl_map]
  congr
  funext c e
  rw [insert, e.of_table]

/-- A table is found by its name. -/
theorem find?_eq : c.find? name = c.tables.find? fun t => sameName t.name name := by
  have keys : (fun e : Entry => e.key == fold name) = fun e => sameName e.table.name name :=
    funext fun e => e.key_beq_fold name
  rw [find?, entry?, keys, tables, List.find?_map]
  rfl

/-- Whether a table has a column can be read off its columns. -/
theorem hasColumn_eq (c : Catalog) (table column : String) :
    c.hasColumn table column = (c.find? table).map fun t => hasName t.columns column := by
  rw [hasColumn, find?, Option.map_map]
  exact congrArg (fun f => (c.entry? table).map f) (funext fun e => e.has_eq_hasName column)

end Catalog
end TableAccess
