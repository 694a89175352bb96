import TableAccess.Proofs.Access.AlikeStatements
import Mathlib.Logic.Relation

/-! The order of expressions and of tables makes no difference to what a statement reads and writes.
In any scope the expressions may change places, and so may the tables as long as each of them has a
name of its own. The columns that wildcards give come in another order then, and so do the columns
of named queries and subqueries around; but which of them a table has does not change, nor does
where a column belongs. -/
namespace TableAccess

/-- Whether two scopes are the same but for the order of their expressions, and of their tables if
no two of these have the same name in front of their columns. -/
structure Scope.Permuted (a b : Scope) : Prop where
  ctes : a.ctes = b.ctes
  tables : a.tables = b.tables ∨
    a.tables.Perm b.tables ∧ a.tables.Pairwise fun t u => sameName t.key u.key = false
  derived : a.derived = b.derived
  nodes : a.nodes.Perm b.nodes
  outputs : a.outputs = b.outputs

/-- Whether a statement is another one in which one scope is permuted. An update keeps the table
that it changes in front. -/
def Statement.PermutedOnce (s s' : Statement) : Prop := ∃ a b : Scope, a.Permuted b ∧ s.Replaced a b s'

section
variable {c : Catalog} {d : Nat} {s s' : Statement} {a b : Scope}

private theorem placesOf_perm {nodes nodes' : List Node} (same : nodes.Perm nodes') :
    (Node.placesOf nodes).Perm (Node.placesOf nodes') := by
  have parts (nodes : List Node) : Node.placesOf nodes = nodes.flatMap Node.places := by
    induction nodes with
    | nil => rfl
    | cons n rest ih => rw [Node.placesOf, List.flatMap_cons, ih]
  rw [parts, parts]
  exact same.flatMap_right _

private theorem foreign_eq_zero (names : List String) : (Likeness.upToCase false).foreign names = 0 :=
  Likeness.foreign_eq_zero_iff.mpr fun _ _ => rfl

/-- Permuted scopes are read alike in any order. -/
theorem Scope.Permuted.readsAlike (same : a.Permuted b) :
    Scope.ReadsAlike (.upToCase false) c c d a b := by
  have self : a.Resembles (.upToCase false) (Scope.ReadsAlike (.upToCase false) c c d) a :=
    a.resembles_self (fun _ => rfl) rfl (foreign_eq_zero _)
  obtain ⟨placed, places, order⟩ := self.places
  refine Resembles.readsAlike (fun _ => rfl) ⟨same.ctes ▸ self.ctes, ?_, self.allowed,
    same.derived ▸ self.derived, ⟨placed, places, order.trans ?_⟩, by rw [← same.outputs]; rfl⟩
  · rcases same.tables with equal | ⟨permuted, distinct⟩
    · exact .inl (by rw [equal]; rfl)
    · refine .inr ⟨rfl, List.pairwise_map.mpr (distinct.imp fun {t u} different equal => ?_),
        permuted.map _⟩
      have alike : sameName t.key u.key = true := sameName_iff.mpr equal
      rw [alike] at different
      cases different
  · exact arranged_eq_iff.mpr (placesOf_perm same.nodes)

/-- **What is read and written does not depend on order.** -/
theorem Statement.order_independent (r : Resolver) (tag : Option StatementId)
    (permuted : Relation.ReflTransGen Statement.PermutedOnce s s') :
    (r.resolve s tag).access.folded = (r.resolve s' tag).access.folded := by
  induction permuted with
  | refl => rfl
  | @tail s' s'' _ step ih =>
    obtain ⟨a, b, same, replaced⟩ := step
    have catalogs : r.catalog.Alike (.upToCase false) r.catalog := fun _ => rfl
    have resembles := (replaced.resembles (d := r.maxDepth) catalogs rfl).2
      (by rw [foreign_eq_zero]; exact Nat.zero_le _) same.readsAlike
    exact ih.trans ((resembles.read catalogs).access_folded rfl resembles.kind)

/-- A scope that reads all columns of two tables, and one column of its own. -/
def stockOfItems (tables : List TableRef) (nodes : List Node) : Scope :=
  ⟨[], tables, [], nodes, [.wildcard none]⟩

/-- A query with two tables and two columns in some order, in a subquery among its sources. -/
def itemsInStock (tables : List TableRef) (nodes : List Node) : Statement :=
  .select ⟨[], [], [⟨some "d", [], stockOfItems tables nodes⟩], [.column ⟨none, "n"⟩], [.wildcard none]⟩

theorem Statement.order_independent_items :
    let items : TableRef := ⟨"items", some "i"⟩
    let stock : TableRef := ⟨"stock", none⟩
    let id_ : Node := .column ⟨some "i", "id"⟩
    let n : Node := .column ⟨none, "N"⟩
    let r : Resolver := ⟨.ofTables [⟨"items", ["id", "N"]⟩, ⟨"stock", ["id", "n"]⟩], 32⟩
    Relation.ReflTransGen Statement.PermutedOnce (itemsInStock [items, stock] [id_, n])
        (itemsInStock [stock, items] [n, id_]) ∧
      (r.resolve (itemsInStock [items, stock] [id_, n]) none).access.folded =
        (r.resolve (itemsInStock [stock, items] [n, id_]) none).access.folded := by
  intro items stock id_ n r
  have permuted : (stockOfItems [items, stock] [id_, n]).Permuted (stockOfItems [stock, items] [n, id_]) :=
    ⟨rfl, .inr ⟨.swap .., by simp [stockOfItems, items, stock, TableRef.key]; decide +kernel⟩, rfl,
      .swap .., rfl⟩
  have replaced : (itemsInStock [items, stock] [id_, n]).Replaced (stockOfItems [items, stock] [id_, n])
      (stockOfItems [stock, items] [n, id_]) (itemsInStock [stock, items] [n, id_]) :=
    .select (@Scope.Replaced.derived _ _ ⟨[], [], [], [.column ⟨none, "n"⟩], [.wildcard none]⟩
      _ _ [] [] _ _ .whole)
  have step : Statement.PermutedOnce _ _ := ⟨_, _, permuted, replaced⟩
  have once := Relation.ReflTransGen.single step
  exact ⟨once, order_independent r none once⟩

end
end TableAccess
