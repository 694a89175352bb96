import Mathlib.Algebra.Order.Group.Multiset
import TableAccess.Proofs.Binding.Parts

/-! The levels of a scope: each scope in it with the named queries that are visible to its sources,
outermost first. The body of a named query sees what surrounds the scope that declares it and the named
queries before it; subqueries among the sources and in expressions see those of their own scope too.
There is one level for each scope, whatever is visible around it. -/
namespace TableAccess

/-- The tables that a scope reads by name, and the named queries that these names may mean. -/
structure Level where
  visible : List Cte
  tables : List TableRef

mutual

/-- The levels of a scope, where some named queries are visible around it. -/
def Scope.levels (visible : List Cte) : Scope → List Level
  | ⟨ctes, tables, derived, nodes, _⟩ =>
    Cte.levelsOf visible ctes ++ ⟨visible ++ ctes, tables⟩ ::
      (Derived.levelsOf (visible ++ ctes) derived ++ Node.levelsOf (visible ++ ctes) nodes)
termination_by structural s => s

/-- The levels of the bodies of named queries. Each body sees the named queries before it. -/
def Cte.levelsOf (visible : List Cte) : List Cte → List Level
  | [] => []
  | ⟨aliasName, columns, body⟩ :: rest =>
    body.levels visible ++ Cte.levelsOf (visible ++ [⟨aliasName, columns, body⟩]) rest
termination_by structural s => s

/-- The levels of subqueries among the sources. -/
def Derived.levelsOf (visible : List Cte) : List Derived → List Level
  | [] => []
  | ⟨_, _, body⟩ :: rest => body.levels visible ++ Derived.levelsOf visible rest
termination_by structural s => s

/-- The levels of the subqueries at a node. -/
def Node.levels (visible : List Cte) : Node → List Level
  | .column _ => []
  | .call _ _ arguments => Node.levelsOf visible arguments
  | .subquery body => body.levels visible
termination_by structural s => s

/-- The levels of the subqueries at several nodes. -/
def Node.levelsOf (visible : List Cte) : List Node → List Level
  | [] => []
  | n :: rest => n.levels visible ++ Node.levelsOf visible rest
termination_by structural s => s

end

mutual

/-- There is one level for each scope in a scope. -/
theorem Scope.length_levels (visible : List Cte) : ∀ s : Scope,
    (s.levels visible).length = s.parts.length
  | ⟨ctes, tables, derived, nodes, outputs⟩ => by
    simp only [Scope.levels, Scope.parts, List.length_append, List.length_cons,
      Cte.length_levelsOf visible ctes, Derived.length_levelsOf _ derived, Node.length_levelsOf _ nodes]
    omega

private theorem Cte.length_levelsOf (visible : List Cte) : ∀ ctes : List Cte,
    (Cte.levelsOf visible ctes).length = (Cte.partsOf ctes).length
  | [] => rfl
  | ⟨aliasName, columns, body⟩ :: rest => by
    simp only [Cte.levelsOf, Cte.partsOf, List.length_append, Scope.length_levels _ body,
      Cte.length_levelsOf _ rest]

private theorem Derived.length_levelsOf (visible : List Cte) : ∀ derived : List Derived,
    (Derived.levelsOf visible derived).length = (Derived.partsOf derived).length
  | [] => rfl
  | ⟨_, _, body⟩ :: rest => by
    simp only [Derived.levelsOf, Derived.partsOf, List.length_append, Scope.length_levels _ body,
      Derived.length_levelsOf _ rest]

private theorem Node.length_levels (visible : List Cte) : ∀ n : Node,
    (n.levels visible).length = n.parts.length
  | .column _ => rfl
  | .call _ _ arguments => by rw [Node.levels, Node.parts, Node.length_levelsOf _ arguments]
  | .subquery body => by rw [Node.levels, Node.parts, Scope.length_levels _ body]

private theorem Node.length_levelsOf (visible : List Cte) : ∀ nodes : List Node,
    (Node.levelsOf visible nodes).length = (Node.partsOf nodes).length
  | [] => rfl
  | n :: rest => by
    simp only [Node.levelsOf, Node.partsOf, List.length_append, Node.length_levels _ n,
      Node.length_levelsOf _ rest]

end

/-! Levels of several sources or nodes. -/

theorem Derived.levelsOf_append {visible : List Cte} {first second : List Derived} :
    Derived.levelsOf visible (first ++ second) =
      Derived.levelsOf visible first ++ Derived.levelsOf visible second := by
  induction first with
  | nil => rfl
  | cons d rest ih =>
    cases d
    rw [List.cons_append, levelsOf, ih, levelsOf, List.append_assoc]

theorem Node.levelsOf_append {visible : List Cte} {first second : List Node} :
    Node.levelsOf visible (first ++ second) =
      Node.levelsOf visible first ++ Node.levelsOf visible second := by
  induction first with
  | nil => rfl
  | cons n rest ih => rw [List.cons_append, levelsOf, ih, levelsOf, List.append_assoc]

namespace Scope
variable {visible : List Cte} {a b : Scope}

/-- The levels of what a scope reads beside its tables: of the subqueries among its sources and in its
expressions. -/
def beneath (visible : List Cte) (s : Scope) : Multiset Level :=
  ↑(Derived.levelsOf visible s.derived ++ Node.levelsOf visible s.nodes)

theorem levels_eq (visible : List Cte) (s : Scope) : (s.levels visible : Multiset Level) =
    ↑(Cte.levelsOf visible s.ctes) +
      ⟨visible ++ s.ctes, s.tables⟩ ::ₘ s.beneath (visible ++ s.ctes) := by
  cases s
  rw [levels, ← Multiset.coe_add, ← Multiset.cons_coe]
  rfl

/-- A scope that declares no names has its own level and those beneath. -/
theorem levels_of_ctes_eq_nil {s : Scope} (undeclared : s.ctes = []) : (s.levels visible : Multiset Level) =
    ⟨visible, s.tables⟩ ::ₘ s.beneath visible := by
  rw [levels_eq, undeclared, Cte.levelsOf, List.append_nil, Multiset.coe_nil, zero_add]

/-- What is visible around makes no difference to how many levels there are. -/
theorem card_beneath (s : Scope) (other : List Cte) :
    (s.beneath visible).card = (s.beneath other).card := by
  simp only [beneath, Multiset.coe_card, List.length_append, Derived.length_levelsOf,
    Node.length_levelsOf]

/-- Without the names that a scope declares it has fewer levels. -/
theorem card_beneath_lt {s : Scope} (declared : s.ctes ≠ []) (visible others : List Cte) :
    (s.beneath others).card + 1 < (s.levels visible).length := by
  obtain ⟨⟨_, _, _⟩, rest, first⟩ := List.exists_cons_of_ne_nil declared
  have counted := congrArg Multiset.card (levels_eq visible s)
  have named : 0 < (Cte.levelsOf visible s.ctes).length := by
    rw [first, Cte.levelsOf, List.length_append, length_levels, parts_eq, List.length_cons]
    omega
  rw [Multiset.card_add, Multiset.card_cons, Multiset.coe_card, Multiset.coe_card,
    s.card_beneath others] at counted
  omega

theorem beneath_append : (a ++ b).beneath visible = a.beneath visible + b.beneath visible := by
  change (↑(Derived.levelsOf visible (a.derived ++ b.derived) ++
    Node.levelsOf visible (a.nodes ++ b.nodes)) : Multiset Level) = _
  simp only [beneath, Derived.levelsOf_append, Node.levelsOf_append, ← Multiset.coe_add]
  exact add_add_add_comm _ _ _ _

end Scope

end TableAccess
