import TableAccess.Proofs.Binding.Parts
import TableAccess.Proofs.Sql.Children

/-! What an expression is read as. For each kind of expression, its places are those of the expressions that
it reads and then its own; a call keeps the places of its arguments within it. So whatever the expression,
each mention of a column outside nested queries is read once, each query nested directly in it is read once,
and nothing else is read. -/
namespace TableAccess

/-- The scope that is read at a place, where it is a subquery. -/
def Place.body? : Place → Option Scope
  | .subquery body => some body
  | _ => none

/-- The subqueries at nodes, those among the arguments of calls too. -/
def Node.bodiesOf (nodes : List Node) : List Scope := (Node.placesOf nodes).filterMap Place.body?

section
variable {nodes others : List Node}

theorem Node.columnsOf_append :
    Node.columnsOf (nodes ++ others) = Node.columnsOf nodes ++ Node.columnsOf others := by
  simp only [Node.columnsOf_eq_places, Node.placesOf_append, List.filterMap_append]

theorem Node.columnsOf_map_column (columns : List ColumnRef) :
    Node.columnsOf (columns.map Node.column) = columns := by
  induction columns with
  | nil => rfl
  | cons c rest ih => rw [List.map_cons, Node.columnsOf, ih, Node.columns, List.singleton_append]

theorem Node.bodiesOf_append :
    Node.bodiesOf (nodes ++ others) = Node.bodiesOf nodes ++ Node.bodiesOf others := by
  simp only [Node.bodiesOf, Node.placesOf_append, List.filterMap_append]

/-- A call around nodes makes no difference to the subqueries at them. -/
theorem Node.bodiesOf_call {name text : String} :
    Node.bodiesOf (.call name text nodes :: others) = Node.bodiesOf (nodes ++ others) := by
  have inside : (Node.argumentPlaces text nodes).filterMap Place.body? = Node.bodiesOf nodes := by
    induction nodes with
    | nil => rfl
    | cons n rest ih =>
      cases n with
      | column c => exact ih
      | _ => simp only [Node.argumentPlaces, Node.bodiesOf, Node.placesOf, List.filterMap_append, ih]
  rw [Node.bodiesOf_append, ← inside, Node.bodiesOf, Node.placesOf, List.filterMap_append, Node.places]
  rfl

end

namespace Sql

theorem columnOfPath_eq (path : List String) :
    columnOfPath path = (columnAtEnd path).toList.map Node.column := by
  rcases List.eq_nil_or_concat path with rfl | ⟨before, name, rfl⟩
  · rfl
  · rcases List.eq_nil_or_concat before with rfl | ⟨first, qualifier, rfl⟩ <;>
      simp [columnOfPath, columnAtEnd]

theorem flatMap_columnOfPath (paths : List (List String)) :
    paths.flatMap columnOfPath = (paths.filterMap columnAtEnd).map Node.column := by
  induction paths with
  | nil => rfl
  | cons path rest ih =>
    rw [List.flatMap_cons, columnOfPath_eq, ih, List.filterMap_cons]
    cases columnAtEnd path <;> simp

/-! What the lists of an expression are read as. -/

theorem Expr.nodesOf_eq (es : List Expr) : Expr.nodesOf es = es.flatMap Expr.nodes := by
  induction es with
  | nil => rfl
  | cons e rest ih => rw [nodesOf, ih, List.flatMap_cons]

theorem Expr.nodesOf?_eq (e : Option Expr) : Expr.nodesOf? e = e.toList.flatMap Expr.nodes := by
  cases e with
  | none => rfl
  | some e => exact (List.flatMap_singleton Expr.nodes e).symm

theorem Expr.nodesOfSets_eq (sets : List (List Expr)) :
    Expr.nodesOfSets sets = sets.flatten.flatMap Expr.nodes := by
  induction sets with
  | nil => rfl
  | cons members rest ih => rw [nodesOfSets, nodesOf_eq, ih, List.flatten_cons, List.flatMap_append]

theorem Branch.nodesOf_eq (branches : List Branch) : Branch.nodesOf branches =
    (branches.flatMap fun b => [b.condition, b.result]).flatMap Expr.nodes := by
  induction branches with
  | nil => rfl
  | cons b rest ih =>
    obtain ⟨condition, result⟩ := b
    simp [nodesOf, ih]

theorem Member.nodesOf_eq (members : List Member) :
    Member.nodesOf members = (members.map Member.value).flatMap Expr.nodes := by
  induction members with
  | nil => rfl
  | cons m rest ih =>
    obtain ⟨key, value⟩ := m
    rw [nodesOf, ih, List.map_cons, List.flatMap_cons]

theorem Entry.nodesOf_eq (entries : List Entry) : Entry.nodesOf entries =
    (entries.flatMap fun e => [e.key, e.value]).flatMap Expr.nodes := by
  induction entries with
  | nil => rfl
  | cons e rest ih =>
    obtain ⟨key, value⟩ := e
    simp [nodesOf, ih]

/-- Behind a value, only what stands in brackets is read. -/
theorem Selector.nodesOf_eq (chain : List Selector) : Selector.nodesOf chain =
    (Role.operand.among (chain.flatMap Selector.children)).flatMap Expr.nodes := by
  induction chain with
  | nil => rfl
  | cons taken rest ih =>
    cases taken <;>
      simp [nodesOf, children, ih, Expr.nodesOf?_eq]

theorem ArgumentClause.nodesOf_eq (clauses : List ArgumentClause) : ArgumentClause.nodesOf clauses =
    (Role.operand.among (clauses.flatMap ArgumentClause.children)).flatMap Expr.nodes := by
  induction clauses with
  | nil => rfl
  | cons clause rest ih =>
    cases clause <;> simp [nodesOf, children, ih, Expr.nodesOf_eq]

/-- Only the items in the parentheses of a call are its arguments. -/
theorem ArgumentClause.arguments_eq_nil (clauses : List ArgumentClause) :
    Role.argument.among (clauses.flatMap ArgumentClause.children) = [] := by
  induction clauses with
  | nil => rfl
  | cons clause rest ih => cases clause <;> simp [children, ih]

theorem Selector.arguments_eq_nil (chain : List Selector) :
    Role.argument.among (chain.flatMap Selector.children) = [] := by
  induction chain with
  | nil => rfl
  | cons taken rest ih => cases taken <;> simp [children, ih]

theorem Arguments.nodes_eq (a : Arguments) : a.nodes = a.items.flatMap Expr.nodes := by
  cases a <;> simp [nodes, items, Expr.nodesOf_eq, Expr.nodes]

theorem Arguments.clauseNodes_eq (a : Arguments) : a.clauseNodes =
    (Role.operand.among (a.clauses.flatMap ArgumentClause.children)).flatMap Expr.nodes := by
  cases a <;> simp [clauseNodes, clauses, ArgumentClause.nodesOf_eq, Role.among]

/-! The places of one expression. -/

/-- The places that an expression is itself, apart from the expressions within it. -/
def Expr.ownNodes (e : Expr) : List Node :=
  e.ownColumns.map Node.column ++ e.ownQuery?.toList.map fun q => Node.subquery q.scope

/-- What an expression is read as, whatever its kind. The arguments of a call are read within it and the
operands in its clauses beside it; any other expression is read behind its operands. -/
theorem Expr.nodes_cases (e : Expr) :
    (∃ name text, e.ownNodes = [] ∧ e.nodes =
        .call name text (e.arguments.flatMap Expr.nodes) :: e.operands.flatMap Expr.nodes) ∨
      (e.arguments = [] ∧ e.nodes = e.operands.flatMap Expr.nodes ++ e.ownNodes) := by
  cases e with
  | call callee braces parameters arguments nulls filter range within =>
    refine .inl ⟨Name.text callee,
      Expr.text (.call callee braces parameters arguments nulls filter range within), rfl, ?_⟩
    simp [Expr.arguments, operands, children, nodes, ArgumentClause.arguments_eq_nil, Arguments.nodes_eq,
      Arguments.clauseNodes_eq, nodesOf_eq, nodesOf?_eq]
  | search columns against =>
    have read := flatMap_columnOfPath (columns.map fun c => c.map fun part => unquoted part.text)
    rw [List.flatMap_map, List.filterMap_map] at read
    refine .inr ⟨rfl, ?_⟩
    simp [nodes, read, operands, children, ownNodes, ownColumns, ownQuery?]
  | path parts =>
    refine .inr ⟨rfl, ?_⟩
    simp [nodes, columnOfPath_eq, operands, children, ownNodes, ownColumns, ownQuery?]
  -- Any other kind is read operand by operand, in the order in which it holds them.
  | _ =>
    refine .inr ?_
    simp [Expr.arguments, operands, children, nodes, ownNodes, ownColumns, ownQuery?, nodesOf_eq, nodesOf?_eq,
      nodesOfSets_eq, Selector.nodesOf_eq, Selector.arguments_eq_nil, Branch.nodesOf_eq, Member.nodesOf_eq,
      Entry.nodesOf_eq]

/-- Whether nodes read what occurs in expressions: each column and each nested query once, in the order
in which they occur. -/
structure Expr.ReadAs (parts : List Expr) (nodes : List Node) : Prop where
  columns : Node.columnsOf nodes = parts.flatMap Expr.ownColumns
  queries : Node.bodiesOf nodes = (parts.filterMap Expr.ownQuery?).map Query.scope

namespace Expr.ReadAs
variable {parts others : List Expr} {nodes beside : List Node}

theorem nil : ReadAs [] [] := ⟨rfl, rfl⟩

theorem append (first : ReadAs parts nodes) (second : ReadAs others beside) :
    ReadAs (parts ++ others) (nodes ++ beside) where
  columns := by rw [Node.columnsOf_append, first.columns, second.columns, List.flatMap_append]
  queries := by
    rw [Node.bodiesOf_append, first.queries, second.queries, List.filterMap_append, List.map_append]

/-- A call around nodes makes no difference to what they read. -/
theorem call {name text : String} (inside : ReadAs parts nodes) (behind : ReadAs others beside) :
    ReadAs (parts ++ others) (.call name text nodes :: beside) where
  columns := by
    rw [← (inside.append behind).columns, Node.columnsOf_append, Node.columnsOf, Node.columns]
  queries := by rw [← (inside.append behind).queries, Node.bodiesOf_call]

/-- By itself, an expression is read as the columns that it mentions and the query that it holds. -/
theorem own (e : Expr) : ReadAs [e] e.ownNodes where
  columns := by
    rw [ownNodes, Node.columnsOf_append, Node.columnsOf_map_column, List.flatMap_singleton]
    cases e.ownQuery? <;> simp [Node.columnsOf, Node.columns]
  queries := by
    have columns : Node.bodiesOf (e.ownColumns.map Node.column) = [] := by
      induction e.ownColumns with
      | nil => rfl
      | cons c rest ih => exact ih
    rw [ownNodes, Node.bodiesOf_append, columns, List.nil_append]
    cases query : e.ownQuery? <;> simp [query, Node.bodiesOf, Node.placesOf, Node.places, Place.body?]

theorem flatMap {es : List Expr} (each : ∀ e ∈ es, ReadAs e.parts e.nodes) :
    ReadAs (es.flatMap Expr.parts) (es.flatMap Expr.nodes) := by
  induction es with
  | nil => exact nil
  | cons e rest ih =>
    obtain ⟨first, later⟩ := List.forall_mem_cons.mp each
    exact first.append (ih later)

end Expr.ReadAs

open Expr.ReadAs

/-- The places of an expression read what occurs in it. -/
theorem Expr.parts_read (e : Expr) : ReadAs e.parts e.nodes := by
  induction e using Expr.parts.induct with
  | case1 e ih =>
    have arguments : ReadAs (e.arguments.flatMap Expr.parts) (e.arguments.flatMap Expr.nodes) :=
      flatMap fun part held => ih part (List.mem_append_left _ held)
    have operands : ReadAs (e.operands.flatMap Expr.parts) (e.operands.flatMap Expr.nodes) :=
      flatMap fun part held => ih part (List.mem_append_right _ held)
    rw [parts_eq, inner, List.flatMap_append, List.append_assoc]
    -- Only a call has arguments, and it is itself no column and no query.
    rcases e.nodes_cases with ⟨name, text, bare, read⟩ | ⟨uncalled, read⟩
    · have beside := operands.append (own e)
      rw [bare, List.append_nil] at beside
      rw [read]
      exact arguments.call beside
    · rw [read, uncalled]
      exact operands.append (own e)

/-- **An expression is read exactly as it stands**: outside nested queries each name, path and searched
column is one mention of a column and nothing else is, and each nested query is one subquery. What occurs in
the expression is all that the expressions in it hold, except for what only describes something. -/
theorem Expr.read_exactly (e : Expr) :
    (Scope.ofNodes e.nodes).columns = e.columns ∧ Node.bodiesOf e.nodes = e.queries.map Query.scope ∧
      ∀ part ∈ e.parts, ∀ c ∈ part.children, c.expr ∈ e.parts ∨ c.role.describes = true :=
  ⟨e.parts_read.columns, e.parts_read.queries, fun _ held _ => e.mem_parts_of_child held⟩

end Sql
end TableAccess
