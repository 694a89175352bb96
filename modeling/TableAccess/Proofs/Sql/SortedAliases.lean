import TableAccess.Proofs.Sql.ReadClauses

/-! Names of outputs among the keys that order a query. A column that occurs in an expression, nested
queries apart, stands among the arguments of a call or it does not. Operators, conversions and branches make
no difference to that, and the clauses of a call stand beside its arguments. The keys read every column among
the arguments of calls, and of the others those that name no output. An alias is therefore taken for a column
exactly where it is an argument of a call, however deep the call lies. -/
namespace TableAccess

/-- A column where it occurs in an expression, and whether it stands among the arguments of a call. -/
structure Occurrence where
  column : ColumnRef
  inCall : Bool
deriving DecidableEq, Repr

/-- The columns at a node, those among the arguments of a call told apart. -/
def Node.occurrences : Node → List Occurrence
  | .column c => [⟨c, false⟩]
  | .call _ _ arguments => (Node.columnsOf arguments).map (⟨·, true⟩)
  | .subquery _ => []

theorem Node.columnsOf_eq_occurrences (nodes : List Node) :
    Node.columnsOf nodes = (nodes.flatMap Node.occurrences).map Occurrence.column := by
  induction nodes with
  | nil => rfl
  | cons n rest ih =>
    rw [columnsOf, ih, List.flatMap_cons, List.map_append]
    congr 1
    cases n with
    | call name text arguments => simp [occurrences, columns, Function.comp_def]
    | _ => rfl

theorem Node.occurrences_columns (columns : List ColumnRef) :
    (columns.map Node.column).flatMap Node.occurrences = columns.map (⟨·, false⟩) := by
  rw [List.flatMap_map]
  exact List.flatMap_pure_eq_map _ _

/-- Whether a column that occurs in a clause is read there, given the outputs that bare names in the clause
may mean. -/
def Occurrence.isRead (outputs : List Output) (o : Occurrence) : Bool :=
  o.inCall || !Sql.mentionsOutput outputs (.column o.column)

namespace Sql

/-- The columns that occur in an expression, those in nested queries apart. -/
def Expr.occurrences (e : Expr) : List Occurrence :=
  (Expr.columnsOf e.arguments).map (⟨·, true⟩)
    ++ e.operands.attach.flatMap (fun ⟨part, _⟩ => part.occurrences) ++ e.ownColumns.map (⟨·, false⟩)
termination_by sizeOf e
decreasing_by exact Expr.sizeOf_inner (List.mem_append_right _ ‹_›)

/-- The columns that occur in several expressions. -/
def Expr.occurrencesOf (es : List Expr) : List Occurrence := es.flatMap Expr.occurrences

/-! What is read of an expression. -/

/-- Of what is read in a clause, only nodes that are nothing but the name of an output are left out. -/
theorem columnsOf_filter_eq (outputs : List Output) (nodes : List Node) :
    Node.columnsOf (nodes.filter fun n => !mentionsOutput outputs n) =
      ((nodes.flatMap Node.occurrences).filter (Occurrence.isRead outputs)).map Occurrence.column := by
  induction nodes with
  | nil => rfl
  | cons n rest ih =>
    rw [List.flatMap_cons, List.filter_append, List.map_append, ← ih]
    cases n with
    | column c =>
      rw [List.filter_cons]
      cases named : mentionsOutput outputs (.column c) <;>
        simp [Node.occurrences, Occurrence.isRead, named, Node.columnsOf, Node.columns]
    | call name text arguments =>
      have all : ((Node.columnsOf arguments).map (Occurrence.mk · true)).filter
          (Occurrence.isRead outputs) = (Node.columnsOf arguments).map (⟨·, true⟩) :=
        List.filter_eq_self.mpr (List.forall_mem_map.mpr fun _ _ => rfl)
      rw [List.filter_cons_of_pos rfl, Node.columnsOf, Node.columns, Node.occurrences, all, List.map_map]
      exact congrArg (· ++ _) (List.map_id' _).symm
    | subquery body => rw [List.filter_cons_of_pos rfl, Node.columnsOf]; rfl

theorem Expr.occurrences_eq (e : Expr) : e.occurrences = (Expr.columnsOf e.arguments).map (⟨·, true⟩) ++
    Expr.occurrencesOf e.operands ++ e.ownColumns.map (⟨·, false⟩) := by
  rw [occurrences, occurrencesOf]
  simp

theorem Expr.occurrences_ownNodes (e : Expr) :
    e.ownNodes.flatMap Node.occurrences = e.ownColumns.map (⟨·, false⟩) := by
  rw [ownNodes, List.flatMap_append, Node.occurrences_columns]
  cases e.ownQuery? with
  | none => exact List.append_nil _
  | some q => exact List.append_nil _

theorem Expr.occurrences_nodes (e : Expr) : e.nodes.flatMap Node.occurrences = e.occurrences := by
  induction e using Expr.occurrences.induct with
  | case1 e ih =>
    have beside : (e.operands.flatMap Expr.nodes).flatMap Node.occurrences = occurrencesOf e.operands := by
      rw [List.flatMap_assoc, occurrencesOf]
      exact List.flatMap_congr ih
    rw [occurrences_eq, ← occurrences_ownNodes]
    rcases e.nodes_cases with ⟨name, text, bare, read⟩ | ⟨uncalled, read⟩
    · have inside : Node.columnsOf (e.arguments.flatMap Expr.nodes) = columnsOf e.arguments := by
        rw [← nodesOf_eq, columnsOf_nodesOf]
      rw [read, bare, List.flatMap_cons, beside, Node.occurrences, inside]
      exact (List.append_nil _).symm
    · rw [read, uncalled, List.flatMap_append, beside]
      rfl

theorem Expr.occurrences_nodesOf (es : List Expr) :
    (Expr.nodesOf es).flatMap Node.occurrences = Expr.occurrencesOf es := by
  rw [nodesOf_eq, List.flatMap_assoc, occurrencesOf]
  exact List.flatMap_congr fun e _ => e.occurrences_nodes

/-- Each column that occurs outside nested queries occurs in one place, among the arguments of a call or
not. -/
theorem Expr.occurrencesOf_column (es : List Expr) :
    (Expr.occurrencesOf es).map Occurrence.column = Expr.columnsOf es := by
  rw [← occurrences_nodesOf, ← Node.columnsOf_eq_occurrences, columnsOf_nodesOf]

/-- The keys of a query add to the columns of its body what they read. -/
theorem Query.columns_scope (q : Query) : q.scope.columns = q.body.scope.columns ++
    ((Expr.occurrencesOf q.order).filter (Occurrence.isRead q.body.outputs)).map Occurrence.column := by
  obtain ⟨isRecursive, ctes, body, orderShape, order, limitShape, limits, suffix⟩ := q
  have outputs := Body.outputs_scope body
  rw [← Expr.occurrences_nodesOf, ← columnsOf_filter_eq, ← outputs, scope, Scope.columns,
    Scope.columns, Scope.readBesideOutputs, Node.columnsOf_append]
  split <;> rfl

/-! Aliases of a selection. -/

/-- The alias that an item of a select list is given. A wildcard has none. -/
def SelectItem.alias? (item : SelectItem) : Option String :=
  match item.value with
  | .wildcard _ => none
  | .qualifiedWildcard _ _ => none
  | _ => item.aliasName.map Ident.value

/-- Whether a column is a bare name that is an alias of the selection. -/
def Select.IsAlias (selection : Select) (column : ColumnRef) : Prop :=
  column.qualifier = none ∧
    ∃ item ∈ selection.items, ∃ aliasName ∈ item.alias?, sameName aliasName column.name = true

theorem SelectItem.output_alias {item : SelectItem} {aliasName : String}
    (aliased : item.alias? = some aliasName) : item.output = .named aliasName := by
  obtain ⟨value, written⟩ := item
  unfold alias? at aliased
  unfold output
  cases written <;> cases value <;> simp_all

/-- A bare alias is read exactly among the arguments of a call. -/
theorem Select.isRead_alias {selection : Select} {o : Occurrence} (isAlias : selection.IsAlias o.column) :
    o.isRead (selection.items.map SelectItem.output) = o.inCall := by
  obtain ⟨⟨qualifier, name⟩, inCall⟩ := o
  obtain ⟨rfl, item, listed, aliasName, aliased, same⟩ := isAlias
  have named : mentionsOutput (selection.items.map SelectItem.output) (.column ⟨none, name⟩) = true :=
    List.any_eq_true.mpr ⟨item.output, List.mem_map_of_mem listed, by
      rw [SelectItem.output_alias aliased]
      exact same⟩
  simp [Occurrence.isRead, named]

/-- **The keys that order a selection read none of its aliases exactly if no alias stands among the arguments
of a call.** -/
theorem Query.aliases_unread_iff {q : Query} {selection : Select}
    (select : q.body.selection? = some selection) :
    let occurring := Expr.occurrencesOf q.order
    let read := occurring.filter (Occurrence.isRead (selection.items.map SelectItem.output))
    q.scope.columns = q.body.scope.columns ++ read.map Occurrence.column ∧
      ((∀ o ∈ read, ¬ selection.IsAlias o.column) ↔
        ∀ o ∈ occurring, selection.IsAlias o.column → o.inCall = false) := by
  intro occurring read
  have columns := q.columns_scope
  rw [Body.outputs_selection q.body select] at columns
  refine ⟨columns, fun unread o occurs isAlias => ?_,
    fun beside o kept isAlias => ?_⟩
  · by_contra inside
    have kept : o.isRead (selection.items.map SelectItem.output) = true := by
      rw [selection.isRead_alias isAlias]
      exact Bool.eq_true_of_not_eq_false inside
    exact unread o (List.mem_filter.mpr ⟨occurs, kept⟩) isAlias
  · obtain ⟨occurs, kept⟩ := List.mem_filter.mp kept
    rw [selection.isRead_alias isAlias, beside o occurs isAlias] at kept
    cases kept

/-- An alias as an operand is left out, and what stands in a call is read. -/
theorem Query.aliases_unread_iff_operand :
    ∃ q selection, Query.ofText? .postgresql
        "SELECT a AS total, b FROM t ORDER BY total + 1 DESC, COALESCE(b, 0)" = some q ∧
      q.body.selection? = some selection ∧ q.scope.columns = [⟨none, "a"⟩, ⟨none, "b"⟩, ⟨none, "b"⟩] := by
  have facts : (Query.ofText? .postgresql
      "SELECT a AS total, b FROM t ORDER BY total + 1 DESC, COALESCE(b, 0)").map (fun q =>
        (q.body.scope.columns, q.body.selection?.map fun s => (Expr.occurrencesOf q.order).filter
          (Occurrence.isRead (s.items.map SelectItem.output)))) =
      some ([⟨none, "a"⟩, ⟨none, "b"⟩], some [⟨⟨none, "b"⟩, true⟩]) := by decide +kernel
  obtain ⟨q, read, same⟩ := Option.map_eq_some_iff.mp facts
  obtain ⟨body, within⟩ := Prod.mk.inj same
  obtain ⟨selection, select, kept⟩ := Option.map_eq_some_iff.mp within
  refine ⟨q, selection, read, select, ?_⟩
  rw [(Query.aliases_unread_iff select).1, body, kept]
  rfl

/-- An alias is left out as an operand, but taken for a column as an argument. -/
theorem alias_read_in_call :
    (readStatement .postgresql "SELECT a AS total FROM t ORDER BY total + 0").toOption.map
        Statement.mentioned = some [⟨none, "a"⟩] ∧
      (readStatement .postgresql "SELECT a AS total FROM t ORDER BY COALESCE(total, 0)").toOption.map
        Statement.mentioned = some [⟨none, "a"⟩, ⟨none, "total"⟩] := by
  decide +kernel

end Sql
end TableAccess
