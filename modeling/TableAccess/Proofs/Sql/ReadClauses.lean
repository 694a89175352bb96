import Mathlib.Algebra.Order.Group.Multiset
import TableAccess.Proofs.Sql.StatementClauses

/-! Which clauses of a statement are read. The columns that the scopes of a statement mention are those of
the clauses that are read: at least the columns there that name no output, at most all that occur there,
each as often as it occurs. Of the other clauses nothing is mentioned. -/
namespace TableAccess.Sql

/-- Whether columns are those of the clauses that are read, apart from names of outputs. -/
structure Clause.ReadAs (clauses : List Clause) (columns : Multiset ColumnRef) : Prop where
  kept : ↑((clauses.filter isRead).flatMap needed) ≤ columns
  found : columns ≤ ↑((clauses.filter isRead).flatMap Clause.columns)

namespace Clause.ReadAs
variable {clauses others : List Clause} {columns beside : Multiset ColumnRef} {es : List Expr}

theorem nil : ReadAs [] 0 := ⟨le_rfl, le_rfl⟩

theorem append (first : ReadAs clauses columns) (second : ReadAs others beside) :
    ReadAs (clauses ++ others) (columns + beside) where
  kept := by
    rw [List.filter_append, List.flatMap_append, ← Multiset.coe_add]
    exact add_le_add first.kept second.kept
  found := by
    rw [List.filter_append, List.flatMap_append, ← Multiset.coe_add]
    exact add_le_add first.found second.found

theorem cons {c : Clause} (first : ReadAs [c] columns) (second : ReadAs others beside) :
    ReadAs (c :: others) (columns + beside) := first.append second

/-- Clauses that are not read add nothing. -/
theorem of_unread (unread : ∀ c ∈ clauses, c.isRead = false) : ReadAs clauses 0 := by
  have nothing : clauses.filter isRead = [] := by simpa using unread
  constructor <;> rw [nothing] <;> exact le_rfl

end Clause.ReadAs
open Clause.ReadAs

/-! Single clauses. -/

theorem columnsOf_nodesOf (es : List Expr) : Node.columnsOf (Expr.nodesOf es) = Expr.columnsOf es := by
  have read := @Expr.ReadAs.flatMap es fun e _ => e.parts_read
  rw [Expr.nodesOf_eq, read.columns, List.flatMap_assoc]
  rfl

theorem nodesOf?_eq_nodesOf (e : Option Expr) : Expr.nodesOf? e = Expr.nodesOf e.toList :=
  (Expr.nodesOf?_eq e).trans (Expr.nodesOf_eq e.toList).symm

/-- Names of outputs are left out only where they stand by themselves, not in the arguments of calls. -/
theorem columnsOf_filter (outputs : List Output) (nodes : List Node) :
    ((Node.columnsOf nodes).filter fun c => !mentionsOutput outputs (.column c)).Sublist
        (Node.columnsOf (nodes.filter fun n => !mentionsOutput outputs n)) ∧
      (Node.columnsOf (nodes.filter fun n => !mentionsOutput outputs n)).Sublist
        (Node.columnsOf nodes) := by
  induction nodes with
  | nil => exact ⟨.slnil, .slnil⟩
  | cons n rest ih =>
    cases n with
    | column c =>
      rw [Node.columnsOf, Node.columns, List.singleton_append, List.filter_cons, List.filter_cons]
      cases mentionsOutput outputs (.column c) with
      | true => exact ⟨ih.1, ih.2.trans (List.sublist_cons_self _ _)⟩
      | false => exact ⟨ih.1.cons_cons c, ih.2.cons_cons c⟩
    | _ =>
      rw [List.filter_cons_of_pos rfl, Node.columnsOf, Node.columnsOf, List.filter_append]
      exact ⟨List.filter_sublist.append ih.1, (List.Sublist.refl _).append ih.2⟩

theorem mentionsOutput_nil (n : Node) : mentionsOutput [] n = false := by
  unfold mentionsOutput
  split <;> rfl

/-- A clause whose bare names are no outputs is read with all its columns. -/
theorem Clause.readAs_of_outputs_eq_nil {c : Clause} (isRead : c.isRead = true)
    (bare : c.outputs = []) : Clause.ReadAs [c] ↑c.columns := by
  have needed : c.needed = c.columns := by
    rw [Clause.needed, bare]
    exact List.filter_eq_self.mpr fun column _ => by rw [mentionsOutput_nil]; rfl
  constructor <;> simp [isRead, needed]

theorem Clause.read_readAs (es : List Expr) :
    Clause.ReadAs [.read es] ↑(Node.columnsOf (Expr.nodesOf es)) := by
  rw [columnsOf_nodesOf]
  exact readAs_of_outputs_eq_nil rfl rfl

theorem Clause.naming_readAs (outputs : List Output) (es : List Expr) :
    Clause.ReadAs [.naming outputs es]
      ↑(Node.columnsOf ((Expr.nodesOf es).filter fun n => !mentionsOutput outputs n)) := by
  obtain ⟨kept, found⟩ := columnsOf_filter outputs (Expr.nodesOf es)
  rw [columnsOf_nodesOf] at kept found
  constructor
  · simpa [Clause.naming, Clause.needed] using kept.subperm
  · simpa [Clause.naming] using found.subperm

theorem Clause.unread_readAs (es : List Expr) : Clause.ReadAs [.unread es] 0 :=
  of_unread (List.forall_mem_singleton.mpr rfl)

theorem Clause.shared_readAs (columns : List Name) (previous current : Option String) :
    Clause.ReadAs [.shared columns (previous.toList ++ current.toList)]
      ↑(Node.columnsOf (sharedColumns columns previous current)) := by
  unfold sharedColumns Clause.shared
  generalize previous.toList ++ current.toList = sides
  have read : Node.columnsOf (columns.flatMap fun column =>
      sides.map fun side => .column ⟨some side, Name.last column⟩) =
      columns.flatMap fun column => sides.map fun side => ⟨some side, Name.last column⟩ := by
    rw [← Node.columnsOf_map_column (columns.flatMap _), List.map_flatMap]
    simp only [List.map_map, Function.comp_def]
  rw [read]
  split
  · next unnamed =>
    have nothing : columns.flatMap (fun column =>
        sides.map fun side => (⟨some side, Name.last column⟩ : ColumnRef)) = [] := by
      simp [List.isEmpty_iff.mp unnamed]
    rw [nothing]
    exact of_unread (List.forall_mem_singleton.mpr rfl)
  · exact Clause.readAs_of_outputs_eq_nil rfl rfl

/-! Columns that scopes mention. -/

section
variable {nodes : List Node} {a b s : Scope}

theorem Derived.mentionedOf_append (first second : List Derived) :
    Derived.mentionedOf (first ++ second) = Derived.mentionedOf first ++ Derived.mentionedOf second := by
  induction first with
  | nil => rfl
  | cons d rest ih =>
    obtain ⟨_ | _, _, _⟩ := d
    · rw [List.cons_append, Derived.mentionedOf, ih, Derived.mentionedOf, List.append_assoc]
    · rw [List.cons_append, Derived.mentionedOf, ih, Derived.mentionedOf]

theorem mentioned_eq (s : Scope) :
    s.mentioned = Derived.mentionedOf s.derived ++ Node.columnsOf s.nodes := by
  cases s
  rfl

theorem mentioned_append : ((a ++ b).mentioned : Multiset ColumnRef) = ↑a.mentioned + ↑b.mentioned := by
  simp only [mentioned_eq]
  change (↑(Derived.mentionedOf (a.derived ++ b.derived) ++ Node.columnsOf (a.nodes ++ b.nodes)) :
    Multiset ColumnRef) = _
  simp only [Derived.mentionedOf_append, Node.columnsOf_append, ← Multiset.coe_add]
  exact add_add_add_comm _ _ _ _

theorem mentioned_ofNodes : (Scope.ofNodes nodes).mentioned = Node.columnsOf nodes := rfl

theorem mentioned_besideOutputs : ((Scope.readBesideOutputs s nodes).mentioned : Multiset ColumnRef) =
    ↑s.mentioned + ↑(Node.columnsOf (nodes.filter fun n => !mentionsOutput s.outputs n)) := by
  rw [mentioned_eq, mentioned_eq, Scope.readBesideOutputs, Node.columnsOf_append, ← List.append_assoc,
    ← Multiset.coe_add]

theorem mentioned_unnamed (columns : List String) :
    ({ Scope.empty with derived := [⟨none, columns, s⟩] } : Scope).mentioned = s.mentioned := by
  simp [Scope.mentioned, Derived.mentionedOf, Node.columnsOf, Scope.empty]

theorem mentioned_ofSides : (Scope.ofSides a b).mentioned = a.mentioned ++ b.mentioned := by
  simp [Scope.mentioned, Scope.ofSides, Derived.mentionedOf, Node.columnsOf, Scope.empty]

/-- Names that a scope declares make no difference to the columns that it mentions. -/
theorem mentioned_named {ctes : List TableAccess.Cte} : ({ s with ctes } : Scope).mentioned = s.mentioned := by
  cases s
  rfl

end

/-! Outputs. -/

mutual

theorem JoinedTable.outputs_scope : ∀ t : JoinedTable, t.scope.outputs = []
  | ⟨relation, joins⟩ => by
    change relation.scope.outputs ++ (Join.scopes _ joins).outputs = []
    rw [relation.outputs_scope, Join.outputs_scopes]
    rfl

theorem Relation.outputs_scope : ∀ r : Relation, r.scope.outputs = []
  | .table _ _ _ _ => rfl
  | .derived _ _ _ => rfl
  | .nested joined _ => joined.outputs_scope
  | .unnest _ _ _ _ => rfl
  | .tableFunction _ _ => rfl
  | .other _ _ => rfl

theorem Join.outputs_scopes : ∀ (previous : Option String) (joins : List Join),
    (Join.scopes previous joins).outputs = []
  | _, [] => rfl
  | _, ⟨_, relation, _, _, _⟩ :: rest => by
    change (relation.scope.outputs ++ []) ++ (Join.scopes _ rest).outputs = []
    rw [relation.outputs_scope, Join.outputs_scopes]
    rfl

end

theorem JoinedTable.outputs_scopes : ∀ tables : List JoinedTable, (JoinedTable.scopes tables).outputs = []
  | [] => rfl
  | t :: rest => by
    change t.scope.outputs ++ (JoinedTable.scopes rest).outputs = []
    rw [t.outputs_scope, outputs_scopes rest]
    rfl

theorem SelectItem.outputs_scopes : ∀ items : List SelectItem,
    (SelectItem.scopes items).outputs = items.map SelectItem.output
  | [] => rfl
  | ⟨_, _⟩ :: rest => congrArg (List.cons _) (outputs_scopes rest)

/-- What the sources and the select list of a selection give. -/
theorem outputs_sources {items : List SelectItem} {tables : List JoinedTable} (nodes : List Node) :
    (SelectItem.scopes items ++ JoinedTable.scopes tables ++ Scope.ofNodes nodes).outputs =
      items.map SelectItem.output := by
  change (SelectItem.scopes items).outputs ++ (JoinedTable.scopes tables).outputs ++ [] = _
  rw [SelectItem.outputs_scopes, JoinedTable.outputs_scopes, List.append_nil, List.append_nil]

theorem Select.outputs_scope : ∀ s : Select, s.scope.outputs = s.items.map SelectItem.output
  | ⟨_, _, _, distinctOn, _, _, _, _, _, prewhere, condition, _, _, _, _, _, _, _, _, _, _, _⟩ =>
    (List.append_nil _).trans (outputs_sources
      (Expr.nodesOf distinctOn ++ Expr.nodesOf? prewhere ++ Expr.nodesOf? condition))

mutual

theorem Query.outputs_scope : ∀ q : Query, q.scope.outputs = q.outputs
  | ⟨_, ctes, body, _, _, _, _, _⟩ => by
    rw [Query.scope, Query.outputs, ← Body.outputs_scope body, Scope.readBesideOutputs]
    split <;> rfl

theorem Body.outputs_scope : ∀ b : Body, b.scope.outputs = b.outputs
  | .select selection => selection.outputs_scope
  | .query query => Query.outputs_scope query
  | .operation left _ _ => Body.outputs_scope left
  | .values _ _ _ _ => rfl
  | .table _ _ => rfl
  | .insertion _ => rfl
  | .update _ => rfl
  | .deletion _ => rfl
  | .merge => rfl

end

/-! Clauses and scopes. -/

theorem SelectItem.mentioned_scopes (items : List SelectItem) :
    (SelectItem.scopes items).mentioned = Node.columnsOf (Expr.nodesOf (items.map SelectItem.value)) := by
  have only : (SelectItem.scopes items).derived = [] ∧
      (SelectItem.scopes items).nodes = Expr.nodesOf (items.map SelectItem.value) := by
    induction items with
    | nil => exact ⟨rfl, rfl⟩
    | cons item rest ih =>
      cases item with
      | mk value aliasName => exact ⟨ih.1, congrArg (value.nodes ++ ·) ih.2⟩
  rw [mentioned_eq, only.1, only.2]
  rfl

theorem Clause.hidden_readAs {clauses : List Clause} :
    Clause.ReadAs (clauses.map fun c => { c with isRead := false }) 0 :=
  of_unread (List.forall_mem_map.mpr fun _ _ => rfl)

mutual

theorem Query.clauses_readAs : ∀ q : Query, Clause.ReadAs q.clauses ↑q.scope.mentioned
  | ⟨_, ctes, body, _, order, _, limits, _⟩ => by
    have clauses := (Body.clauses_readAs body).append
      ((Clause.naming_readAs body.outputs order).cons (Clause.unread_readAs limits))
    rw [add_zero] at clauses
    rw [Query.scope, mentioned_besideOutputs]
    split
    · rwa [Body.outputs_scope]
    · rw [mentioned_named]
      change Clause.ReadAs _ (_ + ↑(Node.columnsOf
        ((Expr.nodesOf order).filter fun n => !mentionsOutput body.scope.outputs n)))
      rwa [Body.outputs_scope]

theorem Body.clauses_readAs : ∀ b : Body, Clause.ReadAs b.clauses ↑b.scope.mentioned
  | .select selection => Select.clauses_readAs selection
  | .query query => Query.clauses_readAs query
  | .operation left _ right => by
    rw [Body.scope, mentioned_ofSides, ← Multiset.coe_add]
    exact (Body.clauses_readAs left).append (Body.clauses_readAs right)
  | .values _ _ _ cells => Clause.read_readAs cells
  | .table _ _ => nil
  | .insertion _ => Clause.hidden_readAs
  | .update _ => Clause.hidden_readAs
  | .deletion _ => Clause.hidden_readAs
  | .merge => nil

theorem Select.clauses_readAs : ∀ s : Select, Clause.ReadAs s.clauses ↑s.scope.mentioned
  | ⟨_, _, _, distinctOn, _, items, _, tables, _, prewhere, condition, groupsAll, group, _,
      cluster, distribute, sort, having, windows, qualify, _, hierarchy⟩ => by
    have grouped : (if groupsAll then [] else Expr.nodesOf group) =
        Expr.nodesOf (if groupsAll then [] else group) := by cases groupsAll <;> rfl
    have sources := (Clause.read_readAs (items.map SelectItem.value)).cons
      (JoinedTable.clausesOf_readAs tables)
    have naming := Clause.naming_readAs (items.map SelectItem.output)
    have later := (naming (if groupsAll then [] else group)).cons ((naming having.toList).cons
      ((naming qualify.toList).cons ((naming cluster).cons ((naming distribute).cons
        ((naming sort).cons ((Clause.read_readAs windows).cons (Clause.unread_readAs hierarchy)))))))
    have clauses := sources.append ((Clause.read_readAs distinctOn).cons
      ((Clause.read_readAs prewhere.toList).cons ((Clause.read_readAs condition.toList).cons later)))
    rw [Select.scope, mentioned_append, mentioned_besideOutputs, outputs_sources, mentioned_append,
      mentioned_append, mentioned_ofNodes, mentioned_ofNodes, SelectItem.mentioned_scopes]
    simp only [grouped, nodesOf?_eq_nodesOf, List.filter_append, Node.columnsOf_append, ← Multiset.coe_add,
      add_assoc, add_zero] at clauses ⊢
    exact clauses

theorem JoinedTable.clauses_readAs : ∀ t : JoinedTable, Clause.ReadAs t.clauses ↑t.scope.mentioned
  | ⟨relation, joins⟩ => by
    rw [JoinedTable.scope, mentioned_append]
    exact (Relation.clauses_readAs relation).append (Join.clauses_readAs _ joins)

theorem JoinedTable.clausesOf_readAs : ∀ tables : List JoinedTable,
    Clause.ReadAs (JoinedTable.clausesOf tables) ↑(JoinedTable.scopes tables).mentioned
  | [] => nil
  | t :: rest => by
    rw [JoinedTable.scopes, mentioned_append]
    exact (JoinedTable.clauses_readAs t).append (JoinedTable.clausesOf_readAs rest)

theorem Relation.clauses_readAs : ∀ r : Relation, Clause.ReadAs r.clauses ↑r.scope.mentioned
  | .table _ _ _ _ => nil
  | .derived _ query none => by
    have read := Query.clauses_readAs query
    rw [← mentioned_unnamed []] at read
    exact read
  | .derived _ query (some _) => nil
  | .nested joined _ => JoinedTable.clauses_readAs joined
  | .unnest arrays _ _ _ => Clause.read_readAs arrays
  | .tableFunction call _ => by
    have read := Clause.read_readAs [call]
    rwa [Expr.nodesOf, Expr.nodesOf, List.append_nil] at read
  | .other _ _ => nil

theorem Join.clauses_readAs : ∀ (previous : Option String) (joins : List Join),
    Clause.ReadAs (Join.clausesOf previous joins) ↑(Join.scopes previous joins).mentioned
  | _, [] => nil
  | previous, ⟨_, relation, matching, tie, condition⟩ :: rest => by
    have own := (Relation.clauses_readAs relation).append
      ((Clause.read_readAs matching.toList).cons (Clause.read_readAs condition.toList))
    have later := Join.clauses_readAs (relation.key.orElse fun _ => previous) rest
    cases tie with
    | shared columns =>
      have clauses := (own.append (Clause.shared_readAs columns previous relation.key)).append later
      simp only [Join.scopes, mentioned_append, mentioned_ofNodes, Node.columnsOf_append, nodesOf?_eq_nodesOf,
        ← Multiset.coe_add, add_assoc] at clauses ⊢
      exact clauses
    | _ =>
      have clauses := (own.append nil).append later
      simp only [Join.scopes, mentioned_append, mentioned_ofNodes, Node.columnsOf_append, nodesOf?_eq_nodesOf,
        ← Multiset.coe_add, add_assoc, add_zero, Node.columnsOf, Multiset.coe_nil] at clauses ⊢
      exact clauses

end

/-! Statements. -/

theorem Assignment.nodes_eq (assignments : List Assignment) :
    Assignment.nodes assignments = Expr.nodesOf (assignments.map Assignment.value) := by
  induction assignments with
  | nil => rfl
  | cons a rest ih => exact congrArg (a.value.nodes ++ ·) ih

theorem conflictColumns_eq (columns : Option (List Ident)) :
    conflictColumns columns = Expr.nodesOf ((columns.getD []).map Expr.name) := by
  rw [conflictColumns]
  induction columns.getD [] with
  | nil => rfl
  | cons c rest ih => exact congrArg (Node.column ⟨none, c.value⟩ :: ·) ih

theorem Query.clausesOf?_readAs (q : Option Query) :
    Clause.ReadAs (Query.clausesOf? q) ↑((q.map Query.scope).toList.flatMap Scope.mentioned) := by
  cases q with
  | none => exact nil
  | some q =>
    simp only [Option.map_some, Option.toList_some, List.flatMap_singleton]
    exact q.clauses_readAs

theorem mentioned_empty : Scope.empty.mentioned = [] := rfl

/-- A scope that reads tables by name alone mentions no columns. -/
theorem mentioned_ofTable {table : TableRef} : (Scope.ofTable table).mentioned = [] := rfl

theorem mentioned_getD (s : Option Scope) :
    (s.getD Scope.empty).mentioned = s.toList.flatMap Scope.mentioned := by
  cases s with
  | none => rfl
  | some s => exact (List.append_nil _).symm

/-- The rows that an insertion takes from a query, and the values that it sets one by one. -/
theorem Insertion.source_readAs (i : Insertion) :
    Clause.ReadAs (Query.clausesOf? i.source ++ [.read (i.assignments.map Assignment.value)])
      ↑(i.outline.source.toList.flatMap Scope.mentioned) := by
  have clauses := (Query.clausesOf?_readAs i.source).append
    (Clause.read_readAs (i.assignments.map Assignment.value))
  cases values : i.assignments with
  | nil =>
    rw [values, List.map_nil, Expr.nodesOf, Node.columnsOf, Multiset.coe_nil, add_zero] at clauses
    simp only [Insertion.outline, values, List.isEmpty_nil, if_true]
    exact clauses
  | cons a rest =>
    rw [values] at clauses
    simp only [Insertion.outline, values, List.isEmpty_cons, Bool.false_eq_true, if_false,
      Option.toList_some, List.flatMap_singleton, mentioned_append, mentioned_ofNodes, mentioned_getD,
      Assignment.nodes_eq]
    exact clauses

theorem Insertion.upsert_readAs (i : Insertion) (table : TableRef) :
    Clause.ReadAs (Clause.ofUpsert i.upsertAssignments i.upsertCondition i.upsert)
      ↑((i.upsertOutline table).toList.flatMap fun u => u.scope.mentioned) := by
  have values := Clause.read_readAs (i.upsertAssignments.map Assignment.value)
  have conflict (columns : Option (List Ident)) :=
    Clause.read_readAs ((columns.getD []).map Expr.name)
  cases shape : i.upsert with
  | none =>
    simp only [Insertion.upsertOutline, shape]
    exact nil
  | some shape' =>
    cases shape' with
    | duplicateKey =>
      simp only [Insertion.upsertOutline, shape, Option.toList_some, List.flatMap_singleton]
      rw [Clause.ofUpsert]
      cases i.rowAlias <;>
        simpa only [mentioned_append, mentioned_empty, mentioned_ofTable, mentioned_ofNodes,
          Assignment.nodes_eq, Multiset.coe_nil, zero_add] using values
    | nothing columns =>
      simp only [Insertion.upsertOutline, shape, conflictColumns_eq]
      split
      · next unnamed =>
        have clauses := conflict columns
        rw [List.isEmpty_iff.mp unnamed] at clauses
        exact clauses
      · simp only [Option.toList_some, List.flatMap_singleton, mentioned_append, mentioned_ofTable,
          mentioned_ofNodes, Multiset.coe_nil, zero_add]
        exact conflict columns
    | update columns =>
      have clauses := (conflict columns).cons
        (values.cons (Clause.read_readAs i.upsertCondition.toList))
      simp only [Insertion.upsertOutline, shape, Option.toList_some, List.flatMap_singleton,
        mentioned_append, mentioned_ofTable, mentioned_ofNodes, conflictColumns_eq, Assignment.nodes_eq,
        nodesOf?_eq_nodesOf, Multiset.coe_nil, zero_add, add_assoc]
      exact clauses

theorem Insertion.clauses_readAs : ∀ i : Insertion,
    Clause.ReadAs i.clauses ↑(TableAccess.Statement.insert i.outline).mentioned
  | ⟨words, table, aliasName, columns, source, assignments, rowAlias, upsert, upsertAssignments,
      upsertCondition, returning⟩ => by
    let i : Insertion := ⟨words, table, aliasName, columns, source, assignments, rowAlias, upsert,
      upsertAssignments, upsertCondition, returning⟩
    have clauses := i.source_readAs.append ((i.upsert_readAs i.outline.table).append
      (Clause.unread_readAs (returning.map SelectItem.value)))
    rw [add_zero, Multiset.coe_add, List.append_assoc, List.singleton_append] at clauses
    rw [Insertion.clauses, List.append_assoc, List.cons_append]
    exact clauses

theorem Update.clauses_readAs : ∀ u : Update, Clause.ReadAs u.clauses ↑u.outline.scope.mentioned
  | ⟨_, table, _, sources, assignments, condition, returning, limit⟩ => by
    have clauses := ((JoinedTable.clauses_readAs table).append
      (JoinedTable.clausesOf_readAs sources)).append
      ((Clause.read_readAs (assignments.map Assignment.value)).cons
        ((Clause.read_readAs condition.toList).cons
          ((Clause.unread_readAs (returning.map SelectItem.value)).cons
            (Clause.unread_readAs limit.toList))))
    simp only [Update.outline, mentioned_append, mentioned_ofNodes, Node.columnsOf_append, nodesOf?_eq_nodesOf,
      Assignment.nodes_eq, ← Multiset.coe_add, add_zero] at clauses ⊢
    exact clauses

theorem Deletion.clauses_readAs : ∀ d : Deletion, Clause.ReadAs d.clauses ↑d.scope.mentioned
  | ⟨_, _, sources, _, others, condition, returning, order, limit⟩ => by
    have clauses := ((JoinedTable.clausesOf_readAs sources).append
      (JoinedTable.clausesOf_readAs others)).append
      ((Clause.read_readAs condition.toList).cons
        ((Clause.unread_readAs (returning.map SelectItem.value)).cons
          ((Clause.unread_readAs order).cons (Clause.unread_readAs limit.toList))))
    simp only [Deletion.scope, mentioned_append, mentioned_ofNodes, nodesOf?_eq_nodesOf, add_zero] at clauses ⊢
    exact clauses

theorem Statement.clauses_readAs (st : Statement) : Clause.ReadAs st.clauses ↑st.outline.mentioned := by
  cases st with
  | query q => exact q.clauses_readAs
  | insertion i => exact i.clauses_readAs
  | update u => exact u.clauses_readAs
  | deletion d => exact d.clauses_readAs
  | _ => exact nil

/-- **Of each clause that is read all columns are mentioned, of the others none.** The columns that a
statement mentions are at least those of its read clauses that name no output, each as often as it occurs
there, and at most all that occur there. -/
theorem Statement.mentioned_between (st : Statement) :
    (↑((st.clauses.filter Clause.isRead).flatMap Clause.needed) : Multiset ColumnRef) ≤
        ↑st.outline.mentioned ∧
      (↑st.outline.mentioned : Multiset ColumnRef) ≤
        ↑((st.clauses.filter Clause.isRead).flatMap Clause.columns) :=
  ⟨st.clauses_readAs.kept, st.clauses_readAs.found⟩

/-- The start of a hierarchy and what ties its levels together are not read. -/
theorem hierarchy_not_mentioned :
    ((statements .generic ("SELECT name FROM employees " ++
      "START WITH manager_id IS NULL CONNECT BY PRIOR id = manager_id")).toOption.map fun all =>
        all.map fun st => (st.clauses.flatMap Clause.needed, st.outline.mentioned)) =
      some [([⟨none, "name"⟩, ⟨none, "manager_id"⟩, ⟨none, "id"⟩, ⟨none, "manager_id"⟩],
        [⟨none, "name"⟩])] := by
  decide +kernel

end TableAccess.Sql
