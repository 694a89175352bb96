import TableAccess.Proofs.Access.BucketNotes
import TableAccess.Proofs.Access.DepthBound
import TableAccess.Proofs.Collection
import TableAccess.Proofs.Sql.SetChains

/-! How deep a chain of set operations reaches. Its branches stand next to each other in the text and nothing is
nested in them, but each operation is one more level of the scope. So a branch lies as deep as the number of the
operations that it is in, which grows with the chain: a chain is resolved whole if the bound on the depth allows
that many levels, and is cut off otherwise. -/
namespace TableAccess

/-- A resolution notes nothing as too deep exactly if its statement reaches no further than the bound. -/
theorem Statement.uncut_iff (r : Resolver) (s : Statement) (id : Option StatementId) :
    (∀ n ∈ (r.resolve s id).notes, n.finding ≠ .depthExceeded) ↔ s.height ≤ r.maxDepth := by
  have complete : (∀ n ∈ (r.resolve s id).notes, n.finding ≠ .depthExceeded) ↔ (s.read r).Complete := by
    rw [notes_resolve, List.forall_mem_map]
    simp only [Diagnostic.finding_tagged, Reading.Complete, Diagnostic.isCut, beq_eq_false_iff_ne]
    constructor
    · intro uncut n noted
      obtain ⟨k, kept, same⟩ := exists_mem_firstNotes noted
      have finding : k.finding = n.finding := congrArg Prod.fst same
      exact finding ▸ uncut k kept
    · exact fun uncut n kept => uncut n (mem_of_mem_firstNotes kept)
  rw [complete, Reading.complete_iff_cuts, cuts_read, List.map_eq_nil_iff, nestedAt_eq_nil_iff]

namespace Sql

/-! A selection of columns from one table. -/

theorem SelectItem.scopes_names (columns : List Ident) :
    SelectItem.scopes (columns.map fun c => ⟨.name c, none⟩) =
      ⟨[], [], [], columns.map fun c => .column ⟨none, c.value⟩,
        columns.map fun c => SelectItem.output ⟨.name c, none⟩⟩ := by
  induction columns with
  | nil => rfl
  | cons c rest ih =>
    rw [List.map_cons, SelectItem.scopes, ih]
    rfl

theorem Node.columnsOf_names (columns : List Ident) :
    Node.columnsOf (columns.map fun c => .column ⟨none, c.value⟩) = columns.map fun c => ⟨none, c.value⟩ := by
  induction columns with
  | nil => rfl
  | cons c rest ih => exact congrArg (List.cons _) ih

namespace PlainSelect
variable {r : Resolver} {depth : Nat}

/-- The table that a plain selection reads, as it is written. -/
def tableName (p : PlainSelect) : String := Name.last [p.table]

theorem scope_select (p : PlainSelect) : p.select.scope =
    ⟨[], [⟨p.tableName, none⟩], [], p.columns.map fun c => .column ⟨none, c.value⟩,
      p.columns.map fun c => SelectItem.output ⟨.name c, none⟩⟩ := by
  have items := SelectItem.scopes_names p.columns
  have sources : JoinedTable.scopes [⟨.table [p.table] "" none "", []⟩] = Scope.ofTable ⟨p.tableName, none⟩ := rfl
  change Scope.readBesideOutputs ((SelectItem.scopes _ ++ JoinedTable.scopes _) ++ Scope.ofNodes []) [] ++
    Scope.ofNodes [] = _
  rw [items, sources]
  simp only [Scope.readBesideOutputs, Scope.ofNodes, Scope.ofTable, Scope.empty, HAppend.hAppend, Append.append,
    Scope.append]
  simp

/-- Nothing is nested in a plain selection. -/
theorem height_select (p : PlainSelect) : p.select.scope.height = 0 := by
  have flat (listed : List Ident) : Node.heightOf (listed.map fun c => .column ⟨none, c.value⟩) = 0 := by
    induction listed with
    | nil => rfl
    | cons c rest ih => rw [List.map_cons, Node.heightOf, Node.height, ih, Nat.max_self]
  rw [p.scope_select, Scope.height, flat]
  rfl

/-- A plain selection sees its table. -/
theorem frame_select (p : PlainSelect) : p.select.scope.frame r [] [] depth =
    ⟨⟨[⟨p.tableName, r.catalog.canonical [] p.tableName⟩]⟩, [], []⟩ := by
  rw [p.scope_select]
  rfl

/-- Where a plain selection is visited, its table is recorded, and its columns for that table. -/
theorem recorded {p : PlainSelect} {s : TableAccess.Statement} (visited : s.Visited r [⟨p.select.scope, [], depth⟩]) :
    r.catalog.canonical [] p.tableName ∈ (s.read r).tables ∧
      ∀ c ∈ p.columns, (r.catalog.canonical [] p.tableName,
        r.catalog.spelling [] (r.catalog.canonical [] p.tableName) c.value) ∈ (s.read r).columns := by
  constructor
  · refine Statement.mem_tables_read.mpr (.inr ⟨_, _, visited, .inr ?_⟩)
    rw [Visit.frame]
    change _ ∈ (Scope.frame r [] [] depth p.select.scope).aliases.entries.map AliasEntry.table
    rw [p.frame_select]
    exact List.mem_singleton_self _
  · intro c listed
    have mentions : (⟨none, c.value⟩ : ColumnRef) ∈ p.select.scope.columns := by
      rw [Scope.columns, p.scope_select]
      exact Node.columnsOf_names p.columns ▸ List.mem_map_of_mem listed
    refine Statement.mem_columns_of_mention visited mentions ?_
    change _ ∈ (r.mention [Scope.frame r [] [] depth p.select.scope] ⟨none, c.value⟩).columns
    rw [p.frame_select]
    exact List.mem_singleton_self _

end PlainSelect

/-! The levels of operations. -/

theorem Scope.height_ofSides (left right : Scope) :
    (Scope.ofSides left right).height = max left.height right.height + 1 := by
  rw [Scope.ofSides, Scope.empty]
  simp only [Scope.height, Cte.heightOf, Derived.heightOf, Node.heightOf]
  omega

/-- Each operation is one level above its sides. -/
theorem Body.height_joined (left : Body) (more : List (String × Body)) :
    (left.joined more).scope.height =
      more.foldl (fun height pair => max height pair.2.scope.height + 1) left.scope.height := by
  induction more generalizing left with
  | nil => rfl
  | cons pair more ih => rw [joined, ih, Body.scope, Scope.height_ofSides, List.foldl_cons]

/-- Each right side that has no levels of its own makes for one more. -/
theorem foldl_levels {α : Type} {height : α → Nat} {sides : List α} (flat : ∀ side ∈ sides, height side = 0)
    (start : Nat) :
    sides.foldl (fun level side => max level (height side) + 1) start = start + sides.length := by
  induction sides generalizing start with
  | nil => rfl
  | cons side sides ih =>
    obtain ⟨first, others⟩ := List.forall_mem_cons.mp flat
    rw [List.foldl_cons, ih others, first, List.length_cons]
    omega

theorem Intersection.height_scope (i : Intersection) : i.body.scope.height = i.more.length := by
  have start : (Body.select i.first.select).scope.height = 0 := i.first.height_select
  rw [Intersection.body, Body.height_joined, List.foldl_map, start]
  exact (foldl_levels (fun p _ => p.height_select) 0).trans (Nat.zero_add _)

/-! The branches of operations. -/

/-- Whether a selection is a branch of a body, any number of operations deep. -/
inductive Body.HasBranch (p : PlainSelect) : Body → Prop
  | here : HasBranch p (.select p.select)
  | left {left right : Body} {operator : String} (inner : HasBranch p left) :
      HasBranch p (.operation left operator right)
  | right {left right : Body} {operator : String} (inner : HasBranch p right) :
      HasBranch p (.operation left operator right)

section
variable {r : Resolver} {p : PlainSelect} {b : Body} {whole : Scope} {depth : Nat}

/-- Each branch is visited, if the body reaches no further than the bound. -/
theorem Body.HasBranch.visited (branch : b.HasBranch p) (seen : whole.Visited r [⟨b.scope, [], depth⟩])
    (low : depth + b.scope.height ≤ r.maxDepth) : ∃ depth, whole.Visited r [⟨p.select.scope, [], depth⟩] := by
  induction branch generalizing depth with
  | here => exact ⟨depth, seen⟩
  | @left left right operator inner ih =>
    have height : (Body.operation left operator right).scope.height = max left.scope.height right.scope.height + 1 :=
      Scope.height_ofSides _ _
    have within : depth < r.maxDepth := by omega
    have side : whole.Visited r [⟨left.scope, [], depth + 1⟩] :=
      .derived seen within (d := ⟨none, [], left.scope⟩) List.mem_cons_self
    exact ih side (by omega)
  | @right left right operator inner ih =>
    have height : (Body.operation left operator right).scope.height = max left.scope.height right.scope.height + 1 :=
      Scope.height_ofSides _ _
    have within : depth < r.maxDepth := by omega
    have side : whole.Visited r [⟨right.scope, [], depth + 1⟩] :=
      .derived seen within (d := ⟨none, [], right.scope⟩) (List.mem_cons_of_mem _ List.mem_cons_self)
    exact ih side (by omega)

theorem Body.hasBranch_joined {left : Body} {more : List (String × Body)}
    (held : left.HasBranch p ∨ ∃ pair ∈ more, pair.2.HasBranch p) : (left.joined more).HasBranch p := by
  induction more generalizing left with
  | nil =>
    rcases held with inner | ⟨_, listed, _⟩
    · exact inner
    · cases listed
  | cons pair more ih =>
    refine ih ?_
    rcases held with inner | ⟨pair', listed, inner⟩
    · exact .inl (.left inner)
    · rcases List.mem_cons.mp listed with rfl | later
      · exact .inl (.right inner)
      · exact .inr ⟨pair', later, inner⟩

theorem Intersection.hasBranch {i : Intersection} (listed : p ∈ i.branches) : i.body.HasBranch p := by
  refine Body.hasBranch_joined ?_
  rcases List.mem_cons.mp listed with rfl | later
  · exact .inl .here
  · exact .inr ⟨_, List.mem_map_of_mem later, .here⟩

theorem SetChain.hasBranch {c : SetChain} (listed : p ∈ c.branches) : c.body.HasBranch p := by
  refine Body.hasBranch_joined ?_
  rcases List.mem_append.mp listed with first | later
  · exact .inl (Intersection.hasBranch first)
  · obtain ⟨pair, member, branch⟩ := List.mem_flatMap.mp later
    exact .inr ⟨_, List.mem_map_of_mem member, Intersection.hasBranch branch⟩

end

/-! Chains. -/

theorem Scope.readBesideOutputs_nil (scope : TableAccess.Scope) : Scope.readBesideOutputs scope [] = scope := by
  obtain ⟨ctes, tables, derived, nodes, outputs⟩ := scope
  exact congrArg (TableAccess.Scope.mk ctes tables derived · outputs) (List.append_nil nodes)

namespace SetChain
variable {c : SetChain} {r : Resolver}

/-- How many operations of a chain a selection lies in at most. -/
def height (c : SetChain) : Nat :=
  c.more.foldl (fun height pair => max height pair.2.more.length + 1) c.first.more.length

/-- Without the operator that binds tightest, the first selection lies in all operations of the chain. -/
theorem height_eq_length (first : c.first.more = []) (more : ∀ pair ∈ c.more, pair.2.more = []) :
    c.height = c.more.length := by
  have flat : ∀ pair ∈ c.more, pair.2.more.length = 0 := fun pair listed => congrArg List.length (more pair listed)
  rw [height, foldl_levels flat, first, List.length_nil, Nat.zero_add]

/-- A chain alone is read as its body is. -/
theorem scope_query (c : SetChain) : c.query.scope = c.body.scope := by
  rw [query, Query.scope, Cte.scopes, Expr.nodesOf, Scope.readBesideOutputs_nil]
  exact if_pos rfl

theorem height_scope (c : SetChain) : c.query.scope.height = c.height := by
  rw [c.scope_query, body, Body.height_joined, List.foldl_map, Intersection.height_scope]
  simp only [Intersection.height_scope, height]

theorem height_statement (c : SetChain) : (TableAccess.Statement.select c.query.scope).height = c.height := by
  change max c.query.scope.height 0 = c.height
  rw [Nat.max_zero, c.height_scope]

theorem visited {p : PlainSelect} (low : c.height ≤ r.maxDepth) (listed : p ∈ c.branches) :
    ∃ depth, (TableAccess.Statement.select c.query.scope).Visited r [⟨p.select.scope, [], depth⟩] := by
  have low : 0 + c.body.scope.height ≤ r.maxDepth := by
    rw [Nat.zero_add, ← c.scope_query, c.height_scope]
    exact low
  have start : c.query.scope.Visited r [⟨c.body.scope, [], 0⟩] := c.scope_query ▸ .whole
  obtain ⟨depth, seen⟩ := (hasBranch listed).visited start low
  exact ⟨depth, _, List.mem_singleton_self _, seen⟩

/-- What a resolution gives of a chain that it does not cut off: the table and the columns of every branch. -/
structure ResolvedWhole (c : SetChain) (r : Resolver) (resolution : Resolution) : Prop where
  uncut : ∀ n ∈ resolution.notes, n.finding ≠ .depthExceeded
  tables : ∀ p ∈ c.branches, r.catalog.canonical [] p.tableName ∈ resolution.access.tables
  columns : ∀ p ∈ c.branches, ∀ column ∈ p.columns,
    r.catalog.spelling [] (r.catalog.canonical [] p.tableName) column.value ∈
      resolution.access.columnsOf (r.catalog.canonical [] p.tableName)

theorem resolve_scope_iff (c : SetChain) (r : Resolver) (id : Option StatementId) :
    c.ResolvedWhole r (r.resolve (.select c.query.scope) id) ↔ c.height ≤ r.maxDepth := by
  rw [← c.height_statement, ← Statement.uncut_iff r _ id]
  refine ⟨ResolvedWhole.uncut, fun uncut => ?_⟩
  have low : c.height ≤ r.maxDepth := c.height_statement ▸ (Statement.uncut_iff r _ id).mp uncut
  refine ⟨uncut, fun p listed => ?_, fun p listed column member => ?_⟩
  · obtain ⟨depth, seen⟩ := visited low listed
    exact Resolver.mem_tables_resolve.mpr (PlainSelect.recorded seen).1
  · obtain ⟨depth, seen⟩ := visited low listed
    exact Resolver.mem_columnsOf_resolve.mpr ((PlainSelect.recorded seen).2 column member)

/-- **A chain of set operations is resolved whole exactly if the bound allows a level for each operation that a
selection lies in**, in every dialect and for every catalog. -/
theorem resolved_whole_iff {d : Dialect} {text : String} {tokens : List Lexeme} (r : Resolver)
    (id : Option StatementId) (read : lexemes d text = .ok tokens) (spelled : Spells c.pieces tokens) :
    ∃ s, readStatement d text = .ok s ∧ (c.ResolvedWhole r (r.resolve s id) ↔ c.height ≤ r.maxDepth) :=
  ⟨_, readStatement_eq read spelled, c.resolve_scope_iff r id⟩

/-- Three operations, of which the last one binds tightest: no selection lies in more than two of them. -/
def accounts : SetChain where
  first := ⟨⟨⟨"id", none⟩, [⟨"owner", none⟩], ⟨"accounts", none⟩, by decide, by decide⟩, []⟩
  more := [
    (.unionAll, ⟨⟨⟨"id", none⟩, [], ⟨"Users", some '"'⟩, by decide, by decide⟩, []⟩),
    (.except, ⟨⟨⟨"id", none⟩, [], ⟨"closed", none⟩, by decide, by decide⟩,
      [⟨⟨"id", none⟩, [], ⟨"banned", none⟩, by decide, by decide⟩]⟩)]

theorem resolved_whole_iff_accounts :
    let text := "SELECT id, owner FROM accounts UNION ALL select id from \"Users\" " ++
      "EXCEPT SELECT id FROM closed INTERSECT SELECT id FROM banned"
    ∃ s, readStatement .postgresql text = .ok s ∧
      accounts.ResolvedWhole ⟨.empty, 2⟩ (Resolver.resolve ⟨.empty, 2⟩ s none) := by
  intro text
  have facts : (lexemes .postgresql text).toOption.any (fun tokens => Spells accounts.pieces tokens) = true := by
    decide +kernel
  cases read : lexemes .postgresql text with
  | error message =>
    rw [read] at facts
    cases facts
  | ok tokens =>
    rw [read] at facts
    obtain ⟨s, parsed, whole⟩ := resolved_whole_iff ⟨.empty, 2⟩ none read (of_decide_eq_true facts)
    exact ⟨s, parsed, whole.mpr (by decide)⟩

/-- Three selections in a row and no query within another: a bound of one level cuts the first two off. -/
theorem flat_chain_cut_off :
    let tried := fun depth =>
      (readStatement .postgresql "SELECT a FROM t UNION SELECT b FROM u UNION SELECT c FROM v").toOption.map fun s =>
        let resolution := Resolver.resolve ⟨.empty, depth⟩ s none
        (resolution.notes.map Diagnostic.finding, resolution.access.tables)
    tried 2 = some ([], ["t", "u", "v"]) ∧ tried 1 = some ([.depthExceeded], ["v"]) := by
  decide +kernel

end SetChain
end Sql
end TableAccess
