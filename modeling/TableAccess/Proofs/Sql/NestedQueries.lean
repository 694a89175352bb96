import TableAccess.Proofs.Binding.Levels
import TableAccess.Proofs.Sql.Sites

/-! Which named queries and tables of a query its scope keeps. The sites of a query and the levels of its
scope are counted together, part by part: never are there more levels than sites with a scope of their
own. Each such site is read as one level, with its tables and with all names that it sees, and one thing
only is ever lost: when names are declared around a query in parentheses that declares names as well, the
outer names replace the inner ones. -/
namespace TableAccess.Sql

/-! Levels of what is read beside other things. -/

section
variable {visible : List TableAccess.Cte} {nodes : List Node} {s : Scope}

theorem beneath_ofNodes : (Scope.ofNodes nodes).beneath visible = ↑(Node.levelsOf visible nodes) := rfl

theorem beneath_derived {aliasName : Option String} {columns : List String} :
    ({ Scope.empty with derived := [⟨aliasName, columns, s⟩] } : Scope).beneath visible =
      ↑(s.levels visible) := by
  simp [Scope.beneath, Derived.levelsOf, Node.levelsOf, Scope.empty]

theorem beneath_ofSides {other : Scope} : (Scope.ofSides s other).beneath visible =
    ↑(s.levels visible) + ↑(other.levels visible) := by
  simp [Scope.beneath, Scope.ofSides, Derived.levelsOf, Node.levelsOf, Scope.empty]

/-- There are no levels at bare columns. -/
theorem levelsOf_columns (bare : ∀ n ∈ nodes, ∃ c, n = .column c) :
    Node.levelsOf visible nodes = [] := by
  induction nodes with
  | nil => rfl
  | cons n rest ih =>
    obtain ⟨⟨c, rfl⟩, others⟩ := List.forall_mem_cons.mp bare
    exact ih others

theorem levelsOf_sharedColumns {columns : List Name} {previous current : Option String} :
    Node.levelsOf visible (sharedColumns columns previous current) = [] :=
  levelsOf_columns fun n held => by
    obtain ⟨column, -, sides⟩ := List.mem_flatMap.mp held
    obtain ⟨side, -, rfl⟩ := List.mem_map.mp sides
    exact ⟨_, rfl⟩

/-- Bare names have no levels, whether they are read or not. -/
theorem levelsOf_besideOutputs (outputs : List Output) :
    Node.levelsOf visible (nodes.filter fun n => !mentionsOutput outputs n) =
      Node.levelsOf visible nodes := by
  induction nodes with
  | nil => rfl
  | cons n rest ih =>
    cases n with
    | column c =>
      rw [List.filter_cons]
      split
      · rw [Node.levelsOf, ih, Node.levelsOf]
      · exact ih
    | _ => rw [List.filter_cons_of_pos rfl, Node.levelsOf, ih, Node.levelsOf]

theorem beneath_besideOutputs : (Scope.readBesideOutputs s nodes).beneath visible =
    s.beneath visible + ↑(Node.levelsOf visible nodes) := by
  rw [Scope.beneath, Scope.readBesideOutputs, Node.levelsOf_append, levelsOf_besideOutputs,
    ← List.append_assoc, ← Multiset.coe_add]
  rfl

theorem levels_besideOutputs : ((Scope.readBesideOutputs s nodes).levels visible : Multiset Level) =
    s.levels visible + ↑(Node.levelsOf (visible ++ s.ctes) nodes) := by
  rw [Scope.levels_eq, Scope.levels_eq, add_assoc, Multiset.cons_add, ← beneath_besideOutputs]
  rfl

end

mutual

/-- The levels at nodes are those of the subqueries there. -/
theorem levelsOf_eq_bodies (visible : List TableAccess.Cte) : ∀ nodes : List Node,
    Node.levelsOf visible nodes = (Node.bodiesOf nodes).flatMap (Scope.levels visible)
  | [] => rfl
  | n :: rest => by
    have apart : Node.bodiesOf (n :: rest) = Node.bodiesOf [n] ++ Node.bodiesOf rest :=
      @Node.bodiesOf_append [n] rest
    rw [Node.levelsOf, levels_eq_bodies visible n, levelsOf_eq_bodies visible rest, apart,
      List.flatMap_append]

theorem levels_eq_bodies (visible : List TableAccess.Cte) : ∀ n : Node,
    n.levels visible = (Node.bodiesOf [n]).flatMap (Scope.levels visible)
  | .column _ => rfl
  | .call _ _ arguments => by
    rw [Node.levels, levelsOf_eq_bodies visible arguments, Node.bodiesOf_call, List.append_nil]
  | .subquery _ => (List.append_nil _).symm

end

/-- The levels in an expression are those of the queries nested directly in it. -/
theorem Expr.levelsOf_nodes (visible : List TableAccess.Cte) (e : Expr) :
    Node.levelsOf visible e.nodes = e.queries.flatMap fun q => q.scope.levels visible := by
  rw [levelsOf_eq_bodies, e.parts_read.queries, List.flatMap_map]
  rfl

/-! Sites and levels. -/

/-- Whether a level has the tables of a site and lets them see all names that the site sees. -/
def Site.ReadAs (s : Site) (level : Level) : Prop :=
  s.body.plainTables = level.tables ∧ (s.around ++ s.named).Sublist level.visible

/-- How the sites of a part of a query belong to levels: while no site hides names each site with a scope
of its own is read as one level; there are never more levels than such sites, and fewer where names are
hidden. -/
structure Site.Read (sites : List Site) (levels : Multiset Level) : Prop where
  kept : (∀ s ∈ sites, ¬ s.Hides) → Multiset.Rel Site.ReadAs ↑(sites.filter Site.isOwn) levels
  bounded : levels.card ≤ (sites.filter Site.isOwn).length
  lost : (∃ s ∈ sites, s.Hides) → levels.card < (sites.filter Site.isOwn).length

namespace Site.Read
variable {sites others : List Site} {levels beside : Multiset Level} {s : Site}

theorem nil : Read [] 0 where
  kept _ := .zero
  bounded := le_rfl
  lost := fun ⟨_, held, _⟩ => absurd held List.not_mem_nil

theorem append (first : Read sites levels) (second : Read others beside) :
    Read (sites ++ others) (levels + beside) where
  kept shown := by
    rw [List.filter_append, ← Multiset.coe_add]
    exact (first.kept fun s held => shown s (List.mem_append_left _ held)).add
      (second.kept fun s held => shown s (List.mem_append_right _ held))
  bounded := by
    rw [List.filter_append, List.length_append, Multiset.card_add]
    exact Nat.add_le_add first.bounded second.bounded
  lost := by
    rintro ⟨s, held, hides⟩
    rw [List.filter_append, List.length_append, Multiset.card_add]
    rcases List.mem_append.mp held with held | held
    · exact Nat.add_lt_add_of_lt_of_le (first.lost ⟨s, held, hides⟩) second.bounded
    · exact Nat.add_lt_add_of_le_of_lt first.bounded (second.lost ⟨s, held, hides⟩)

/-- What holds of the queries nested in an expression holds of the expression. -/
theorem flatMap {around visible : List TableAccess.Cte} {queries : List Query}
    (each : ∀ q ∈ queries, Read (q.sites around) ↑(q.scope.levels visible)) :
    Read (queries.flatMap fun q => q.sites around)
      ↑(queries.flatMap fun q => q.scope.levels visible) := by
  induction queries with
  | nil => exact nil
  | cons q rest ih =>
    obtain ⟨first, later⟩ := List.forall_mem_cons.mp each
    rw [List.flatMap_cons, List.flatMap_cons, ← Multiset.coe_add]
    exact first.append (ih later)

theorem filter_cons_of_shared (isOwn : s.isOwn = false) :
    (s :: sites).filter Site.isOwn = sites.filter Site.isOwn :=
  List.filter_cons_of_neg (by simp [isOwn])

/-- A site that has a scope of its own is read as the level of this scope. -/
theorem own {level : Level} (within : Read sites levels) (isOwn : s.isOwn = true) (shown : ¬ s.Hides)
    (read : s.ReadAs level) : Read (s :: sites) (level ::ₘ levels) := by
  have alone : Read [s] {level} :=
    { kept := fun _ => by
        rw [List.filter_cons_of_pos isOwn]
        exact .cons read .zero
      bounded := by rw [List.filter_cons_of_pos isOwn]; exact le_rfl
      lost := fun ⟨t, held, hides⟩ => absurd (List.mem_singleton.mp held ▸ hides) shown }
  exact alone.append within

/-- A site of a query in parentheses adds no level to those of the query. -/
theorem shared (isOwn : s.isOwn = false) (shown : ¬ s.Hides) (within : Read sites levels) :
    Read (s :: sites) levels where
  kept all := by
    rw [filter_cons_of_shared isOwn]
    exact within.kept fun t held => all t (List.mem_cons_of_mem s held)
  bounded := by
    rw [filter_cons_of_shared isOwn]
    exact within.bounded
  lost := by
    rintro ⟨t, held, hides⟩
    rw [filter_cons_of_shared isOwn]
    rcases List.mem_cons.mp held with rfl | held
    · exact absurd hides shown
    · exact within.lost ⟨t, held, hides⟩

/-- Where a site hides names, levels are missing. -/
theorem hidden (isOwn : s.isOwn = false) (hides : s.Hides)
    (fewer : levels.card < (sites.filter Site.isOwn).length) : Read (s :: sites) levels where
  kept all := absurd hides (all s List.mem_cons_self)
  bounded := by
    rw [filter_cons_of_shared isOwn]
    exact fewer.le
  lost _ := by
    rw [filter_cons_of_shared isOwn]
    exact fewer

end Site.Read

open Site.Read

section
variable {around visible : List TableAccess.Cte} {ctes : List Cte} {body : Body} {order : List Expr}

theorem Relation.beneath_scope_derived {isLateral : Bool} {query : Query} {aliasName : Option Alias} :
    (Relation.derived isLateral query aliasName).scope.beneath visible =
      ↑(query.scope.levels visible) := by
  cases aliasName <;> exact beneath_derived

/-- Columns that both sides of a join share have no levels. -/
theorem Join.beneath_scopes_cons {words : String} {relation : Relation} {matching condition : Option Expr}
    {tie : JoinTie} {rest : List Join} {previous : Option String} :
    (Join.scopes previous (⟨words, relation, matching, tie, condition⟩ :: rest)).beneath visible =
      relation.scope.beneath visible
        + (↑(Node.levelsOf visible (Expr.nodesOf? matching))
          + ↑(Node.levelsOf visible (Expr.nodesOf? condition)))
        + (Join.scopes (relation.key.orElse fun _ => previous) rest).beneath visible := by
  cases tie <;>
    simp only [Join.scopes, Scope.beneath_append, beneath_ofNodes, Node.levelsOf_append,
      levelsOf_sharedColumns, List.append_nil, ← Multiset.coe_add]

/-- A body that is no query in parentheses is read as it stands if all within it is. -/
theorem Body.read_of_within {named : List TableAccess.Cte} (own : ∀ query, body ≠ .query query)
    (seen : (around ++ named).Sublist visible) (shown : ¬ (⟨around, named, body⟩ : Site).Hides)
    (within : Site.Read (body.sitesWithin (around ++ named)) (body.scope.beneath visible)) :
    Site.Read (⟨around, named, body⟩ :: body.sitesWithin (around ++ named))
      ↑(body.scope.levels visible) := by
  have plain := Body.readsPlain own
  have isOwn : (⟨around, named, body⟩ : Site).isOwn = true := by
    cases body <;> first | rfl | exact absurd rfl (own _)
  rw [Scope.levels_of_ctes_eq_nil plain.ctes]
  exact within.own isOwn shown ⟨plain.tables.symm, seen⟩

/-- Names around a query in parentheses take the place of those that it declares, so that levels are
missing. -/
theorem Body.read_of_hidden {named : List TableAccess.Cte} {level : Level} (unnamed : named ≠ [])
    (declares : body.declares = true)
    (inner : Site.Read (⟨around ++ named, [], body⟩ :: body.sitesWithin (around ++ named))
      ↑(body.scope.levels visible)) :
    Site.Read (⟨around, named, body⟩ :: body.sitesWithin (around ++ named))
      (level ::ₘ body.scope.beneath visible) := by
  have isOwn (around named : List TableAccess.Cte) : (⟨around, named, body⟩ : Site).isOwn = false := by
    cases body <;> first | rfl | cases declares
  have declared : body.scope.ctes ≠ [] := fun none => by
    rw [(Body.ctes_eq_nil body).mp none] at declares
    cases declares
  have enough := inner.bounded
  rw [filter_cons_of_shared (isOwn _ _), Multiset.coe_card] at enough
  refine .hidden (isOwn _ _) ⟨unnamed, declares⟩ ?_
  rw [Multiset.card_cons]
  exact (Scope.card_beneath_lt declared visible visible).trans_le enough

/-- A query is read as it stands if its parts are: the names that it declares, its body wherever it
stands, and the keys of its order. -/
theorem Query.read_of_parts {isRecursive : Bool} {orderShape : OrderShape} {limitShape : LimitShape}
    {limits : List Expr} {suffix : String}
    (names : Site.Read (Cte.sitesOf around ctes) ↑(Cte.levelsOf visible (Cte.scopes ctes)))
    (placed : ∀ around named visible : List TableAccess.Cte, (around ++ named).Sublist visible →
      ¬ (⟨around, named, body⟩ : Site).Hides →
      Site.Read (⟨around, named, body⟩ :: body.sitesWithin (around ++ named))
        ↑(body.scope.levels visible))
    (keys : ∀ around visible : List TableAccess.Cte, around.Sublist visible →
      Site.Read (Expr.sitesOf around order) ↑(Node.levelsOf visible (Expr.nodesOf order)))
    (seen : around.Sublist visible) :
    Site.Read
      (Query.sites around ⟨isRecursive, ctes, body, orderShape, order, limitShape, limits, suffix⟩)
      ↑((Query.scope ⟨isRecursive, ctes, body, orderShape, order, limitShape, limits,
        suffix⟩).levels visible) := by
  rw [Query.sites, Query.scope, levels_besideOutputs, ← List.cons_append, ← List.append_assoc]
  by_cases unnamed : ctes = []
  · subst unnamed
    have inner := placed around [] visible (by rwa [List.append_nil]) (fun hides => hides.1 rfl)
    rw [Cte.sitesOf, List.nil_append]
    exact inner.append (keys _ _ (by simpa [Cte.scopes] using seen.trans (List.sublist_append_left _ _)))
  · have unnamed : Cte.scopes ctes ≠ [] := fun none => unnamed (Cte.scopes_eq_nil.mp none)
    have extended : (around ++ Cte.scopes ctes).Sublist (visible ++ Cte.scopes ctes) :=
      seen.append (List.Sublist.refl _)
    simp only [List.isEmpty_iff, unnamed, if_false]
    refine Site.Read.append ?_ (keys _ _ extended)
    rw [Scope.levels_eq]
    refine names.append ?_
    change Site.Read _ (⟨visible ++ Cte.scopes ctes, body.scope.tables⟩ ::ₘ
      body.scope.beneath (visible ++ Cte.scopes ctes))
    by_cases declares : body.declares = true
    · have inner := placed (around ++ Cte.scopes ctes) [] (visible ++ Cte.scopes ctes)
        (by rwa [List.append_nil]) fun hides => hides.1 rfl
      rw [List.append_nil] at inner
      exact Body.read_of_hidden unnamed declares inner
    · have undeclared := (Body.ctes_eq_nil body).mpr (Bool.not_eq_true _ ▸ declares)
      rw [← Scope.levels_of_ctes_eq_nil undeclared]
      exact placed around _ _ extended fun hides => declares hides.2

end

mutual

/-- Each site in a query is read as one level of the query's scope, as long as no site hides names. -/
theorem Query.read : ∀ (q : Query) (around visible : List TableAccess.Cte), around.Sublist visible →
    Site.Read (q.sites around) ↑(q.scope.levels visible)
  | ⟨_, ctes, body, _, order, _, _, _⟩, around, visible, seen =>
    Query.read_of_parts (Cte.readOf ctes around visible seen) (Body.read body) (Expr.readOf order) seen
termination_by q => sizeOf q

theorem Cte.readOf : ∀ (ctes : List Cte) (around visible : List TableAccess.Cte),
    around.Sublist visible →
    Site.Read (Cte.sitesOf around ctes) ↑(Cte.levelsOf visible (Cte.scopes ctes))
  | [], _, _, _ => by
    rw [Cte.sitesOf]
    exact nil
  | ⟨_, _, _, query, _⟩ :: rest, around, visible, seen => by
    rw [Cte.sitesOf]
    exact (Query.read query around visible seen).append
      (Cte.readOf rest _ _ (seen.append (List.Sublist.refl _)))
termination_by ctes => sizeOf ctes

theorem Body.read : ∀ (b : Body) (around named visible : List TableAccess.Cte),
    (around ++ named).Sublist visible → ¬ (⟨around, named, b⟩ : Site).Hides →
    Site.Read (⟨around, named, b⟩ :: b.sitesWithin (around ++ named)) ↑(b.scope.levels visible)
  | .select selection, around, named, visible, seen, shown => by
    refine Body.read_of_within (fun _ => nofun) seen shown ?_
    rw [Body.sitesWithin]
    exact Select.read selection (around ++ named) visible seen
  | .query query, around, named, visible, seen, shown => by
    rw [Body.sitesWithin]
    exact shared rfl shown (Query.read query (around ++ named) visible seen)
  | .operation left operator right, around, named, visible, seen, shown => by
    have left := Body.read left (around ++ named) [] visible (by rwa [List.append_nil])
      fun hides => hides.1 rfl
    have right := Body.read right (around ++ named) [] visible (by rwa [List.append_nil])
      fun hides => hides.1 rfl
    rw [List.append_nil] at left right
    refine Body.read_of_within (fun _ => nofun) seen shown ?_
    rw [Body.sitesWithin, Body.scope, beneath_ofSides]
    exact left.append right
  | .values _ _ _ cells, around, named, visible, seen, shown => by
    refine Body.read_of_within (fun _ => nofun) seen shown ?_
    rw [Body.sitesWithin]
    exact Expr.readOf cells (around ++ named) visible seen
  | .table _ _, _, _, _, seen, shown | .insertion _, _, _, _, seen, shown
  | .update _, _, _, _, seen, shown | .deletion _, _, _, _, seen, shown | .merge, _, _, _, seen, shown => by
    refine Body.read_of_within (fun _ => nofun) seen shown ?_
    simp only [Body.sitesWithin]
    exact nil
termination_by b => sizeOf b

theorem Select.read : ∀ (s : Select) (around visible : List TableAccess.Cte),
    around.Sublist visible → Site.Read (s.sites around) (s.scope.beneath visible)
  | ⟨_, _, _, distinctOn, _, items, _, tables, _, prewhere, condition, groupsAll, group, _,
      cluster, distribute, sort, having, windows, qualify, _, _⟩, around, visible, seen => by
    have sources := (SelectItem.readOf items around visible seen).append
      (JoinedTable.readOf tables around visible seen)
    have read := ((Expr.readOf distinctOn around visible seen).append
      (Expr.readOf? prewhere around visible seen)).append (Expr.readOf? condition around visible seen)
    have grouped : Site.Read (if groupsAll then [] else Expr.sitesOf around group)
        ↑(Node.levelsOf visible (if groupsAll then [] else Expr.nodesOf group)) := by
      cases groupsAll with
      | true => exact nil
      | false => exact Expr.readOf group around visible seen
    have later := ((((grouped.append (Expr.readOf? having around visible seen)).append
      (Expr.readOf? qualify around visible seen)).append
      (Expr.readOf cluster around visible seen)).append
      (Expr.readOf distribute around visible seen)).append (Expr.readOf sort around visible seen)
    rw [Select.sites, Select.scope, Scope.beneath_append, beneath_besideOutputs, Scope.beneath_append,
      Scope.beneath_append, beneath_ofNodes, beneath_ofNodes]
    simp only [Node.levelsOf_append, ← Multiset.coe_add]
    exact ((sources.append read).append later).append (Expr.readOf windows around visible seen)
termination_by s => sizeOf s

theorem SelectItem.readOf : ∀ (items : List SelectItem) (around visible : List TableAccess.Cte),
    around.Sublist visible →
    Site.Read (SelectItem.sitesOf around items) ((SelectItem.scopes items).beneath visible)
  | [], _, _, _ => by
    rw [SelectItem.sitesOf]
    exact nil
  | ⟨value, _⟩ :: rest, around, visible, seen => by
    rw [SelectItem.sitesOf, SelectItem.scopes, Scope.beneath_append]
    exact (Expr.read value around visible seen).append (SelectItem.readOf rest around visible seen)
termination_by items => sizeOf items

theorem JoinedTable.read : ∀ (t : JoinedTable) (around visible : List TableAccess.Cte),
    around.Sublist visible → Site.Read (t.sites around) (t.scope.beneath visible)
  | ⟨relation, joins⟩, around, visible, seen => by
    rw [JoinedTable.sites, JoinedTable.scope, Scope.beneath_append]
    exact (Relation.read relation around visible seen).append
      (Join.readOf joins _ around visible seen)
termination_by t => sizeOf t

theorem JoinedTable.readOf : ∀ (tables : List JoinedTable) (around visible : List TableAccess.Cte),
    around.Sublist visible →
    Site.Read (JoinedTable.sitesOf around tables) ((JoinedTable.scopes tables).beneath visible)
  | [], _, _, _ => by
    rw [JoinedTable.sitesOf]
    exact nil
  | t :: rest, around, visible, seen => by
    rw [JoinedTable.sitesOf, JoinedTable.scopes, Scope.beneath_append]
    exact (JoinedTable.read t around visible seen).append (JoinedTable.readOf rest around visible seen)
termination_by tables => sizeOf tables

theorem Relation.read : ∀ (r : Relation) (around visible : List TableAccess.Cte),
    around.Sublist visible → Site.Read (r.sites around) (r.scope.beneath visible)
  | .table _ _ _ _, _, _, _ | .other _ _, _, _, _ => by
    rw [Relation.sites]
    exact nil
  | .derived _ query aliasName, around, visible, seen => by
    rw [Relation.sites, Relation.beneath_scope_derived]
    exact Query.read query around visible seen
  | .nested joined _, around, visible, seen => by
    rw [Relation.sites]
    exact JoinedTable.read joined around visible seen
  | .unnest arrays _ _ _, around, visible, seen => by
    rw [Relation.sites]
    exact Expr.readOf arrays around visible seen
  | .tableFunction call _, around, visible, seen => by
    rw [Relation.sites]
    exact Expr.read call around visible seen
termination_by r => sizeOf r

theorem Join.readOf : ∀ (joins : List Join) (previous : Option String)
    (around visible : List TableAccess.Cte), around.Sublist visible →
    Site.Read (Join.sitesOf around joins) ((Join.scopes previous joins).beneath visible)
  | [], _, _, _, _ => by
    rw [Join.sitesOf]
    exact nil
  | ⟨_, relation, matching, tie, condition⟩ :: rest, previous, around, visible, seen => by
    have read := (Relation.read relation around visible seen).append
      ((Expr.readOf? matching around visible seen).append (Expr.readOf? condition around visible seen))
    rw [Join.sitesOf, Join.beneath_scopes_cons]
    exact read.append (Join.readOf rest _ around visible seen)
termination_by joins => sizeOf joins

theorem Expr.read (e : Expr) (around visible : List TableAccess.Cte) (seen : around.Sublist visible) :
    Site.Read (e.sites around) ↑(Node.levelsOf visible e.nodes) := by
  -- The queries may lie at any depth of the expression, so this step goes by size and not by operands.
  rw [e.levelsOf_nodes, e.sites_eq]
  exact flatMap fun q nested => Query.read q around visible seen
termination_by sizeOf e
decreasing_by exact Expr.sizeOf_query nested

theorem Expr.readOf : ∀ (es : List Expr) (around visible : List TableAccess.Cte),
    around.Sublist visible → Site.Read (Expr.sitesOf around es) ↑(Node.levelsOf visible (Expr.nodesOf es))
  | [], _, _, _ => by
    rw [Expr.sitesOf]
    exact nil
  | e :: rest, around, visible, seen => by
    rw [Expr.sitesOf, Expr.nodesOf, Node.levelsOf_append, ← Multiset.coe_add]
    exact (Expr.read e around visible seen).append (Expr.readOf rest around visible seen)
termination_by es => sizeOf es

theorem Expr.readOf? : ∀ (e : Option Expr) (around visible : List TableAccess.Cte),
    around.Sublist visible →
    Site.Read (Expr.sitesOf? around e) ↑(Node.levelsOf visible (Expr.nodesOf? e))
  | none, _, _, _ => by
    rw [Expr.sitesOf?]
    exact nil
  | some e, around, visible, seen => by
    rw [Expr.sitesOf?]
    exact Expr.read e around visible seen
termination_by e => sizeOf e

end

/-- **A query keeps its names and tables unless parentheses hide some.** Each body is read as one level,
with its plain tables and with all named queries that it sees, just if no names are declared around a
query in parentheses that declares names as well. -/
theorem Query.levels_kept_iff (q : Query) :
    Multiset.Rel Site.ReadAs ↑((q.sites []).filter Site.isOwn) ↑(q.scope.levels []) ↔
      ∀ s ∈ q.sites [], ¬ s.Hides := by
  have read := q.read [] [] (List.Sublist.refl [])
  constructor
  · intro kept s held hides
    have same := Multiset.card_eq_card_of_rel kept
    rw [Multiset.coe_card] at same
    exact absurd same (read.lost ⟨s, held, hides⟩).ne'
  · exact read.kept

/-- The named query within the parentheses is gone, and the table that it reads with it. -/
theorem inner_names_replaced :
    ((statements .postgresql
      ("WITH a AS (SELECT id FROM t) " ++
        "(WITH b AS (SELECT id FROM u) SELECT id FROM b)")).toOption.map fun all => all.map fun
      | .query q =>
        (((q.sites []).flatMap Site.named).map TableAccess.Cte.aliasName,
          (q.scope.parts.flatMap Scope.ctes).map TableAccess.Cte.aliasName,
          ((q.sites []).flatMap fun s => s.body.plainTables).map TableRef.name,
          (q.scope.parts.flatMap Scope.tables).map TableRef.name)
      | _ => ([], [], [], [])) =
      some [(["a", "b"], ["a"], ["t", "u", "b"], ["b", "t"])] := by
  decide +kernel

end TableAccess.Sql
