import TableAccess.Proofs.Access.QualifiedTargets
import TableAccess.Proofs.Access.SelectLists
import TableAccess.Proofs.Binding.MoreColumns

/-! Columns that the sides of a join share. The left side of a join is all that was joined before, but a
shared column is read from one table there, the last one that stands in the chain by itself; tables in
parentheses are passed over on both sides. So a shared column is recorded for tables that have it exactly
if the tables that it is read from do. -/
namespace TableAccess.Sql

/-- The table that a source is, if it is one by itself. -/
def Relation.table? : Relation → Option TableRef
  | .table name _ aliasName _ => some ⟨Name.last name, aliasName.map (·.name.value)⟩
  | _ => none

/-- The tables among some sources. -/
def tablesOf (sources : List Relation) : List TableRef := sources.filterMap Relation.table?

/-- A column that the sides of a join share: the tables that were joined before, those that are joined,
and those of both that stand next to each other there. -/
structure Sharing where
  column : String
  before : List TableRef
  joined : List TableRef
  sides : List TableRef
deriving DecidableEq, Repr

/-- The column as it is read from the tables next to each other. -/
def Sharing.columns (s : Sharing) : List ColumnRef := s.sides.map fun t => ⟨some t.key, s.column⟩

/-- The columns that are shared by what ties a join. -/
def JoinTie.sharings (before joined sides : List TableRef) : JoinTie → List Sharing
  | .shared columns => columns.map fun column => ⟨Name.last column, before, joined, sides⟩
  | _ => []

/-- What ties a join, if it is no shared column. -/
def JoinTie.withoutSharing : JoinTie → JoinTie
  | .shared _ => .free
  | tie => tie

mutual

/-- The shared columns of a source with its joins. -/
def JoinedTable.sharings : JoinedTable → List Sharing
  | ⟨relation, joins⟩ => relation.sharings ++ Join.sharings (tablesOf relation.sources) relation.table? joins

/-- The shared columns in a source. -/
def Relation.sharings : Relation → List Sharing
  | .nested joined _ => joined.sharings
  | _ => []

/-- The shared columns of joins behind some tables, of which one was the last that stood by itself. -/
def Join.sharings (before : List TableRef) (last : Option TableRef) : List Join → List Sharing
  | [] => []
  | ⟨_, relation, _, tie, _⟩ :: rest =>
    relation.sharings ++
      tie.sharings before (tablesOf relation.sources) (last.toList ++ relation.table?.toList) ++
      Join.sharings (before ++ tablesOf relation.sources) (relation.table?.or last) rest

end

mutual

/-- A source with its joins, without the columns that they share. -/
def JoinedTable.withoutSharing : JoinedTable → JoinedTable
  | ⟨relation, joins⟩ => ⟨relation.withoutSharing, Join.withoutSharing joins⟩

def Relation.withoutSharing : Relation → Relation
  | .nested joined aliasName => .nested joined.withoutSharing aliasName
  | relation => relation

def Join.withoutSharing : List Join → List Join
  | [] => []
  | ⟨words, relation, matching, tie, condition⟩ :: rest =>
    ⟨words, relation.withoutSharing, matching, tie.withoutSharing, condition⟩ :: Join.withoutSharing rest

end

namespace Select

/-- The shared columns of a selection. -/
def sharings (s : Select) : List Sharing := s.tables.flatMap JoinedTable.sharings

/-- A selection without the columns that its joins share. -/
def withoutSharing (s : Select) : Select := { s with tables := s.tables.map JoinedTable.withoutSharing }

end Select

mutual

/-- A query around a selection, without the columns that joins share there. -/
def Query.withoutSharing : Query → Query
  | ⟨isRecursive, ctes, body, orderShape, order, limitShape, limits, suffix⟩ =>
    ⟨isRecursive, ctes, body.withoutSharing, orderShape, order, limitShape, limits, suffix⟩

def Body.withoutSharing : Body → Body
  | .select select => .select select.withoutSharing
  | .query query => .query query.withoutSharing
  | body => body

end

/-! How shared columns are read. -/

/-- Whether a scope reads the tables of some sources, and the columns that they share beside what it
reads without them. -/
structure SharesIn (sources : List Relation) (sharings : List Sharing) (base scope : Scope) : Prop where
  adds : Scope.Adds (sharings.flatMap Sharing.columns) base scope
  tables : scope.tables = tablesOf sources
  derived : scope.derived = []

namespace SharesIn
variable {sources others : List Relation} {sharings more : List Sharing} {base scope base' scope' : Scope}

theorem append (first : SharesIn sources sharings base scope) (second : SharesIn others more base' scope') :
    SharesIn (sources ++ others) (sharings ++ more) (base ++ base') (scope ++ scope') where
  adds := List.flatMap_append ▸ first.adds.append second.adds
  tables := by
    change scope.tables ++ scope'.tables = _
    rw [first.tables, second.tables, tablesOf, tablesOf, tablesOf, List.filterMap_append]
  derived := by
    change scope.derived ++ scope'.derived = []
    rw [first.derived, second.derived]
    rfl

/-- A scope without sources, in which nothing is shared. -/
theorem nothing (tables : scope.tables = []) (derived : scope.derived = []) : SharesIn [] [] scope scope :=
  ⟨.refl scope, tables, derived⟩

theorem append_ofNodes (shares : SharesIn sources sharings base scope) (nodes : List Node) :
    SharesIn sources sharings (base ++ Scope.ofNodes nodes) (scope ++ Scope.ofNodes nodes) := by
  have whole := shares.append (nothing rfl rfl : SharesIn [] [] (Scope.ofNodes nodes) _)
  rwa [List.append_nil, List.append_nil] at whole

theorem readBesideOutputs (shares : SharesIn sources sharings base scope) (nodes : List Node) :
    SharesIn sources sharings (Scope.readBesideOutputs base nodes) (Scope.readBesideOutputs scope nodes) :=
  ⟨shares.adds.readBesideOutputs nodes, shares.tables, shares.derived⟩

theorem withCtes (shares : SharesIn sources sharings base scope) (ctes : List TableAccess.Cte) :
    SharesIn sources sharings { base with ctes } { scope with ctes } :=
  ⟨shares.adds.withCtes ctes, shares.tables, shares.derived⟩

end SharesIn

theorem Relation.key_withoutSharing (relation : Relation) : relation.withoutSharing.key = relation.key := by
  cases relation <;> rfl

theorem Relation.key_eq {relation : Relation} (plain : ∀ source ∈ relation.sources, source.table?.isSome) :
    relation.key = relation.table?.map TableRef.key := by
  cases relation with
  | derived _ _ _ => exact absurd (plain _ List.mem_cons_self) Bool.false_ne_true
  | _ => rfl

/-- What is read of shared columns are the columns next to each other. -/
theorem sharedColumns_eq (columns : List Name) (before joined : List TableRef)
    (last current : Option TableRef) :
    sharedColumns columns (last.map TableRef.key) (current.map TableRef.key) =
      (((JoinTie.shared columns).sharings before joined (last.toList ++ current.toList)).flatMap
        Sharing.columns).map .column := by
  have keys : (last.map TableRef.key).toList ++ (current.map TableRef.key).toList =
      (last.toList ++ current.toList).map TableRef.key := by
    cases last <;> cases current <;> rfl
  rw [sharedColumns, keys, JoinTie.sharings, List.flatMap_map, List.map_flatMap]
  simp only [Sharing.columns, List.map_map, Function.comp_def]

/-- The places where what ties a join is read. -/
def JoinTie.nodes (previous current : Option String) : JoinTie → List Node
  | .shared columns => sharedColumns columns previous current
  | _ => []

theorem Join.scopes_cons (previous : Option String) (words : String) (relation : Relation)
    (matching condition : Option Expr) (tie : JoinTie) (rest : List Join) :
    Join.scopes previous (⟨words, relation, matching, tie, condition⟩ :: rest) = relation.scope ++
      Scope.ofNodes (Expr.nodesOf? matching ++ Expr.nodesOf? condition ++ tie.nodes previous relation.key) ++
      Join.scopes (relation.key.orElse fun _ => previous) rest := rfl

theorem JoinTie.sharesIn (tie : JoinTie) (before joined : List TableRef) (last current : Option TableRef)
    (nodes : List Node) :
    SharesIn [] (tie.sharings before joined (last.toList ++ current.toList))
      (Scope.ofNodes (nodes ++ tie.withoutSharing.nodes (last.map TableRef.key) (current.map TableRef.key)))
      (Scope.ofNodes (nodes ++ tie.nodes (last.map TableRef.key) (current.map TableRef.key))) := by
  cases tie with
  | shared columns =>
    refine ⟨?_, rfl, rfl⟩
    change Scope.Adds _ (Scope.ofNodes (nodes ++ [])) (Scope.ofNodes (nodes ++ sharedColumns columns _ _))
    rw [sharedColumns_eq columns before joined last current, List.append_nil]
    exact .ofNodes nodes _
  | _ => exact .nothing rfl rfl

mutual

theorem JoinedTable.sharesIn : ∀ t : JoinedTable, (∀ source ∈ t.sources, source.table?.isSome) →
    SharesIn t.sources t.sharings t.withoutSharing.scope t.scope
  | ⟨relation, joins⟩, plain => by
    have first : ∀ source ∈ relation.sources, source.table?.isSome := fun source member =>
      plain source (List.mem_append_left _ member)
    have joined := Join.sharesIn (tablesOf relation.sources) relation.table? joins fun source member =>
      plain source (List.mem_append_right _ member)
    rw [← Relation.key_eq first] at joined
    rw [JoinedTable.withoutSharing, JoinedTable.scope, Relation.key_withoutSharing]
    exact (Relation.sharesIn relation first).append joined

theorem Relation.sharesIn : ∀ relation : Relation, (∀ source ∈ relation.sources, source.table?.isSome) →
    SharesIn relation.sources relation.sharings relation.withoutSharing.scope relation.scope
  | .table _ _ _ _, _ => ⟨.refl _, rfl, rfl⟩
  | .nested joined _, plain => JoinedTable.sharesIn joined plain
  | .derived _ _ _, plain => absurd (plain _ List.mem_cons_self) Bool.false_ne_true
  | .unnest _ _ _ _, plain => absurd (plain _ List.mem_cons_self) Bool.false_ne_true
  | .tableFunction _ _, plain => absurd (plain _ List.mem_cons_self) Bool.false_ne_true
  | .other _ _, plain => absurd (plain _ List.mem_cons_self) Bool.false_ne_true

theorem Join.sharesIn (before : List TableRef) : ∀ (last : Option TableRef) (joins : List Join),
    (∀ source ∈ Join.sources joins, source.table?.isSome) →
    SharesIn (Join.sources joins) (Join.sharings before last joins)
      (Join.scopes (last.map TableRef.key) (Join.withoutSharing joins))
      (Join.scopes (last.map TableRef.key) joins)
  | _, [], _ => .nothing rfl rfl
  | last, ⟨_, relation, matching, tie, condition⟩ :: rest, plain => by
    have first : ∀ source ∈ relation.sources, source.table?.isSome := fun source member =>
      plain source (List.mem_append_left _ member)
    have joined := Join.sharesIn (before ++ tablesOf relation.sources) (relation.table?.or last) rest
      fun source member => plain source (List.mem_append_right _ member)
    have tied := tie.sharesIn before (tablesOf relation.sources) last relation.table?
      (Expr.nodesOf? matching ++ Expr.nodesOf? condition)
    have key : (relation.table?.or last).map TableRef.key =
        relation.key.orElse fun _ => last.map TableRef.key := by
      rw [Relation.key_eq first, Option.orElse_eq_or, Option.map_or]
    rw [key] at joined
    rw [← Relation.key_eq first] at tied
    have whole := ((Relation.sharesIn relation first).append tied).append joined
    rw [List.append_nil] at whole
    rw [Join.withoutSharing, Join.scopes_cons, Join.scopes_cons, Relation.key_withoutSharing]
    exact whole

end

theorem JoinedTable.sharesIn_scopes (tables : List JoinedTable)
    (plain : ∀ source ∈ tables.flatMap JoinedTable.sources, source.table?.isSome) :
    SharesIn (tables.flatMap JoinedTable.sources) (tables.flatMap JoinedTable.sharings)
      (JoinedTable.scopes (tables.map JoinedTable.withoutSharing)) (JoinedTable.scopes tables) := by
  induction tables with
  | nil => exact .nothing rfl rfl
  | cons t rest ih =>
    exact (t.sharesIn fun source member => plain source (List.mem_append_left _ member)).append
      (ih fun source member => plain source (List.mem_append_right _ member))

theorem SelectItem.sharesIn_scopes : ∀ items : List SelectItem,
    SharesIn [] [] (SelectItem.scopes items) (SelectItem.scopes items)
  | [] => .nothing rfl rfl
  | ⟨_, _⟩ :: rest => .nothing (sharesIn_scopes rest).tables (sharesIn_scopes rest).derived

/-- A selection reads its tables and the columns that they share. -/
theorem Select.sharesIn (s : Select) (plain : ∀ source ∈ s.sources, source.table?.isSome) :
    SharesIn s.sources s.sharings s.withoutSharing.scope s.scope := by
  obtain ⟨_, _, _, distinctOn, _, items, _, tables, _, prewhere, condition, groupsAll, group, _, cluster,
    distribute, sort, having, windows, qualify, _, _⟩ := s
  have sources := (SelectItem.sharesIn_scopes items).append (JoinedTable.sharesIn_scopes tables plain)
  have read := sources.append_ofNodes
    (Expr.nodesOf distinctOn ++ Expr.nodesOf? prewhere ++ Expr.nodesOf? condition)
  have later := read.readBesideOutputs ((if groupsAll then [] else Expr.nodesOf group) ++
    Expr.nodesOf? having ++ Expr.nodesOf? qualify ++ Expr.nodesOf cluster ++ Expr.nodesOf distribute ++
    Expr.nodesOf sort)
  exact later.append_ofNodes (Expr.nodesOf windows)

mutual

theorem Query.sharesIn {s : Select} (plain : ∀ source ∈ s.sources, source.table?.isSome) :
    ∀ q : Query, q.selection? = some s → SharesIn s.sources s.sharings q.withoutSharing.scope q.scope
  | ⟨_, ctes, body, _, order, _, _, _⟩, select => by
    have inner := Body.sharesIn plain body select
    rw [Query.withoutSharing, Query.scope, Query.scope]
    split
    · exact inner.readBesideOutputs _
    · exact (inner.withCtes _).readBesideOutputs _

theorem Body.sharesIn {s : Select} (plain : ∀ source ∈ s.sources, source.table?.isSome) :
    ∀ b : Body, b.selection? = some s → SharesIn s.sources s.sharings b.withoutSharing.scope b.scope
  | .select _, select => by
    cases select
    exact s.sharesIn plain
  | .query q, select => Query.sharesIn plain q select

end

/-! Where shared columns are recorded. -/

theorem tablesOf_append (sources more : List Relation) :
    tablesOf (sources ++ more) = tablesOf sources ++ tablesOf more := List.filterMap_append

theorem Relation.mem_of_table? {relation : Relation} {t : TableRef} (itself : t ∈ relation.table?) :
    t ∈ tablesOf relation.sources := by
  cases relation with
  | table _ _ _ _ => exact List.mem_singleton.mpr (Option.some.inj itself).symm
  | _ => cases itself

theorem JoinTie.mem_of_sides {tie : JoinTie} {before joined sides : List TableRef} {s : Sharing}
    (shared : s ∈ tie.sharings before joined sides) : s.sides = sides := by
  cases tie with
  | shared columns =>
    obtain ⟨_, _, rfl⟩ := List.mem_map.mp shared
    rfl
  | _ => cases shared

mutual

/-- Shared columns are read from tables that are joined. -/
theorem JoinedTable.mem_of_sides : ∀ t : JoinedTable, ∀ s ∈ t.sharings, ∀ side ∈ s.sides,
    side ∈ tablesOf t.sources
  | ⟨relation, joins⟩, s, shared, side, next_ => by
    rw [JoinedTable.sources, tablesOf_append]
    rcases List.mem_append.mp shared with inside | later
    · exact List.mem_append_left _ (Relation.mem_of_sides relation s inside side next_)
    · exact Join.mem_of_sides joins _ _ (fun _ => Relation.mem_of_table?) s later side next_

theorem Relation.mem_of_sides : ∀ relation : Relation, ∀ s ∈ relation.sharings, ∀ side ∈ s.sides,
    side ∈ tablesOf relation.sources
  | .nested joined _ => JoinedTable.mem_of_sides joined
  | .table _ _ _ _ | .derived _ _ _ | .unnest _ _ _ _ | .tableFunction _ _ | .other _ _ =>
    fun _ shared => absurd shared List.not_mem_nil

theorem Join.mem_of_sides : ∀ (joins : List Join) (before : List TableRef) (last : Option TableRef),
    (∀ t ∈ last, t ∈ before) → ∀ s ∈ Join.sharings before last joins, ∀ side ∈ s.sides,
      side ∈ before ++ tablesOf (Join.sources joins)
  | [], _, _, _, _, shared, _, _ => absurd shared List.not_mem_nil
  | ⟨_, relation, _, tie, _⟩ :: rest, before, last, known, s, shared, side, next_ => by
    have known' : ∀ t ∈ relation.table?.or last, t ∈ before ++ tablesOf relation.sources := by
      intro t either
      rcases Option.or_eq_some_iff.mp either with itself | ⟨_, earlier⟩
      · exact List.mem_append_right _ (Relation.mem_of_table? itself)
      · exact List.mem_append_left _ (known t earlier)
    rw [Join.sources, tablesOf_append, ← List.append_assoc]
    rcases List.mem_append.mp shared with here | later
    · refine List.mem_append_left _ ?_
      rcases List.mem_append.mp here with inside | tied
      · exact List.mem_append_right _ (Relation.mem_of_sides relation s inside side next_)
      · rw [JoinTie.mem_of_sides tied] at next_
        rcases List.mem_append.mp next_ with earlier | itself
        · exact List.mem_append_left _ (known side (Option.mem_toList.mp earlier))
        · exact List.mem_append_right _ (Relation.mem_of_table? (Option.mem_toList.mp itself))
    · exact Join.mem_of_sides rest _ _ known' s later side next_

end

theorem Select.mem_of_sides {s : Select} {sharing : Sharing} (shared : sharing ∈ s.sharings) :
    ∀ side ∈ sharing.sides, side ∈ tablesOf s.sources := by
  obtain ⟨t, listed, inside⟩ := List.mem_flatMap.mp shared
  intro side next_
  have held := t.mem_of_sides sharing inside side next_
  obtain ⟨source, there, same⟩ := List.mem_filterMap.mp held
  exact List.mem_filterMap.mpr ⟨source, List.mem_flatMap.mpr ⟨t, listed, there⟩, same⟩

end TableAccess.Sql

namespace TableAccess

/-- Whether the tables of a scope can be told apart: none has the name of another one in front of its
columns, and no named query is called like one. -/
structure Scope.Distinct (s : Scope) : Prop where
  keys : s.tables.Pairwise fun a b => sameName a.key b.key = false
  unhidden : ∀ c ∈ s.ctes, ∀ t ∈ s.tables, sameName c.aliasName t.name = false

/-- A column that is qualified with the name of a table belongs to it. -/
theorem Scope.Distinct.attributionOf {r : Resolver} {s : Scope} {t : TableRef} (distinct : s.Distinct)
    (derived : s.derived = []) (listed : t ∈ s.tables) (column : String) :
    r.catalog.attributionOf [s.frame r [] [] 0] ⟨some t.key, column⟩ =
      .table (r.catalog.canonical [] t.name) := by
  have means : (s.frame r [] [] 0).aliases.find? t.key = some (r.catalog.canonical [] t.name) := by
    rw [s.find?_frame, declarations_of_unhidden derived distinct.unhidden]
    exact AliasMap.lastDeclared_of_distinct (List.pairwise_map.mpr distinct.keys) (List.mem_map_of_mem listed)
  have found : Frames.lookup [s.frame r [] [] 0] t.key = some (r.catalog.canonical [] t.name) :=
    Frames.lookup_of_own means
  rw [Catalog.attributionOf_qualified rfl, found]

theorem Catalog.hasColumn_congr {c : Catalog} {table table' column column' : String}
    (tables : sameName table table' = true) (columns : sameName column column' = true) :
    c.hasColumn table column = c.hasColumn table' column' := by
  simp only [hasColumn, entry?, Entry.has, sameName_iff.mp tables, sameName_iff.mp columns]

namespace Sql

/-- Whether a shared column is recorded for a table that is joined and for one before it, which have it, and
for none that lacks it, unless that is so without shared columns as well. -/
structure Sharing.Lands (r : Resolver) (tables : List TableRef) (a without : Access) (s : Sharing) : Prop where
  joined : ∃ t ∈ s.joined, r.catalog.hasColumn t.name s.column = some true ∧
    a.HasColumn (r.catalog.canonical [] t.name) s.column
  before : ∃ t ∈ s.before, r.catalog.hasColumn t.name s.column = some true ∧
    a.HasColumn (r.catalog.canonical [] t.name) s.column
  spared : ∀ t ∈ tables, r.catalog.hasColumn t.name s.column = some false →
    a.HasColumn (r.catalog.canonical [] t.name) s.column →
      without.HasColumn (r.catalog.canonical [] t.name) s.column

/-- Whether a column is read from a table as a shared one next to it, or is read without shared columns. -/
def Sharing.Reaches (r : Resolver) (all : List Sharing) (without : Access) (table column : String) : Prop :=
  without.HasColumn table column ∨ ∃ s ∈ all, sameName s.column column = true ∧
    ∃ t ∈ s.sides, r.catalog.canonical [] t.name = table

/-- Whether a shared column reaches a table that is joined and one before it, which have it, and the tables
next to each other do not lack it, unless it is read from them in any case. -/
structure Sharing.Reached (r : Resolver) (all : List Sharing) (without : Access) (s : Sharing) : Prop where
  joined : ∃ t ∈ s.joined, r.catalog.hasColumn t.name s.column = some true ∧
    Sharing.Reaches r all without (r.catalog.canonical [] t.name) s.column
  before : ∃ t ∈ s.before, r.catalog.hasColumn t.name s.column = some true ∧
    Sharing.Reaches r all without (r.catalog.canonical [] t.name) s.column
  sides : ∀ t ∈ s.sides, r.catalog.hasColumn t.name s.column = some false →
    without.HasColumn (r.catalog.canonical [] t.name) s.column

/-- A shared column reaches the tables next to each other if all of them have it. -/
theorem Sharing.Reached.of_sides {r : Resolver} {all : List Sharing} {without : Access} {s : Sharing}
    (shared : s ∈ all) (have_ : ∀ t ∈ s.sides, r.catalog.hasColumn t.name s.column = some true)
    (joined : ∃ t ∈ s.sides, t ∈ s.joined) (before : ∃ t ∈ s.sides, t ∈ s.before) :
    s.Reached r all without := by
  have reaches (t : TableRef) (side : t ∈ s.sides) :
      Sharing.Reaches r all without (r.catalog.canonical [] t.name) s.column :=
    .inr ⟨s, shared, sameName_refl _, t, side, rfl⟩
  obtain ⟨t, side, there⟩ := joined
  obtain ⟨t', side', there'⟩ := before
  refine ⟨⟨t, there, have_ t side, reaches t side⟩, ⟨t', there', have_ t' side', reaches t' side'⟩, ?_⟩
  intro t side lacks
  cases (have_ t side).symm.trans lacks

namespace Query
variable {r : Resolver} {id : Option StatementId} {q : Query} {s : Select} {table column : String}

/-- **A shared column is recorded for the tables next to each other, and for no others.** -/
theorem hasColumn_iff (select : q.selection? = some s) (plain : ∀ source ∈ s.sources, source.table?.isSome)
    (distinct : q.scope.Distinct) :
    (r.resolve (.select q.scope) id).access.HasColumn table column ↔
      Sharing.Reaches r s.sharings (r.resolve (.select q.withoutSharing.scope) id).access table column := by
  have shares := q.sharesIn plain select
  have held (scope : Scope) : (r.resolve (.select scope) id).access.HasColumn table column ↔
      ∃ name, (table, name) ∈ (scope.read r [] [] 0).columns ∧ sameName name column = true := by
    refine exists_congr fun name => and_congr_left fun _ => ?_
    exact Resolver.mem_columnsOf_resolve
  have mentioned {sharing : Sharing} (shared : sharing ∈ s.sharings) {t : TableRef} (side : t ∈ sharing.sides) :
      ∃ name, sameName name sharing.column = true ∧
        (r.mention [q.withoutSharing.scope.frame r [] [] 0] ⟨some t.key, sharing.column⟩).columns =
          [(r.catalog.canonical [] t.name, name)] := by
    have listed : t ∈ q.scope.tables := shares.tables ▸ Select.mem_of_sides shared t side
    obtain ⟨name, same, columns⟩ :=
      r.mention_columns [q.withoutSharing.scope.frame r [] [] 0] ⟨some t.key, sharing.column⟩
    refine ⟨name, same, ?_⟩
    rw [columns, ← shares.adds.frame, distinct.attributionOf shares.derived listed]
    rfl
  rw [held, Sharing.Reaches, held]
  simp only [shares.adds.mem_columns_read, or_and_right, exists_or]
  refine or_congr_right ?_
  constructor
  · rintro ⟨name, ⟨c, listed, recorded⟩, same⟩
    obtain ⟨sharing, shared, here⟩ := List.mem_flatMap.mp listed
    obtain ⟨t, side, rfl⟩ := List.mem_map.mp here
    obtain ⟨name', same', columns⟩ := mentioned shared side
    rw [columns, List.mem_singleton] at recorded
    obtain ⟨rfl, rfl⟩ := Prod.mk.inj recorded
    refine ⟨sharing, shared, ?_, t, side, rfl⟩
    rw [← sameName_congr same', same]
  · rintro ⟨sharing, shared, same, t, side, rfl⟩
    obtain ⟨name, same', columns⟩ := mentioned shared side
    refine ⟨name, ⟨_, List.mem_flatMap.mpr ⟨sharing, shared, List.mem_map_of_mem side⟩, ?_⟩, ?_⟩
    · rw [columns]
      exact List.mem_singleton_self _
    · rw [sameName_congr same', same]

/-- **Shared columns land on tables that have them exactly if those tables are the ones next to each other.** -/
theorem sharings_land_iff (select : q.selection? = some s)
    (plain : ∀ source ∈ s.sources, source.table?.isSome) (distinct : q.scope.Distinct) :
    let without := (r.resolve (.select q.withoutSharing.scope) id).access
    (∀ sharing ∈ s.sharings,
      sharing.Lands r (tablesOf s.sources) (r.resolve (.select q.scope) id).access without) ↔
      ∀ sharing ∈ s.sharings, sharing.Reached r s.sharings without := by
  intro without
  have recorded (table column : String) :
      (r.resolve (.select q.scope) id).access.HasColumn table column ↔
        Sharing.Reaches r s.sharings without table column := hasColumn_iff select plain distinct
  constructor
  · intro lands sharing shared
    obtain ⟨joined, before, spared⟩ := lands sharing shared
    simp only [recorded] at joined before
    refine ⟨joined, before, fun t side lacks => ?_⟩
    refine spared t (Select.mem_of_sides shared t side) lacks ((recorded _ _).mpr (.inr ?_))
    exact ⟨sharing, shared, sameName_refl _, t, side, rfl⟩
  · intro reached sharing shared
    obtain ⟨joined, before, _⟩ := reached sharing shared
    refine ⟨by simpa only [recorded] using joined, by simpa only [recorded] using before, ?_⟩
    intro t listed lacks held
    rcases (recorded _ _).mp held with other | ⟨sharing', shared', same, t', side, known⟩
    · exact other
    · have own : sameName (r.catalog.canonical [] t'.name) t'.name = true := Catalog.sameName_canonical
      have tables : sameName t'.name t.name = true := by
        rw [← sameName_congr own, known]
        exact Catalog.sameName_canonical
      rw [← Catalog.hasColumn_congr tables same] at lacks
      obtain ⟨name, there, spelled⟩ := (reached sharing' shared').sides t' side lacks
      rw [known] at there
      exact ⟨name, there, by rw [sameName_congr spelled, same]⟩

/-- Each table in a row shares a column with the one before it. -/
theorem sharings_land_iff_chained :
    let r : Resolver := ⟨.ofTables [⟨"a", ["id"]⟩, ⟨"b", ["id", "y"]⟩, ⟨"c", ["y"]⟩], 32⟩
    ∃ q s, ofText? .postgresql "SELECT 1 FROM a JOIN b USING (id) JOIN c USING (y)" = some q ∧
      q.selection? = some s ∧
      s.sharings = [⟨"id", [⟨"a", none⟩], [⟨"b", none⟩], [⟨"a", none⟩, ⟨"b", none⟩]⟩,
        ⟨"y", [⟨"a", none⟩, ⟨"b", none⟩], [⟨"c", none⟩], [⟨"b", none⟩, ⟨"c", none⟩]⟩] ∧
      ∀ sharing ∈ s.sharings, sharing.Lands r (tablesOf s.sources)
        (r.resolve (.select q.scope) none).access
        (r.resolve (.select q.withoutSharing.scope) none).access := by
  intro r
  have facts : (ofText? .postgresql "SELECT 1 FROM a JOIN b USING (id) JOIN c USING (y)").map (fun q =>
        (q.scope.tables, q.scope.ctes.length,
          q.selection?.map fun s => (s.sharings, s.sources.all (·.table?.isSome)))) =
      some ([⟨"a", none⟩, ⟨"b", none⟩, ⟨"c", none⟩], 0,
        some ([⟨"id", [⟨"a", none⟩], [⟨"b", none⟩], [⟨"a", none⟩, ⟨"b", none⟩]⟩,
          ⟨"y", [⟨"a", none⟩, ⟨"b", none⟩], [⟨"c", none⟩], [⟨"b", none⟩, ⟨"c", none⟩]⟩], true)) := by
    decide +kernel
  obtain ⟨q, read, same⟩ := Option.map_eq_some_iff.mp facts
  obtain ⟨tables, same⟩ := Prod.mk.inj same
  obtain ⟨ctes, same⟩ := Prod.mk.inj same
  obtain ⟨s, select, same⟩ := Option.map_eq_some_iff.mp same
  obtain ⟨sharings, plain⟩ := Prod.mk.inj same
  have distinct : q.scope.Distinct := by
    refine ⟨?_, fun c listed => absurd listed (List.length_eq_zero_iff.mp ctes ▸ List.not_mem_nil)⟩
    rw [tables]
    decide +kernel
  refine ⟨q, s, read, select, sharings,
    (sharings_land_iff select (List.all_eq_true.mp plain) distinct).mpr ?_⟩
  intro sharing shared
  have held : ∀ sharing ∈ s.sharings,
      (∀ t ∈ sharing.sides, r.catalog.hasColumn t.name sharing.column = some true) ∧
        (∃ t ∈ sharing.sides, t ∈ sharing.joined) ∧ ∃ t ∈ sharing.sides, t ∈ sharing.before := by
    rw [sharings]
    decide +kernel
  obtain ⟨have_, joined, before⟩ := held sharing shared
  exact .of_sides shared have_ joined before

/-- A shared column is recorded for the table next to the joined one, although only the table before has it. -/
theorem sharing_recorded_for_table_without_it :
    let r : Resolver := ⟨.ofTables [⟨"a", ["id", "y"]⟩, ⟨"b", ["id"]⟩, ⟨"c", ["y"]⟩], 32⟩
    ∃ q s, ofText? .postgresql "SELECT 1 FROM a JOIN b USING (id) JOIN c USING (y)" = some q ∧
      q.selection? = some s ∧
      ⟨"y", [⟨"a", none⟩, ⟨"b", none⟩], [⟨"c", none⟩], [⟨"b", none⟩, ⟨"c", none⟩]⟩ ∈ s.sharings ∧
      ¬ ∀ sharing ∈ s.sharings, sharing.Lands r (tablesOf s.sources)
        (r.resolve (.select q.scope) none).access
        (r.resolve (.select q.withoutSharing.scope) none).access := by
  intro r
  have facts : (ofText? .postgresql "SELECT 1 FROM a JOIN b USING (id) JOIN c USING (y)").map (fun q =>
        ((q.scope.read r [] [] 0).columns, (q.withoutSharing.scope.read r [] [] 0).columns,
          q.selection?.map Select.sharings)) =
      some ([("a", "id"), ("b", "id"), ("b", "y"), ("c", "y")], [],
        some [⟨"id", [⟨"a", none⟩], [⟨"b", none⟩], [⟨"a", none⟩, ⟨"b", none⟩]⟩,
          ⟨"y", [⟨"a", none⟩, ⟨"b", none⟩], [⟨"c", none⟩], [⟨"b", none⟩, ⟨"c", none⟩]⟩]) := by
    decide +kernel
  obtain ⟨q, read, same⟩ := Option.map_eq_some_iff.mp facts
  obtain ⟨columns, same⟩ := Prod.mk.inj same
  obtain ⟨others, same⟩ := Prod.mk.inj same
  obtain ⟨s, select, sharings⟩ := Option.map_eq_some_iff.mp same
  have shared : ⟨"y", [⟨"a", none⟩, ⟨"b", none⟩], [⟨"c", none⟩], [⟨"b", none⟩, ⟨"c", none⟩]⟩ ∈ s.sharings := by
    rw [sharings]
    exact List.mem_cons_of_mem _ List.mem_cons_self
  refine ⟨q, s, read, select, shared, fun lands => ?_⟩
  have beside : ⟨"b", none⟩ ∈ tablesOf s.sources := Select.mem_of_sides shared _ List.mem_cons_self
  have lacks : r.catalog.hasColumn "b" "y" = some false := by decide +kernel
  have own : r.catalog.canonical [] "b" = "b" := by decide +kernel
  have recorded : (r.resolve (.select q.scope) none).access.HasColumn (r.catalog.canonical [] "b") "y" := by
    rw [own]
    refine ⟨"y", Resolver.mem_columnsOf_resolve.mpr ?_, sameName_refl _⟩
    change ("b", "y") ∈ (q.scope.read r [] [] 0).columns
    rw [columns]
    decide
  obtain ⟨name, held, _⟩ := (lands _ shared).spared _ beside lacks recorded
  have absent : (_, name) ∈ (q.withoutSharing.scope.read r [] [] 0).columns :=
    Resolver.mem_columnsOf_resolve.mp held
  rw [others] at absent
  cases absent

end Query
end Sql
end TableAccess
