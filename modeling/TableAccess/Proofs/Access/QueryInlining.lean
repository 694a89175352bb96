import TableAccess.Proofs.Access.AlikeStatements

/-! A named query that is read once may as well stand among the sources itself. Both ways its body
sees the same, and the sources have the same names and tables in the same order. Only where the
named query is visible differs: as a named query everywhere inside the scope, as a source in the
expressions of the scope and in what is nested there. Since nothing else has its name, wherever a
table of that name is asked for, it is known, and with the same columns. -/
namespace TableAccess

namespace Scope

/-- A scope that declares a further named query, and reads it after its other tables. -/
def withNamed (c : Cte) (s : Scope) : Scope :=
  { s with ctes := s.ctes ++ [c], tables := s.tables ++ [⟨c.aliasName, none⟩] }

/-- A scope that has a query among its sources, in front of its other subqueries. -/
def withSource (c : Cte) (s : Scope) : Scope :=
  { s with derived := ⟨some c.aliasName, c.columns, c.body⟩ :: s.derived }

end Scope

private theorem other_congr (name a b : String) (same : sameName a b = true) :
    (!sameName name a) = !sameName name b := by
  rw [sameName_comm, sameName_congr same, sameName_comm]

/-- Names are compared letter by letter and notes in any order, where tables have all names but
one. This one may mean a table outside only if the comparison is not closed. -/
private def apartFrom (name : String) (closed : Bool) : Likeness :=
  { Likeness.literal with
    sequenced := false, allows := fun other => !sameName name other, closed
    allows_congr := other_congr name }

section
variable {catalog : Catalog} {d depth : Nat} {c : Cte} {s : Scope} {ctes ctes' : LocalTables}
  {outer outer' : Frames} {closed : Bool}

private theorem allows_eq_false_iff {name other : String} :
    (apartFrom name closed).allows other = false ↔ sameName name other = true := by
  simp [apartFrom]

private theorem different_of_allowed {name other : String}
    (allowed : (apartFrom name closed).allows other = true) : sameName name other = false := by
  simpa [apartFrom] using allowed

/-- Whether the comparison is closed makes no difference to readings. -/
private theorem Reading.Alike.reopen {name : String} {a b : Reading} (closed' : Bool)
    (alike : a.Alike (apartFrom name closed) b) : a.Alike (apartFrom name closed') b :=
  ⟨alike.tables, alike.columns, alike.notes, alike.outputs⟩

/-- The name of the query is used twice more than in the scope and the query: where the query is
declared, and where it is read. -/
private theorem foreign_withNamed :
    (apartFrom c.aliasName closed).foreign (s.withNamed c).tableNames =
      (apartFrom c.aliasName closed).foreign s.tableNames +
        (apartFrom c.aliasName closed).foreign c.body.tableNames + 2 := by
  have own : (apartFrom c.aliasName closed).foreign (s.withNamed c).ownTables =
      (apartFrom c.aliasName closed).foreign s.ownTables + 2 := by
    simp only [Likeness.foreign, Scope.ownTables, Scope.withNamed, List.map_append,
      List.countP_append, List.map_cons, List.map_nil, List.countP_cons, List.countP_nil]
    simp [apartFrom]
    omega
  rw [Likeness.foreign_tableNames, Likeness.foreign_tableNames _ s, own]
  simp only [Scope.withNamed, List.map_append, List.map_cons, List.map_nil, List.sum_append,
    List.sum_cons, List.sum_nil]
  omega

/-- A further named query is read last, and then visible first. -/
private theorem Cte.readAll_concat (r : Resolver) (declared : List Cte) (c : Cte) :
    Cte.readAll r ctes outer depth (declared ++ [c]) =
      let earlier := Cte.readAll r ctes outer depth declared
      let body := r.readBody "CTE" (some c.aliasName) earlier.1 outer depth c.body
      (c.schema body :: earlier.1, earlier.2 ++ (body ++ .ofTables [c.aliasName])) := by
  induction declared generalizing ctes with
  | nil =>
    rw [List.nil_append, Cte.readAll_cons]
    simp only [Cte.readAll]
    refine Prod.ext rfl ?_
    rw [Reading.append_assoc]
    rfl
  | cons first rest ih =>
    simp only [List.cons_append, Cte.readAll_cons, ih, Reading.append_assoc]

private theorem find?_schema {body : Reading} {tables : LocalTables} {name : String} :
    LocalTables.find? (c.schema body :: tables) name =
      if sameName c.aliasName name then some (c.schema body) else tables.find? name :=
  LocalTables.find?_cons ..

/-- A query may be visible under the one name on one side if nothing outside has that name. -/
private theorem Surroundings.Alike.bind_one {body : Reading} (around : Surroundings.Alike
      (apartFrom c.aliasName true) catalog catalog ctes ctes' outer outer') :
    Surroundings.Alike (apartFrom c.aliasName false) catalog catalog (c.schema body :: ctes) ctes'
      outer outer' where
  named name allowed := by
    rw [find?_schema, different_of_allowed allowed]
    exact around.named name allowed
  lookup := around.lookup
  known table held := by
    have allowed : (apartFrom c.aliasName true).allows table = true :=
      held.elim id (around.outside rfl table)
    unfold Catalog.columnsWithin?
    rw [find?_schema, different_of_allowed allowed]
    exact around.known table (.inl allowed)
  outside closed := by cases closed
  unseen closed := by cases closed

/-- The sources of a scope before its subqueries are added, where a further named query is the last
of its tables. -/
private def Scope.namedStart (r : Resolver) (ctes : LocalTables) (outer : Frames) (depth : Nat)
    (c : Cte) (s : Scope) : Sources :=
  let earlier := Cte.readAll r ctes outer depth s.ctes
  let body := r.readBody "CTE" (some c.aliasName) earlier.1 outer depth c.body
  let names := AliasMap.empty.declareAll
    (s.tables.map fun t => ⟨t.key, r.catalog.canonical (c.schema body :: earlier.1) t.name⟩)
  let own := names.1.insertNoting c.aliasName c.aliasName
  ⟨own.1, [], earlier.2 ++ (body ++ .ofTables [c.aliasName]) ++ .ofNotes (names.2 ++ own.2), none⟩

/-- The sources of a scope once the first of its subqueries is added. -/
private def Scope.sourceStart (r : Resolver) (ctes : LocalTables) (outer : Frames) (depth : Nat)
    (c : Cte) (s : Scope) : Sources :=
  let earlier := Cte.readAll r ctes outer depth s.ctes
  let body := r.readBody "derived table" (some c.aliasName) earlier.1 outer depth c.body
  let names := AliasMap.empty.declareAll
    (s.tables.map fun t => ⟨t.key, r.catalog.canonical earlier.1 t.name⟩)
  Sources.add ⟨names.1, [], earlier.2 ++ .ofNotes names.2, none⟩
    ⟨some c.aliasName, declaredOr c.columns body.outputs, body⟩

/-- Once it is added, the query is known with the columns that it gives. -/
private theorem Scope.sourceStart_derived (r : Resolver) (c : Cte) (s : Scope) :
    (s.sourceStart r ctes outer depth c).derived =
      [c.schema (r.readBody "derived table" (some c.aliasName) (s.visible r ctes outer depth) outer
        depth c.body)] := rfl

private theorem visible_withNamed (r : Resolver) (c : Cte) (s : Scope) :
    (s.withNamed c).visible r ctes outer depth =
      c.schema (r.readBody "CTE" (some c.aliasName) (s.visible r ctes outer depth) outer depth
        c.body) :: s.visible r ctes outer depth := by
  rw [Scope.visible, Scope.withNamed, Cte.readAll_concat]
  rfl

private theorem sources_withNamed (r : Resolver) (c : Cte) (s : Scope) :
    (s.withNamed c).sources r ctes outer depth =
      (Derived.readAll r ((s.withNamed c).visible r ctes outer depth) outer depth s.derived).foldl
        Sources.add (s.namedStart r ctes outer depth c) := by
  have own (body : Reading) (visible : LocalTables) :
      r.catalog.canonical (c.schema body :: visible) c.aliasName = c.aliasName := by
    rw [Catalog.canonical, find?_schema, sameName_refl]
    rfl
  have read : Cte.readAll r ctes outer depth (s.withNamed c).ctes = _ :=
    Cte.readAll_concat r s.ctes c
  simp only [Scope.sources, Scope.visible, read]
  simp only [Scope.withNamed, AliasMap.ofTables, AliasMap.addTables_eq_declareAll, List.map_append,
    List.map_cons, List.map_nil, TableRef.key, Option.getD_none, own, AliasMap.declareAll_append,
    AliasMap.declareAll, List.append_nil]
  rfl

private theorem sources_withSource (r : Resolver) (c : Cte) (s : Scope) :
    (s.withSource c).sources r ctes outer depth =
      (Derived.readAll r (s.visible r ctes outer depth) outer depth s.derived).foldl
        Sources.add (s.sourceStart r ctes outer depth c) := by
  simp only [Scope.sources, Scope.withSource, AliasMap.ofTables, AliasMap.addTables_eq_declareAll,
    Derived.readAll_eq_map, List.map_cons, List.foldl_cons]
  rfl

/-- Subqueries that are added leave other names alone. -/
private theorem Sources.find?_addAll {sources : List Source} (start : Sources) {name : String}
    (others : ∀ source ∈ sources, ∀ called, source.aliasName = some called →
      sameName called name = false) :
    (sources.foldl Sources.add start).aliases.find? name = start.aliases.find? name ∧
      (sources.foldl Sources.add start).derived.find? name = start.derived.find? name := by
  induction sources generalizing start with
  | nil => exact ⟨rfl, rfl⟩
  | cons source rest ih =>
    obtain ⟨atHead, later⟩ := List.forall_mem_cons.mp others
    obtain ⟨aliases, derived⟩ := ih (start.add source) later
    refine ⟨aliases.trans ?_, derived.trans ?_⟩ <;> unfold Sources.add <;>
      cases called : source.aliasName with
      | none => rfl
      | some own =>
        simp [AliasMap.insertNoting, AliasMap.find?_insert, LocalTables.find?_cons,
          atHead own called]

/-- A table is known alike as a named query on one side and as a subquery among the sources on the
other. -/
private theorem knowAlike_of_query {l : Likeness} {a b : Sources} {t t' : TableSchema}
    {table : String} (alike : l.columns t.columns = l.columns t'.columns)
    (named : ctes.find? table = some t) (absent : a.derived.find? table = none)
    (unnamed : ctes'.find? table = none) (source : b.derived.find? table = some t') :
    Sources.KnowAlike l catalog catalog ctes ctes' outer outer' a b table := by
  have same : some (l.columns t.columns) = some (l.columns t'.columns) := congrArg some alike
  constructor
  · rw [Catalog.columnsOf?_frame, Catalog.columnsOf?_frame, absent, source, Catalog.columnsWithin?,
      named]
    exact same
  · rw [Catalog.columnsWithin?, Catalog.columnsWithin?, named, unnamed, Catalog.columnsOf?_frame,
      Catalog.columnsOf?_frame, source]
    exact same

/-- What is found may be put together in another order, and the tables be found once more. -/
private theorem regroup {name : String} (a b : Reading) (tables : List String)
    (first second : List Diagnostic) :
    (a ++ (b ++ .ofTables tables) ++ .ofNotes (first ++ second) ++ .ofTables tables).Alike
      (apartFrom name closed) (a ++ .ofNotes first ++ b ++ .ofNotes second ++ .ofTables tables) := by
  refine ⟨fun table => ?_, fun pair => ?_, ?_, rfl⟩
  · simp only [Reading.tables_append, List.map_append, List.mem_append, Reading.ofNotes,
      Reading.ofTables, Reading.empty, List.map_nil, List.not_mem_nil]
    tauto
  · simp [Reading.ofNotes, Reading.ofTables, Reading.empty]
  · refine arranged_map _ (arranged_eq_iff.mpr ?_)
    have swapped : (a.notes ++ (b.notes ++ (first ++ second))).Perm
        (a.notes ++ (first ++ (b.notes ++ second))) := (List.perm_append_comm_assoc ..).append_left _
    simpa [Reading.ofNotes, Reading.ofTables, Reading.empty, apartFrom] using swapped

section
variable (plain : (apartFrom c.aliasName true).foreign s.tableNames = 0)
include plain

/-- A scope resembles itself where nothing in it has the name of the query. -/
private theorem resembles_itself (catalog : Catalog) (d : Nat) (closed : Bool) :
    s.Resembles (apartFrom c.aliasName closed)
      (Scope.ReadsAlike (apartFrom c.aliasName closed) catalog catalog d) s :=
  s.resembles_self (fun _ => rfl) rfl plain

private theorem others_of_plain (r : Resolver) (visible : LocalTables) :
    ∀ source ∈ Derived.readAll r visible outer depth s.derived, ∀ called,
      source.aliasName = some called → sameName called c.aliasName = false := by
  rw [Derived.readAll_eq_map]
  intro source read called named
  obtain ⟨declared, member, rfl⟩ := List.mem_map.mp read
  have same := (resembles_itself plain r.catalog r.maxDepth true).derived
  have allowed := (List.forall₂_same.mp same declared member).allowed called named
  exact (sameName_comm ..).trans (different_of_allowed allowed)

/-- As a named query, the query is no subquery among the sources. -/
private theorem find?_withNamed (r : Resolver) (ctes : LocalTables) (outer : Frames) (depth : Nat) :
    ((s.withNamed c).sources r ctes outer depth).aliases.find? c.aliasName = some c.aliasName ∧
      ((s.withNamed c).sources r ctes outer depth).derived.find? c.aliasName = none := by
  obtain ⟨aliases, derived⟩ := Sources.find?_addAll (s.namedStart r ctes outer depth c)
    (others_of_plain plain r ((s.withNamed c).visible r ctes outer depth))
  rw [sources_withNamed, aliases, derived]
  refine ⟨AliasMap.find?_insert.trans ?_, rfl⟩
  rw [if_pos (sameName_refl _)]

/-- As a source, the query is found among the sources with the columns that it gives. -/
private theorem find?_withSource (r : Resolver) (ctes : LocalTables) (outer : Frames) (depth : Nat) :
    ((s.withSource c).sources r ctes outer depth).aliases.find? c.aliasName = some c.aliasName ∧
      ((s.withSource c).sources r ctes outer depth).derived.find? c.aliasName =
        some (c.schema (r.readBody "derived table" (some c.aliasName) (s.visible r ctes outer depth)
          outer depth c.body)) := by
  obtain ⟨aliases, derived⟩ := Sources.find?_addAll (s.sourceStart r ctes outer depth c)
    (others_of_plain plain r (s.visible r ctes outer depth))
  rw [sources_withSource, aliases, derived, Scope.sourceStart_derived, find?_schema]
  refine ⟨AliasMap.find?_insert.trans ?_, ?_⟩ <;> rw [if_pos (sameName_refl _)]

end

section
variable (plain : (apartFrom c.aliasName true).foreign s.tableNames = 0)
  (apart : (apartFrom c.aliasName true).foreign c.body.tableNames = 0)
  (around : Surroundings.Alike (apartFrom c.aliasName true) catalog catalog ctes ctes' outer outer')
include plain around

private theorem visible_alike (d depth : Nat) :
    Surroundings.Alike (apartFrom c.aliasName true) catalog catalog
      (s.visible ⟨catalog, d⟩ ctes outer depth) (s.visible ⟨catalog, d⟩ ctes' outer' depth)
      outer outer' :=
  (Cte.readAll_alike depth around (resembles_itself plain catalog d true).ctes).1

/-- What surrounds the sources and expressions of the scope is alike. -/
private theorem inside_alike (d depth : Nat) :
    Surroundings.Alike (apartFrom c.aliasName false) catalog catalog
      ((s.withNamed c).visible ⟨catalog, d⟩ ctes outer depth)
      ((s.withSource c).visible ⟨catalog, d⟩ ctes' outer' depth) outer outer' := by
  rw [visible_withNamed]
  exact (visible_alike plain around d depth).bind_one

include apart

/-- The query sees the same on both sides. -/
private theorem body_alike (d depth : Nat) :
    (Resolver.readBody ⟨catalog, d⟩ "CTE" (some c.aliasName) (s.visible ⟨catalog, d⟩ ctes outer depth)
        outer depth c.body).Alike (apartFrom c.aliasName false)
      (Resolver.readBody ⟨catalog, d⟩ "derived table" (some c.aliasName)
        (s.visible ⟨catalog, d⟩ ctes' outer' depth) outer' depth c.body) := by
  have reads : Scope.ReadsAlike (apartFrom c.aliasName true) catalog catalog d c.body c.body :=
    Scope.readsAlike_self (fun _ => rfl) rfl apart
  exact ((visible_alike plain around d depth).readBody depth _ _ _ _ reads).reopen false

/-- Before the other subqueries are added, the sources are alike on both sides. -/
private theorem start_alike (d depth : Nat) :
    Sources.Alike (apartFrom c.aliasName false) [c.aliasName]
      (s.namedStart ⟨catalog, d⟩ ctes outer depth c)
      (s.sourceStart ⟨catalog, d⟩ ctes' outer' depth c) := by
  have same := resembles_itself plain catalog d true
  obtain ⟨-, named⟩ := Cte.readAll_alike depth around same.ctes
  have body := body_alike plain apart around d depth
  have within := inside_alike plain around d depth
  rw [visible_withNamed] at within
  obtain ⟨aliases, notes⟩ := AliasMap.alike_declareAll
    (within.declares (fun _ => rfl) same.allowed (.inl rfl))
  refine ⟨aliases.insert rfl rfl, fun name allowed => ?_, ?_, rfl⟩
  · rw [Scope.sourceStart_derived, find?_schema, different_of_allowed allowed]
    rfl
  · have own := @AliasMap.Alike.findings_insertNoting _ _ _ c.aliasName c.aliasName c.aliasName
      c.aliasName aliases rfl
    have noted := congrArg₂ (· ++ ·) notes own
    rw [← List.map_append, ← List.map_append] at noted
    have tables := Reading.Alike.refl (apartFrom c.aliasName false) (.ofTables [c.aliasName])
    have found := (((named.reopen false).append (body.append tables)).append (.ofNotes noted)).append
      tables
    exact found.trans (regroup ..)

private theorem sources_alike (d depth : Nat) :
    Sources.Alike (apartFrom c.aliasName false) [c.aliasName]
      ((s.withNamed c).sources ⟨catalog, d⟩ ctes outer depth)
      ((s.withSource c).sources ⟨catalog, d⟩ ctes' outer' depth) := by
  have subqueries := Derived.readAll_alike depth (inside_alike plain around d depth)
    (resembles_itself plain catalog d false).derived
  rw [sources_withNamed, sources_withSource]
  exact (start_alike plain apart around d depth).addAll subqueries

/-- The columns of the query are known alike. -/
private theorem query_knowAlike {table : String} (called : sameName c.aliasName table = true)
    (d depth : Nat) :
    Sources.KnowAlike (apartFrom c.aliasName false) catalog catalog
      ((s.withNamed c).visible ⟨catalog, d⟩ ctes outer depth)
      ((s.withSource c).visible ⟨catalog, d⟩ ctes' outer' depth) outer outer'
      ((s.withNamed c).sources ⟨catalog, d⟩ ctes outer depth)
      ((s.withSource c).sources ⟨catalog, d⟩ ctes' outer' depth) table := by
  have absent := (find?_withNamed plain ⟨catalog, d⟩ ctes outer depth).2
  have source := (find?_withSource plain ⟨catalog, d⟩ ctes' outer' depth).2
  have unseen := (visible_alike plain around d depth).unseen rfl table
    (allows_eq_false_iff.mpr called)
  refine knowAlike_of_query ?_ (by rw [visible_withNamed, find?_schema, if_pos called])
    (LocalTables.find?_congr called ▸ absent) unseen (LocalTables.find?_congr called ▸ source)
  exact columns_declaredOr rfl (body_alike plain apart around d depth).outputs

end

/-- **A named query and a source are read alike** where nothing else has the name. -/
private theorem Scope.withNamed_readsAlike
    (once : (apartFrom c.aliasName true).foreign (s.withNamed c).tableNames ≤ 2) :
    Scope.ReadsAlike (apartFrom c.aliasName true) catalog catalog d (s.withNamed c)
      (s.withSource c) := by
  intro ctes ctes' outer outer' depth around
  rw [foreign_withNamed] at once
  have plain : (apartFrom c.aliasName true).foreign s.tableNames = 0 := by omega
  have apart : (apartFrom c.aliasName true).foreign c.body.tableNames = 0 := by omega
  have same := resembles_itself plain catalog d false
  have means := (find?_withNamed plain ⟨catalog, d⟩ ctes outer depth).1
  have means' := (find?_withSource plain ⟨catalog, d⟩ ctes' outer' depth).1
  rw [Scope.read_eq_finish, Scope.read_eq_finish]
  -- Inside the scope the query is visible on one side only, so there the comparison is not closed.
  refine Reading.Alike.reopen true ((sources_alike plain apart around d depth).read
    (inside_alike plain around d depth)
    (List.forall_mem_singleton.mpr (AliasMap.mem_tables_of_find? means))
    (List.forall_mem_singleton.mpr (AliasMap.mem_tables_of_find? means'))
    (fun table _ other => ?_) (fun closed => by cases closed) same.places same.outputs)
  exact query_knowAlike plain apart around (allows_eq_false_iff.mp other) d depth

/-- **A named query that is read once may as well stand among the sources**, wherever in a
statement its scope is. -/
theorem Statement.query_inlined {t t' : Statement} (r : Resolver) (tag : Option StatementId)
    (replaced : t.Replaced (s.withNamed c) (s.withSource c) t')
    (once : t.tableNames.countP (sameName c.aliasName) = 2) :
    (r.resolve t tag).access = (r.resolve t' tag).access ∧
      (t.read r).outputs = (t'.read r).outputs ∧
      ((t.read r).notes.map Diagnostic.finding).Perm ((t'.read r).notes.map Diagnostic.finding) := by
  have catalogs : r.catalog.Alike (apartFrom c.aliasName true) r.catalog := fun _ => rfl
  have used : (apartFrom c.aliasName true).foreign t.tableNames = 2 := by
    simpa [Likeness.foreign, apartFrom] using once
  obtain ⟨least, resembles⟩ := replaced.resembles (d := r.maxDepth) catalogs rfl
  have inside : (apartFrom c.aliasName true).foreign (s.withNamed c).tableNames ≤ 2 := by omega
  -- The scope uses the name twice itself, so nothing around it does.
  have two : 2 ≤ (apartFrom c.aliasName true).foreign (s.withNamed c).tableNames := by
    rw [foreign_withNamed]
    omega
  have same := resembles (by omega) (Scope.withNamed_readsAlike inside)
  have alike := same.read catalogs
  have outputs := alike.outputs_eq rfl
  rw [show (apartFrom c.aliasName true).form = id from rfl, List.map_id, List.map_id] at outputs
  exact ⟨alike.access_eq rfl same.kind, outputs, alike.findings_perm⟩

/-- A query of orders, and of who has them under another name. -/
def owners : Cte := ⟨"q", ["id", "who"], ⟨[], [⟨"o", none⟩], [], [], [.named "no", .named "u"]⟩⟩

/-- A scope with columns of that query, also in a subquery of its condition. -/
def ownersBySite : Scope where
  ctes := []
  tables := [⟨"s", none⟩]
  derived := [⟨some "d", [], ⟨[], [⟨"s", none⟩], [], [], [.wildcard none]⟩⟩]
  nodes := [.column ⟨some "Q", "ID"⟩,
    .subquery ⟨[], [⟨"i", none⟩], [], [.column ⟨some "q", "Who"⟩], []⟩]
  outputs := [.wildcard (some "q"), .wildcard none]

/-- A deletion with a scope in a subquery of its condition. -/
def deletionBy (s : Scope) : Statement := .delete ⟨[], [⟨"r", none⟩], [], [.subquery s], []⟩

theorem Statement.query_inlined_owners :
    let r : Resolver := ⟨.ofTables [⟨"s", ["id", "at"]⟩, ⟨"q", ["no"]⟩], 32⟩
    let named := deletionBy (ownersBySite.withNamed owners)
    let source := deletionBy (ownersBySite.withSource owners)
    named.Replaced (ownersBySite.withNamed owners) (ownersBySite.withSource owners) source ∧
      named.tableNames.countP (sameName owners.aliasName) = 2 ∧
      (r.resolve named none).access = (r.resolve source none).access ∧
      (named.read r).outputs = (source.read r).outputs ∧
      ((named.read r).notes.map Diagnostic.finding).Perm
        ((source.read r).notes.map Diagnostic.finding) := by
  intro r named source
  have replaced : named.Replaced (ownersBySite.withNamed owners) (ownersBySite.withSource owners)
      source :=
    .delete (@Scope.Replaced.subquery _ _ ⟨[], [⟨"r", none⟩], [], [], []⟩ _ _ _ _ .whole
      (@Node.Replaced.subquery _ _ [] []))
  have once : named.tableNames.countP (sameName owners.aliasName) = 2 := by decide +kernel
  exact ⟨replaced, once, query_inlined r none replaced once⟩

end
end TableAccess
