import TableAccess.Proofs.Binding.Assembly
import TableAccess.Proofs.Binding.Lookup
import TableAccess.Proofs.Binding.Mentions

/-! What a scope takes from the database. A name among its tables is looked up there only if no
named query that it sees is called so, and whatever is looked up later goes back to such a name,
to a named query or to a subquery of the chain. A scope is therefore read the same with any two
catalogs that agree on the names that it takes from outside. -/
namespace TableAccess

mutual

/-- The names that the scopes at a node take from the database, where some named queries are
visible. -/
def Node.external (named : List String) : Node → List String
  | .column _ => []
  | .call _ _ arguments => Node.externalOf named arguments
  | .subquery body => body.external named

/-- The names that the scopes at several nodes take from the database. -/
def Node.externalOf (named : List String) : List Node → List String
  | [] => []
  | n :: rest => n.external named ++ Node.externalOf named rest

/-- The names that a scope takes from the database, with everything nested in it: those of its
tables that are no visible named query. -/
def Scope.external (named : List String) : Scope → List String
  | ⟨ctes, tables, derived, nodes, _⟩ =>
    let visible := (ctes.map Cte.aliasName).reverse ++ named
    Cte.externalOf named ctes
      ++ (tables.map TableRef.name).filter (fun name => !hasName visible name)
      ++ Derived.externalOf visible derived ++ Node.externalOf visible nodes

/-- The names that the bodies of named queries take from the database. Each sees those before
it. -/
def Cte.externalOf (named : List String) : List Cte → List String
  | [] => []
  | ⟨aliasName, _, body⟩ :: rest =>
    body.external named ++ Cte.externalOf (aliasName :: named) rest

/-- The names that subqueries among the sources take from the database. -/
def Derived.externalOf (named : List String) : List Derived → List String
  | [] => []
  | ⟨_, _, body⟩ :: rest => body.external named ++ Derived.externalOf named rest

end

section
variable {named : List String} {body : Scope} {name : String}

theorem Derived.mem_externalOf {declared : List Derived} {d : Derived} (member : d ∈ declared)
    (held : name ∈ d.body.external named) : name ∈ Derived.externalOf named declared := by
  induction declared with
  | nil => cases member
  | cons first rest ih =>
    obtain ⟨aliasName, columns, inner⟩ := first
    rw [externalOf, List.mem_append]
    rcases List.mem_cons.mp member with rfl | later
    · exact .inl held
    · exact .inr (ih later)

mutual

private theorem Node.mem_external (held : name ∈ body.external named) : ∀ n : Node,
    .subquery body ∈ n.places → name ∈ n.external named
  | .column _, member => by simp [places] at member
  | .call _ _ arguments, member =>
    Node.mem_externalOf held arguments (Node.subquery_mem_argumentPlaces_iff.mp member)
  | .subquery _, member => by
    rw [places, List.mem_singleton, Place.subquery.injEq] at member
    rwa [external, ← member]

/-- What a subquery in an expression takes from the database, the expression does. -/
theorem Node.mem_externalOf (held : name ∈ body.external named) : ∀ nodes : List Node,
    .subquery body ∈ Node.placesOf nodes → name ∈ Node.externalOf named nodes
  | [], member => by cases member
  | n :: rest, member => by
    rw [externalOf, List.mem_append]
    exact (List.mem_append.mp member).imp (Node.mem_external held n)
      (Node.mem_externalOf held rest)

end

end

/-- Whether two catalogs agree on some names: both declare a table of each name, and declare it
alike, or neither does. -/
def Catalog.AgreeOn (c c' : Catalog) (names : List String) : Prop :=
  ∀ name ∈ names, c.find? name = c'.find? name

/-- Whether two catalogs know the same columns of every table that a chain of scopes has a name
for. -/
def Frames.Alike (c c' : Catalog) (frames : Frames) : Prop :=
  ∀ table, frames.Names table → c.columnsOf? frames table = c'.columnsOf? frames table

section
variable {c c' : Catalog} {d depth : Nat} {frames outer : Frames} {ctes : LocalTables}
  {table : String}

theorem Catalog.columnsOf?_cons (c : Catalog) (frame : Frame) :
    c.columnsOf? (frame :: outer) table =
      (((frame.derived.find? table).or (frame.ctes.find? table)).map TableSchema.columns).or
        (c.columnsOf? outer table) := by
  simp only [columnsOf?, Frames.localTable?, Option.orElse_eq_or, Option.map_or, Option.or_assoc]

/-- Catalogs that agree on a name call the table alike. -/
theorem Catalog.canonical_agree
    (agree : ctes.find? table = none → c.find? table = c'.find? table) :
    c.canonical ctes table = c'.canonical ctes table := by
  unfold canonical
  cases visible : ctes.find? table with
  | some declared => rfl
  | none => rw [agree visible]

namespace Frames.Alike
variable (alike : frames.Alike c c') {column : ColumnRef}
include alike

theorem attributionOf : c.attributionOf frames column = c'.attributionOf frames column := by
  unfold Catalog.attributionOf
  cases column.qualifier with
  | some qualifier => rfl
  | none =>
    have has : ∀ t ∈ frames.aliases.tables, (c.tableHas frames t column.name == some true) =
        (c'.tableHas frames t column.name == some true) := fun t held => by
      rw [Catalog.tableHas_eq, Catalog.tableHas_eq, alike t (names_of_mem_tables held)]
    generalize frames.aliases.tables = tables at has
    match tables, has with
    | [], _ | [_], _ => rfl
    | _ :: _ :: _, has => exact congrArg Attribution.ofMatches (List.filter_congr has)

theorem mention :
    Resolver.mention ⟨c, d⟩ frames column = Resolver.mention ⟨c', d⟩ frames column := by
  have belongs : c.attributionOf frames column = c'.attributionOf frames column :=
    alike.attributionOf
  unfold Resolver.mention
  simp only [belongs]
  cases known : c'.attributionOf frames column with
  | table t =>
    have same := alike t (Catalog.names_of_attributionOf known)
    simp only [Catalog.spelling, same]
  | ambiguous tables => rfl
  | unknown reason => rfl

theorem mentionInCall {call : String} : Resolver.mentionInCall ⟨c, d⟩ frames call column =
    Resolver.mentionInCall ⟨c', d⟩ frames call column := by
  simp only [Resolver.mentionInCall, alike.mention, alike.attributionOf]

theorem mentionAll (named : frames.Names table) :
    Resolver.mentionAll ⟨c, d⟩ frames table = Resolver.mentionAll ⟨c', d⟩ frames table := by
  simp only [Resolver.mentionAll, Resolver.knownColumns, alike table named]

theorem output (o : Output) :
    Resolver.output ⟨c, d⟩ frames o = Resolver.output ⟨c', d⟩ frames o := by
  match o with
  | .named name => rfl
  | .wildcard none =>
    have all : frames.aliases.tables.map (Resolver.mentionAll ⟨c, d⟩ frames) =
        frames.aliases.tables.map (Resolver.mentionAll ⟨c', d⟩ frames) :=
      List.map_congr_left fun t held => alike.mentionAll (names_of_mem_tables held)
    simp only [Resolver.output, all]
  | .wildcard (some qualifier) =>
    simp only [Resolver.output]
    cases found : frames.aliases.find? qualifier with
    | none => exact alike.mention
    | some table => exact alike.mentionAll (names_of_lookup (lookup_of_own found))

theorem outputs (os : List Output) :
    Resolver.outputs ⟨c, d⟩ frames os = Resolver.outputs ⟨c', d⟩ frames os := by
  have all : os.map (Resolver.output ⟨c, d⟩ frames) = os.map (Resolver.output ⟨c', d⟩ frames) :=
    List.map_congr_left fun o _ => alike.output o
  simp only [Resolver.outputs, all]

end Frames.Alike

/-- What a scope takes from the database is taken by something nested in it, or is the name of a
table of its own that is no visible named query. -/
theorem Scope.mem_external (r : Resolver) (ctes : LocalTables) (outer : Frames) (depth : Nat)
    (s : Scope) {name : String} : name ∈ s.external (ctes.map TableSchema.name) ↔
      name ∈ Cte.externalOf (ctes.map TableSchema.name) s.ctes ∨
      (name ∈ s.tables.map TableRef.name ∧ (s.visible r ctes outer depth).find? name = none) ∨
      name ∈ Derived.externalOf ((s.visible r ctes outer depth).map TableSchema.name) s.derived ∨
      name ∈ Node.externalOf ((s.visible r ctes outer depth).map TableSchema.name) s.nodes := by
  have names : (s.visible r ctes outer depth).map TableSchema.name =
      (s.ctes.map Cte.aliasName).reverse ++ ctes.map TableSchema.name := Cte.readAll_names ..
  rw [LocalTables.find?_eq_none_iff_hasName, names]
  cases s
  simp [external]

/-- Whether a scope is read the same with two catalogs wherever they agree on what it takes from
the database. -/
def Scope.Independent (c c' : Catalog) (d : Nat) (s : Scope) : Prop :=
  ∀ ctes outer depth, Frames.Alike c c' outer →
    c.AgreeOn c' (s.external (ctes.map TableSchema.name)) →
    s.read ⟨c, d⟩ ctes outer depth = s.read ⟨c', d⟩ ctes outer depth

private theorem body_independent {body : Scope} (independent : body.Independent c c' d)
    (alike : outer.Alike c c') (agree : c.AgreeOn c' (body.external (ctes.map TableSchema.name)))
    (what : String) (subject : Option String) (depth : Nat) :
    Resolver.readBody ⟨c, d⟩ what subject ctes outer depth body =
      Resolver.readBody ⟨c', d⟩ what subject ctes outer depth body := by
  unfold Resolver.readBody
  split
  · exact independent ctes outer (depth + 1) alike agree
  · rfl

private theorem Cte.readAll_independent {declared : List Cte}
    (bodies : ∀ cte ∈ declared, cte.body.Independent c c' d) (alike : outer.Alike c c')
    (agree : c.AgreeOn c' (Cte.externalOf (ctes.map TableSchema.name) declared)) :
    Cte.readAll ⟨c, d⟩ ctes outer depth declared =
      Cte.readAll ⟨c', d⟩ ctes outer depth declared := by
  induction declared generalizing ctes with
  | nil => rfl
  | cons first rest ih =>
    obtain ⟨atHead, others⟩ := List.forall_mem_cons.mp bodies
    obtain ⟨here, later⟩ : c.AgreeOn c' (first.body.external (ctes.map TableSchema.name)) ∧
        c.AgreeOn c' (Cte.externalOf (first.aliasName :: ctes.map TableSchema.name) rest) := by
      cases first
      exact List.forall_mem_append.mp agree
    have inner := body_independent atHead alike here "CTE" (some first.aliasName) depth
    have following (body : Reading) :
        Cte.readAll ⟨c, d⟩ (first.schema body :: ctes) outer depth rest =
          Cte.readAll ⟨c', d⟩ (first.schema body :: ctes) outer depth rest := ih others later
    simp only [Cte.readAll_cons, inner, following]

private theorem Derived.readAll_independent {declared : List Derived}
    (bodies : ∀ source ∈ declared, source.body.Independent c c' d) (alike : outer.Alike c c')
    (agree : c.AgreeOn c' (Derived.externalOf (ctes.map TableSchema.name) declared)) :
    Derived.readAll ⟨c, d⟩ ctes outer depth declared =
      Derived.readAll ⟨c', d⟩ ctes outer depth declared := by
  rw [Derived.readAll_eq_map, Derived.readAll_eq_map]
  refine List.map_congr_left fun source member => ?_
  rw [body_independent (bodies source member) alike fun name held =>
    agree name (Derived.mem_externalOf member held)]

private theorem Place.readAll_independent {places : List Place}
    (bodies : ∀ body, .subquery body ∈ places → body.Independent c c' d)
    (alike : frames.Alike c c')
    (agree : ∀ body, .subquery body ∈ places →
      c.AgreeOn c' (body.external (ctes.map TableSchema.name))) :
    Place.readAll ⟨c, d⟩ frames ctes depth places =
      Place.readAll ⟨c', d⟩ frames ctes depth places := by
  induction places with
  | nil => rfl
  | cons p rest ih =>
    have atHead : p.read ⟨c, d⟩ frames ctes depth = p.read ⟨c', d⟩ frames ctes depth := by
      match p with
      | .column _ => exact alike.mention
      | .argument _ _ => exact alike.mentionInCall
      | .subquery body =>
        exact body_independent (bodies body List.mem_cons_self) alike
          (agree body List.mem_cons_self) "subquery" none depth
    have others := ih (fun body member => bodies body (List.mem_cons_of_mem _ member))
      fun body member => agree body (List.mem_cons_of_mem _ member)
    rw [readAll, readAll, atHead, others]

/-- Whatever a scope has a name for is a subquery of its own, a named query that it sees, or a
table that it takes from the database. -/
private theorem Scope.frame_alike {s : Scope} (alike : outer.Alike c c')
    (agree : ∀ t ∈ s.tables, (s.visible ⟨c, d⟩ ctes outer depth).find? t.name = none →
      c.find? t.name = c'.find? t.name) :
    Frames.Alike c c' (s.frame ⟨c, d⟩ ctes outer depth :: outer) := by
  rintro table ⟨frame, member, held⟩
  rcases List.mem_cons.mp member with rfl | member
  · obtain ⟨e, entry, rfl⟩ := List.mem_map.mp held
    rw [Scope.frame_aliases] at entry
    have declared := (AliasMap.mem_declarations_of_mem_entries entry).resolve_left
      (by simp [AliasMap.empty])
    rcases List.mem_append.mp declared with own | source
    · obtain ⟨t, present, rfl⟩ := List.mem_map.mp own
      have same : sameName (c.canonical (s.visible ⟨c, d⟩ ctes outer depth) t.name) t.name = true :=
        Catalog.sameName_canonical
      cases visible : (s.visible ⟨c, d⟩ ctes outer depth).find? t.name with
      | some declared =>
        -- The frame that has the name sees the named query too, whatever the catalogs declare.
        rw [← LocalTables.find?_congr same] at visible
        simp [Catalog.columnsOf?_cons, frame, visible]
      | none =>
        have found := agree t present visible
        rw [← Catalog.find?_congr same, ← Catalog.find?_congr same] at found
        simp only [Catalog.columnsOf?, found]
    · obtain ⟨name, named, rfl⟩ := List.mem_map.mp source
      have known : (s.frame ⟨c, d⟩ ctes outer depth).derived.find? name ≠ none := by
        rw [ne_eq, LocalTables.find?_eq_none_iff_hasName, s.frame_derived, Bool.not_eq_false]
        exact List.any_eq_true.mpr ⟨name, List.mem_reverse.mpr named, sameName_refl name⟩
      obtain ⟨declared, known⟩ := Option.ne_none_iff_exists'.mp known
      rw [Catalog.columnsOf?_cons, Catalog.columnsOf?_cons, known]
      rfl
  · rw [Catalog.columnsOf?_cons, Catalog.columnsOf?_cons, alike table ⟨frame, member, held⟩]

/-- **A scope is read the same with catalogs that agree on what it takes from the database.** -/
theorem Scope.independent (c c' : Catalog) (d : Nat) (s : Scope) : s.Independent c c' d := by
  induction s using Scope.tree_induction with
  | step s named sources inside =>
    intro ctes outer depth alike agree
    have outside (name : String) := fun held =>
      agree name ((s.mem_external ⟨c, d⟩ ctes outer depth).mpr held)
    have declared : Cte.readAll ⟨c, d⟩ ctes outer depth s.ctes =
        Cte.readAll ⟨c', d⟩ ctes outer depth s.ctes :=
      Cte.readAll_independent named alike fun name held => outside name (.inl held)
    have tables : ∀ t ∈ s.tables, (s.visible ⟨c, d⟩ ctes outer depth).find? t.name = none →
        c.find? t.name = c'.find? t.name := fun t present free =>
      outside t.name (.inr (.inl ⟨List.mem_map_of_mem present, free⟩))
    have derived :
        Derived.readAll ⟨c, d⟩ (s.visible ⟨c, d⟩ ctes outer depth) outer depth s.derived =
          Derived.readAll ⟨c', d⟩ (s.visible ⟨c, d⟩ ctes outer depth) outer depth s.derived :=
      Derived.readAll_independent sources alike fun name held =>
        outside name (.inr (.inr (.inl held)))
    have bodies : ∀ body, .subquery body ∈ Node.placesOf s.nodes → c.AgreeOn c'
        (body.external ((s.visible ⟨c, d⟩ ctes outer depth).map TableSchema.name)) :=
      fun body place name held =>
        outside name (.inr (.inr (.inr (Node.mem_externalOf held _ place))))
    have visible : s.visible ⟨c, d⟩ ctes outer depth = s.visible ⟨c', d⟩ ctes outer depth :=
      congrArg Prod.fst declared
    have own : AliasMap.ofTables (c.canonical (s.visible ⟨c, d⟩ ctes outer depth)) s.tables =
        AliasMap.ofTables (c'.canonical (s.visible ⟨c, d⟩ ctes outer depth)) s.tables :=
      AliasMap.ofTables_congr fun t present => Catalog.canonical_agree (tables t present)
    have read : s.sources ⟨c, d⟩ ctes outer depth = s.sources ⟨c', d⟩ ctes outer depth := by
      simp only [Scope.sources, ← visible, own, derived, declared]
    have frame : s.frame ⟨c, d⟩ ctes outer depth = s.frame ⟨c', d⟩ ctes outer depth := by
      rw [Scope.frame, Scope.frame, read, visible]
    have inner := Scope.frame_alike alike tables
    rw [Scope.read_eq_finish, Scope.read_eq_finish, Place.readAll_independent inside inner bodies,
      inner.outputs, read, frame, visible]

end

end TableAccess
