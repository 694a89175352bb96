import TableAccess.Proofs.Access.AlikeSources

/-! What is read in two scopes that are alike. Scopes are alike part by part, and only at the
bodies scope by scope: if the bodies are read alike wherever what surrounds them is alike, then so
are the scopes. A scope adds its own sources to what surrounds the subqueries in its expressions.
These see alike sources as long as both scopes know alike columns under each name that a table may
have there, whichever way they know them. -/
namespace TableAccess

/-- Whether two places are alike, with subqueries that a relation holds of. -/
inductive Place.Resembles (l : Likeness) (P : Scope → Scope → Prop) : Place → Place → Prop
  | column {c c' : ColumnRef} (same : l.column l.rename c = l.column id c') :
    Resembles l P (.column c) (.column c')
  | argument {call call' : String} {c c' : ColumnRef} (texts : l.form call = l.form call')
    (same : l.column l.rename c = l.column id c') :
    Resembles l P (.argument call c) (.argument call' c')
  | subquery {body body' : Scope} (inside : P body body') :
    Resembles l P (.subquery body) (.subquery body')

/-- Whether two scopes are alike, with bodies that a relation holds of. -/
structure Scope.Resembles (l : Likeness) (P : Scope → Scope → Prop) (s s' : Scope) : Prop where
  ctes : List.Forall₂ (Cte.Resembles l P) s.ctes s'.ctes
  tables : l.Declares (s.tables.map (l.source l.rename)) (s'.tables.map (l.source id))
  allowed : ∀ t ∈ s.tables, l.allows t.name = true
  derived : List.Forall₂ (Derived.Resembles l P) s.derived s'.derived
  /-- The places are alike one after the other, or in any order if that of notes does not count. -/
  places : ∃ placed, List.Forall₂ (Place.Resembles l P) (Node.placesOf s.nodes) placed ∧
    arranged l.sequenced placed = arranged l.sequenced (Node.placesOf s'.nodes)
  outputs : s.outputs.map (l.output l.rename) = s'.outputs.map (l.output id)

/-- What names mean in a scope with some sources, where named queries are visible. -/
def Sources.frame (sources : Sources) (ctes : LocalTables) : Frame :=
  ⟨sources.aliases, sources.derived, ctes⟩

section
variable {l : Likeness} {c c' : Catalog} {d depth : Nat} {ctes ctes' : LocalTables}
  {outer outer' : Frames} {a b : Sources} {beside : List String}

theorem Catalog.columnsOf?_frame (c : Catalog) (sources : Sources) (table : String) :
    c.columnsOf? (sources.frame ctes :: outer) table =
      ((sources.derived.find? table).map TableSchema.columns).or
        (c.columnsWithin? ctes outer table) := by
  rw [columnsOf?_cons, Option.map_or, Option.or_assoc]
  rfl

/-- Whether two scopes with some sources know alike columns of a table, in their expressions and
in the subqueries there. -/
def Sources.KnowAlike (l : Likeness) (c c' : Catalog) (ctes ctes' : LocalTables)
    (outer outer' : Frames) (a b : Sources) (table : String) : Prop :=
  (c.columnsOf? (a.frame ctes :: outer) table).map l.columns =
      (c'.columnsOf? (b.frame ctes' :: outer') table).map l.columns ∧
    (c.columnsWithin? ctes (a.frame ctes :: outer) table).map l.columns =
      (c'.columnsWithin? ctes' (b.frame ctes' :: outer') table).map l.columns

namespace Surroundings.Alike
variable (around : Surroundings.Alike l c c' ctes ctes' outer outer')
include around

/-- Under the names that tables may have, alike sources are known alike. -/
theorem knowAlike_of_allowed {table : String} (derived : a.derived.Alike l b.derived)
    (allowed : l.allows table = true) :
    Sources.KnowAlike l c c' ctes ctes' outer outer' a b table := by
  have inside : (c.columnsOf? (a.frame ctes :: outer) table).map l.columns =
      (c'.columnsOf? (b.frame ctes' :: outer') table).map l.columns := by
    rw [Catalog.columnsOf?_frame, Catalog.columnsOf?_frame, Option.map_or, Option.map_or,
      around.known table (.inl allowed), Likeness.map_columns_of_schema (derived table allowed)]
  refine ⟨inside, ?_⟩
  rw [Catalog.columnsWithin?, Catalog.columnsWithin?, Option.map_or, Option.map_or, inside,
    Likeness.map_columns_of_schema (around.named table allowed)]

/-- Under other names nothing changes where no subquery among the sources has them. -/
theorem knowAlike_of_outer {table : String} (outside : outer.Names table)
    (absent : a.derived.find? table = none) (absent' : b.derived.find? table = none) :
    Sources.KnowAlike l c c' ctes ctes' outer outer' a b table := by
  have passed (c : Catalog) (ctes : LocalTables) (outer : Frames) {sources : Sources}
      (absent : sources.derived.find? table = none) :
      c.columnsOf? (sources.frame ctes :: outer) table = c.columnsWithin? ctes outer table := by
    rw [Catalog.columnsOf?_frame, absent]
    rfl
  have within (c : Catalog) (ctes : LocalTables) (outer : Frames) {sources : Sources}
      (absent : sources.derived.find? table = none) :
      c.columnsWithin? ctes (sources.frame ctes :: outer) table =
        c.columnsWithin? ctes outer table := by
    rw [Catalog.columnsWithin?, passed c ctes outer absent, Catalog.columnsWithin?,
      ← Option.or_assoc, Option.or_self]
  have known := around.known table (.inr outside)
  rw [Sources.KnowAlike, passed c ctes outer absent, passed c' ctes' outer' absent',
    within c ctes outer absent, within c' ctes' outer' absent']
  exact ⟨known, known⟩

/-- Alike sources are added to alike surroundings. -/
theorem inside (sources : a.Alike l beside b)
    (known : ∀ table, Frames.Names (a.frame ctes :: outer) table → l.allows table = false →
      Sources.KnowAlike l c c' ctes ctes' outer outer' a b table)
    (own : l.closed = true → ∀ table ∈ a.aliases.entries.map AliasEntry.table,
      l.allows table = true) :
    Frames.Resemble l c c' (a.frame ctes :: outer) (b.frame ctes' :: outer') ∧
      Surroundings.Alike l c c' ctes ctes' (a.frame ctes :: outer) (b.frame ctes' :: outer') := by
  have all (table : String) (held : l.allows table = true ∨ Frames.Names (a.frame ctes :: outer) table) :
      Sources.KnowAlike l c c' ctes ctes' outer outer' a b table := by
    cases allowed : l.allows table with
    | true => exact around.knowAlike_of_allowed sources.derived allowed
    | false => exact known table (held.resolve_left (by simp [allowed])) allowed
  have lookup (q q' : String) (same : fold (l.rename q) = fold q') :
      (Frames.lookup (a.frame ctes :: outer) q).map l.form =
        (Frames.lookup (b.frame ctes' :: outer') q').map l.form := by
    simp only [Frames.lookup, Option.orElse_eq_or, Option.map_or]
    exact congrArg₂ Option.or (sources.aliases.find? same) (around.lookup q q' same)
  refine ⟨⟨sources.aliases, lookup, fun table held => (all table (.inr held)).1⟩,
    ⟨around.named, lookup, fun table held => (all table held).2, ?_, around.unseen⟩⟩
  rintro closed table ⟨frame, member, held⟩
  rcases List.mem_cons.mp member with rfl | member
  · exact own closed table held
  · exact around.outside closed table ⟨frame, member, held⟩

end Surroundings.Alike

private theorem Place.read_alike {frames frames' : Frames} {p p' : Place}
    (inside : Frames.Resemble l c c' frames frames')
    (around : Surroundings.Alike l c c' ctes ctes' frames frames')
    (same : p.Resembles l (Scope.ReadsAlike l c c' d) p') :
    (p.read ⟨c, d⟩ frames ctes depth).Alike l (p'.read ⟨c', d⟩ frames' ctes' depth) := by
  cases same with
  | column same => exact inside.mention same
  | argument texts same => exact inside.mentionInCall texts same
  | subquery reads => exact around.readBody depth "subquery" "subquery" none none reads

/-- What is read at several places does not depend on their order, the notes apart. -/
private theorem Place.readAll_arranged {r : Resolver} {frames : Frames} {places places' : List Place}
    (same : arranged l.sequenced places = arranged l.sequenced places') :
    (Place.readAll r frames ctes depth places).Alike l
      (Place.readAll r frames ctes depth places') := by
  have parts (places : List Place) : Place.readAll r frames ctes depth places =
      ⟨places.flatMap fun p => (p.read r frames ctes depth).tables,
        places.flatMap fun p => (p.read r frames ctes depth).columns,
        places.flatMap fun p => (p.read r frames ctes depth).notes, []⟩ := by
    induction places with
    | nil => rfl
    | cons p rest ih =>
      rw [Place.readAll, ih]
      rfl
  rw [parts, parts]
  refine ⟨fun table => ?_, fun pair => ?_, arranged_map _ (arranged_flatMap same fun _ _ => rfl), rfl⟩
  · exact (((perm_of_arranged same).flatMap_right _).map _).mem_iff
  · exact (((perm_of_arranged same).flatMap_right _).map _).mem_iff

private theorem Place.readAll_alike {frames frames' : Frames} {places places' : List Place}
    (inside : Frames.Resemble l c c' frames frames')
    (around : Surroundings.Alike l c c' ctes ctes' frames frames')
    (same : ∃ placed, List.Forall₂ (Place.Resembles l (Scope.ReadsAlike l c c' d)) places placed ∧
      arranged l.sequenced placed = arranged l.sequenced places') :
    (Place.readAll ⟨c, d⟩ frames ctes depth places).Alike l
      (Place.readAll ⟨c', d⟩ frames' ctes' depth places') := by
  obtain ⟨placed, each, same⟩ := same
  refine Reading.Alike.trans ?_ (Place.readAll_arranged same)
  clear same
  induction each with
  | nil => exact .refl l _
  | cons first _ ih => exact (Place.read_alike inside around first).append ih

/-- From alike sources a scope reads alike places and alike outputs alike. -/
theorem Sources.Alike.read {places places' : List Place} {outputs outputs' : List Output}
    (alike : a.Alike l beside b) (around : Surroundings.Alike l c c' ctes ctes' outer outer')
    (held : ∀ table ∈ beside, table ∈ a.aliases.entries.map AliasEntry.table)
    (held' : ∀ table ∈ beside, table ∈ b.aliases.entries.map AliasEntry.table)
    (known : ∀ table, Frames.Names (a.frame ctes :: outer) table → l.allows table = false →
      Sources.KnowAlike l c c' ctes ctes' outer outer' a b table)
    (own : l.closed = true → ∀ table ∈ a.aliases.entries.map AliasEntry.table,
      l.allows table = true)
    (mentioned : ∃ placed,
      List.Forall₂ (Place.Resembles l (Scope.ReadsAlike l c c' d)) places placed ∧
        arranged l.sequenced placed = arranged l.sequenced places')
    (given : outputs.map (l.output l.rename) = outputs'.map (l.output id)) :
    (a.finish (Place.readAll ⟨c, d⟩ (a.frame ctes :: outer) ctes depth places)
        (Resolver.outputs ⟨c, d⟩ (a.frame ctes :: outer) outputs)).Alike l
      (b.finish (Place.readAll ⟨c', d⟩ (b.frame ctes' :: outer') ctes' depth places')
        (Resolver.outputs ⟨c', d⟩ (b.frame ctes' :: outer') outputs')) := by
  obtain ⟨inside, within⟩ := around.inside alike known own
  exact alike.finish held held' (Place.readAll_alike inside within mentioned) (inside.outputs given)

private theorem Derived.allowed_names {P : Scope → Scope → Prop} {declared declared' : List Derived}
    (same : List.Forall₂ (Derived.Resembles l P) declared declared') :
    (∀ name ∈ declared.filterMap Derived.aliasName, l.allows name = true) ∧
      ∀ name ∈ declared'.filterMap Derived.aliasName, l.allows name = true := by
  induction same with
  | nil => exact ⟨List.forall_mem_nil _, List.forall_mem_nil _⟩
  | @cons d d' rest rest' alike _ ih =>
    have named := alike.name
    cases first : d.aliasName with
    | none =>
      have second : d'.aliasName = none := by simpa [first] using named.symm
      rw [List.filterMap_cons_none first, List.filterMap_cons_none second]
      exact ih
    | some name =>
      rw [first, Option.map_some] at named
      obtain ⟨name', second, called⟩ := Option.map_eq_some_iff.mp named.symm
      have allowed := alike.allowed name first
      have same : sameName name' name = true := l.sameName_of_form (congrArg Prod.snd called)
      rw [List.filterMap_cons_some first, List.filterMap_cons_some second]
      exact ⟨List.forall_mem_cons.mpr ⟨allowed, ih.1⟩,
        List.forall_mem_cons.mpr ⟨(l.allows_congr _ _ same).trans allowed, ih.2⟩⟩

end

namespace Scope
variable {l : Likeness} {c c' : Catalog} {d depth : Nat} {r : Resolver} {ctes : LocalTables}
  {outer : Frames} {s s' : Scope}

/-- The tables that a scope has names for have allowed names if its own sources do. -/
theorem allows_of_named (tables : ∀ t ∈ s.tables, l.allows t.name = true)
    (derived : ∀ name ∈ s.derived.filterMap Derived.aliasName, l.allows name = true) :
    ∀ table ∈ (s.sources r ctes outer depth).aliases.entries.map AliasEntry.table,
      l.allows table = true := by
  intro table held
  obtain ⟨e, entry, rfl⟩ := List.mem_map.mp held
  have declared : e ∈ (s.frame r ctes outer depth).aliases.entries := entry
  rw [s.frame_aliases] at declared
  have declared := (AliasMap.mem_declarations_of_mem_entries declared).resolve_left
    (by simp [AliasMap.empty])
  rcases List.mem_append.mp declared with own | source
  · obtain ⟨t, present, rfl⟩ := List.mem_map.mp own
    rw [l.allows_congr _ _ Catalog.sameName_canonical]
    exact tables t present
  · obtain ⟨name, named, rfl⟩ := List.mem_map.mp source
    exact derived name named

/-- No subquery among the sources is found under a name that is not allowed. -/
theorem find?_derived_of_other {name : String}
    (derived : ∀ name ∈ s.derived.filterMap Derived.aliasName, l.allows name = true)
    (other : l.allows name = false) : (s.sources r ctes outer depth).derived.find? name = none := by
  have names : (s.sources r ctes outer depth).derived.map TableSchema.name =
      (s.derived.filterMap Derived.aliasName).reverse := s.frame_derived outer
  rw [LocalTables.find?_eq_none_iff_hasName, names, hasName, List.any_eq_false]
  intro called member same
  have allowed := derived called (List.mem_reverse.mp member)
  rw [← l.allows_congr _ _ same, other] at allowed
  cases allowed

/-- **Scopes are read alike if their bodies are.** -/
theorem Resembles.readsAlike (catalogs : c.Alike l c')
    (same : s.Resembles l (Scope.ReadsAlike l c c' d) s') : Scope.ReadsAlike l c c' d s s' := by
  intro ctes ctes' outer outer' depth around
  obtain ⟨visible, named⟩ := Cte.readAll_alike depth around same.ctes
  obtain ⟨aliases, notes⟩ :=
    AliasMap.alike_declareAll (visible.declares catalogs same.allowed same.tables)
  have start : Sources.Alike l []
      ⟨_, [], (Cte.readAll ⟨c, d⟩ ctes outer depth s.ctes).2 ++ .ofNotes _, none⟩
      ⟨_, [], (Cte.readAll ⟨c', d⟩ ctes' outer' depth s'.ctes).2 ++ .ofNotes _, none⟩ :=
    ⟨aliases, fun _ _ => rfl, (named.append (.ofNotes notes)).append (.refl l _), rfl⟩
  have sources : Sources.Alike l [] (s.sources ⟨c, d⟩ ctes outer depth)
      (s'.sources ⟨c', d⟩ ctes' outer' depth) := by
    simp only [Scope.sources, AliasMap.ofTables, AliasMap.addTables_eq_declareAll]
    exact start.addAll (Derived.readAll_alike depth visible same.derived)
  obtain ⟨derived, derived'⟩ := Derived.allowed_names same.derived
  rw [read_eq_finish, read_eq_finish]
  refine sources.read visible (by simp) (by simp) (fun table names other => ?_)
    (fun _ => allows_of_named same.allowed derived) same.places same.outputs
  refine visible.knowAlike_of_outer ?_ (find?_derived_of_other derived other)
    (find?_derived_of_other derived' other)
  obtain ⟨frame, member, held⟩ := names
  rcases List.mem_cons.mp member with rfl | member
  · have allowed := allows_of_named same.allowed derived table held
    rw [other] at allowed
    cases allowed
  · exact ⟨frame, member, held⟩

end Scope
end TableAccess
