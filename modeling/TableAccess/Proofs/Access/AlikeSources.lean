import TableAccess.Proofs.Access.AlikeReadings
import TableAccess.Proofs.Binding.External

/-! What the sources of two scopes are when these are alike. What surrounds a scope is compared by
what can be asked of it: which named queries are visible, what a qualifier means in the scopes
around, and which columns a table has that is found by its name. In alike surroundings alike named
queries become visible as alike tables, and alike subqueries are read as alike sources, as long as
their bodies are read alike in all alike surroundings. -/
namespace TableAccess

/-- Whether two catalogs declare alike tables. -/
def Catalog.Alike (l : Likeness) (c c' : Catalog) : Prop :=
  ∀ table, (c.find? table).map l.schema = (c'.find? table).map l.schema

/-- Whether local tables are alike under the names that tables of the scopes may have. -/
def LocalTables.Alike (l : Likeness) (tables tables' : LocalTables) : Prop :=
  ∀ name, l.allows name = true → (tables.find? name).map l.schema = (tables'.find? name).map l.schema

/-- The columns of a table where named queries are visible within scopes. -/
def Catalog.columnsWithin? (c : Catalog) (ctes : LocalTables) (outer : Frames) (table : String) :
    Option (List String) :=
  ((ctes.find? table).map TableSchema.columns).or (c.columnsOf? outer table)

/-- Whether what surrounds two scopes is alike. -/
structure Surroundings.Alike (l : Likeness) (c c' : Catalog) (ctes ctes' : LocalTables)
    (outer outer' : Frames) : Prop where
  named : ctes.Alike l ctes'
  lookup : ∀ q q', fold (l.rename q) = fold q' →
    (outer.lookup q).map l.form = (outer'.lookup q').map l.form
  known : ∀ table, l.allows table = true ∨ outer.Names table →
    (c.columnsWithin? ctes outer table).map l.columns =
      (c'.columnsWithin? ctes' outer' table).map l.columns
  /-- Where no other name means a table, the scopes around have no other name for one. -/
  outside : l.closed = true → ∀ table, outer.Names table → l.allows table = true
  /-- Where no other name means a table, no named query has another name. -/
  unseen : l.closed = true → ∀ name, l.allows name = false → ctes'.find? name = none

/-- Whether two scopes are read alike wherever what surrounds them is alike. -/
def Scope.ReadsAlike (l : Likeness) (c c' : Catalog) (d : Nat) (s s' : Scope) : Prop :=
  ∀ ctes ctes' outer outer' depth, Surroundings.Alike l c c' ctes ctes' outer outer' →
    (s.read ⟨c, d⟩ ctes outer depth).Alike l (s'.read ⟨c', d⟩ ctes' outer' depth)

namespace Likeness
variable (l : Likeness)

/-- A table among the sources as it is compared: what its columns are qualified with, and its
name. -/
def source (key : String → String) (t : TableRef) : String × String :=
  (fold (key t.key), l.form t.name)

/-- The name of a subquery among the sources as it is compared. -/
def called (key : String → String) (name : String) : String × String :=
  (fold (key name), l.form name)

end Likeness

/-- Whether two named queries are alike, with bodies that a relation holds of. -/
structure Cte.Resembles (l : Likeness) (P : Scope → Scope → Prop) (c c' : Cte) : Prop where
  name : l.form c.aliasName = l.form c'.aliasName
  columns : c.columns.map l.form = c'.columns.map l.form
  body : P c.body c'.body
  allowed : l.allows c.aliasName = true

/-- Whether two subqueries among the sources are alike, with bodies that a relation holds of. -/
structure Derived.Resembles (l : Likeness) (P : Scope → Scope → Prop) (d d' : Derived) : Prop where
  name : d.aliasName.map (l.called l.rename) = d'.aliasName.map (l.called id)
  columns : d.columns.map l.form = d'.columns.map l.form
  body : P d.body d'.body
  allowed : ∀ name, d.aliasName = some name → l.allows name = true

/-- Whether two subqueries among the sources are alike once they are read. -/
structure Source.Alike (l : Likeness) (a b : Source) : Prop where
  name : a.aliasName.map (l.called l.rename) = b.aliasName.map (l.called id)
  columns : l.columns a.columns = l.columns b.columns
  reading : a.reading.Alike l b.reading

/-- Whether the sources of two scopes are alike, but for some tables that only one of them may
have read already. -/
structure Sources.Alike (l : Likeness) (beside : List String) (a b : Sources) : Prop where
  aliases : a.aliases.Alike l b.aliases
  derived : a.derived.Alike l b.derived
  reading : (a.reading ++ .ofTables beside).Alike l (b.reading ++ .ofTables beside)
  branch : a.branch.map l.columns = b.branch.map l.columns

section
variable {l : Likeness} {c c' : Catalog} {d depth : Nat} {ctes ctes' : LocalTables}
  {outer outer' : Frames} {P : Scope → Scope → Prop}

theorem LocalTables.find?_cons (t : TableSchema) (tables : LocalTables) (name : String) :
    LocalTables.find? (t :: tables) name =
      if sameName t.name name then some t else tables.find? name := by
  unfold LocalTables.find?
  rw [List.find?_cons]
  cases sameName t.name name <;> rfl

theorem LocalTables.Alike.cons {t t' : TableSchema} (alike : ctes.Alike l ctes')
    (same : l.schema t = l.schema t') : LocalTables.Alike l (t :: ctes) (t' :: ctes') := by
  intro name allowed
  have names := sameName_congr (l.sameName_of_form (congrArg Prod.fst same)) name
  rw [LocalTables.find?_cons, LocalTables.find?_cons, names]
  split
  · exact congrArg some same
  · exact alike name allowed

theorem Likeness.Declares.map {pairs others : List (String × String)}
    {f f' : String × String → String × String} (same : l.Declares pairs others)
    (keeps : ∀ pair, (f pair).1 = pair.1) (agree : ∀ pair ∈ pairs, f pair = f' pair) :
    l.Declares (pairs.map f) (others.map f') := by
  rcases same with rfl | ⟨unordered, distinct, same⟩
  · exact .inl (List.map_congr_left agree)
  · refine .inr ⟨unordered, List.pairwise_map.mpr (distinct.imp fun different => ?_), ?_⟩
    · rwa [keeps, keeps]
    · rw [List.map_congr_left agree]
      exact same.map f'

/-- The form of the name under which a table is known. -/
private def knownForm (l : Likeness) (c : Catalog) (ctes : LocalTables) (pair : String × String) :
    String × String :=
  (pair.1, (((ctes.find? pair.2).or (c.find? pair.2)).map l.schema).elim pair.2 Prod.fst)

private theorem entry_eq_knownForm (c : Catalog) (ctes : LocalTables) (key : String → String)
    (t : TableRef) :
    l.entry key ⟨t.key, c.canonical ctes t.name⟩ = knownForm l c ctes (l.source key t) := by
  have same := l.form_sameName t.name
  simp only [knownForm, Likeness.source, LocalTables.find?_congr same, Catalog.find?_congr same,
    Likeness.entry, Catalog.canonical, Option.orElse_eq_or]
  cases (ctes.find? t.name).or (c.find? t.name) <;> rfl

namespace Surroundings.Alike

/-- Nothing surrounds the scope of a statement. -/
theorem top (catalogs : c.Alike l c') : Surroundings.Alike l c c' [] [] [] [] where
  named _ _ := rfl
  lookup _ _ _ := rfl
  known table _ := Likeness.map_columns_of_schema (catalogs table)
  outside := by
    rintro _ table ⟨frame, member, _⟩
    cases member
  unseen _ _ _ := rfl

section
variable (around : Surroundings.Alike l c c' ctes ctes' outer outer')
include around

/-- Alike tables are known by alike names. -/
theorem declares {tables tables' : List TableRef} (catalogs : c.Alike l c')
    (allowed : ∀ t ∈ tables, l.allows t.name = true)
    (same : l.Declares (tables.map (l.source l.rename)) (tables'.map (l.source id))) :
    l.Declares
      ((tables.map fun t => (⟨t.key, c.canonical ctes t.name⟩ : AliasEntry)).map (l.entry l.rename))
      ((tables'.map fun t => (⟨t.key, c'.canonical ctes' t.name⟩ : AliasEntry)).map (l.entry id)) := by
  have known : l.Declares ((tables.map (l.source l.rename)).map (knownForm l c ctes))
      ((tables'.map (l.source id)).map (knownForm l c' ctes')) := by
    refine same.map (fun _ => rfl) fun pair member => ?_
    obtain ⟨t, present, rfl⟩ := List.mem_map.mp member
    have same := l.form_sameName t.name
    have visible := around.named (l.form t.name) (l.allows_congr _ _ same ▸ allowed t present)
    simp only [knownForm, Likeness.source, Option.map_or, visible, catalogs (l.form t.name)]
  simpa only [List.map_map, Function.comp_def, entry_eq_knownForm] using known

/-- Surroundings stay alike when alike named queries become visible. -/
theorem bind {t t' : TableSchema} (same : l.schema t = l.schema t') (allowed : l.allows t.name = true) :
    Surroundings.Alike l c c' (t :: ctes) (t' :: ctes') outer outer' where
  named := around.named.cons same
  lookup := around.lookup
  known table held := by
    have names := sameName_congr (l.sameName_of_form (congrArg Prod.fst same)) table
    unfold Catalog.columnsWithin?
    rw [LocalTables.find?_cons, LocalTables.find?_cons, names]
    split
    · exact congrArg some (congrArg Prod.snd same)
    · exact around.known table held
  outside := around.outside
  unseen closed name other := by
    have different : sameName t'.name name = false := by
      rw [← sameName_congr (l.sameName_of_form (congrArg Prod.fst same)), ← Bool.not_eq_true]
      intro alike
      rw [← l.allows_congr _ _ alike, allowed] at other
      cases other
    rw [LocalTables.find?_cons, different]
    exact around.unseen closed name other

theorem readBody (depth : Nat) (what what' : String) (subject subject' : Option String)
    {body body' : Scope} (reads : Scope.ReadsAlike l c c' d body body') :
    (Resolver.readBody ⟨c, d⟩ what subject ctes outer depth body).Alike l
      (Resolver.readBody ⟨c', d⟩ what' subject' ctes' outer' depth body') := by
  unfold Resolver.readBody
  split
  · exact reads _ _ _ _ _ around
  · exact .ofNotes rfl

end

end Surroundings.Alike

theorem columns_declaredOr {columns columns' given given' : List String}
    (declared : columns.map l.form = columns'.map l.form) (alike : l.columns given = l.columns given') :
    l.columns (declaredOr columns given) = l.columns (declaredOr columns' given') := by
  have same : columns.isEmpty = columns'.isEmpty := by
    simpa using congrArg List.isEmpty declared
  unfold declaredOr
  rw [same]
  split
  · exact alike
  · exact congrArg (arranged l.ordered) declared

/-- Alike named queries are read alike, and are visible as alike tables. -/
theorem Cte.readAll_alike (depth : Nat) {declared declared' : List Cte}
    (around : Surroundings.Alike l c c' ctes ctes' outer outer')
    (same : List.Forall₂ (Cte.Resembles l (Scope.ReadsAlike l c c' d)) declared declared') :
    Surroundings.Alike l c c' (Cte.readAll ⟨c, d⟩ ctes outer depth declared).1
        (Cte.readAll ⟨c', d⟩ ctes' outer' depth declared').1 outer outer' ∧
      (Cte.readAll ⟨c, d⟩ ctes outer depth declared).2.Alike l
        (Cte.readAll ⟨c', d⟩ ctes' outer' depth declared').2 := by
  -- Each named query adds to what surrounds those after it.
  induction same generalizing ctes ctes' with
  | nil => exact ⟨around, .refl l _⟩
  | @cons first first' rest rest' alike _ ih =>
    have body := around.readBody depth "CTE" "CTE" (some first.aliasName) (some first'.aliasName)
      alike.body
    have schema : l.schema (first.schema _) = l.schema (first'.schema _) :=
      Prod.ext alike.name (columns_declaredOr alike.columns body.outputs)
    obtain ⟨visible, later⟩ := ih (around.bind schema alike.allowed)
    rw [Cte.readAll_cons, Cte.readAll_cons]
    refine ⟨visible, (body.append (.ofTables ?_)).append later⟩
    simp [alike.name]

/-- Alike subqueries are read as alike sources. -/
theorem Derived.readAll_alike (depth : Nat) {declared declared' : List Derived}
    (around : Surroundings.Alike l c c' ctes ctes' outer outer')
    (same : List.Forall₂ (Derived.Resembles l (Scope.ReadsAlike l c c' d)) declared declared') :
    List.Forall₂ (Source.Alike l) (Derived.readAll ⟨c, d⟩ ctes outer depth declared)
      (Derived.readAll ⟨c', d⟩ ctes' outer' depth declared') := by
  rw [Derived.readAll_eq_map, Derived.readAll_eq_map, List.forall₂_map_left_iff,
    List.forall₂_map_right_iff]
  refine same.imp fun source source' alike => ?_
  have body := around.readBody depth "derived table" "derived table" source.aliasName
    source'.aliasName alike.body
  refine ⟨alike.name, ?_, body⟩
  have named := alike.name
  cases first : source.aliasName <;> cases second : source'.aliasName <;>
    simp only [first, second, Option.map_none, Option.map_some, reduceCtorEq] at named
  · simpa only [Derived.source, first, second] using body.outputs
  · simpa only [Derived.source, first, second] using columns_declaredOr alike.columns body.outputs

/-- What is read next to some tables is alike if what is added is. -/
private theorem Reading.Alike.append_beside {a a' b b' : Reading} {beside : List String}
    (alike : (a ++ .ofTables beside).Alike l (a' ++ .ofTables beside)) (added : b.Alike l b') :
    (a ++ b ++ .ofTables beside).Alike l (a' ++ b' ++ .ofTables beside) := by
  have both := alike.append added
  refine ⟨fun table => ?_, fun pair => ?_, ?_, rfl⟩
  · have tables := both.tables table
    simp only [Reading.tables_append, List.map_append, List.mem_append, or_assoc] at tables ⊢
    simpa only [or_comm, or_left_comm] using tables
  · simpa [Reading.ofTables, Reading.empty] using both.columns pair
  · simpa [Reading.ofTables, Reading.empty] using both.notes

/-- Tables that are read in both make no difference. -/
private theorem Reading.Alike.of_beside {a b : Reading} {beside : List String}
    (alike : (a ++ .ofTables beside).Alike l (b ++ .ofTables beside)) (given : a.outputs = b.outputs)
    (held : ∀ table ∈ beside, table ∈ a.tables) (held' : ∀ table ∈ beside, table ∈ b.tables) :
    a.Alike l b := by
  have absorb {a : Reading} (held : ∀ table ∈ beside, table ∈ a.tables) (table : String) :
      table ∈ (a ++ .ofTables beside).tables.map l.form ↔ table ∈ a.tables.map l.form := by
    rw [Reading.tables_append, List.map_append, List.mem_append]
    refine or_iff_left_of_imp fun listed => ?_
    obtain ⟨t, present, rfl⟩ := List.mem_map.mp listed
    exact List.mem_map_of_mem (held t present)
  refine ⟨fun table => ?_, fun pair => ?_, ?_, congrArg l.columns given⟩
  · rw [← absorb held, ← absorb held']
    exact alike.tables table
  · simpa [Reading.ofTables, Reading.empty] using alike.columns pair
  · simpa [Reading.ofTables, Reading.empty] using alike.notes

namespace Sources.Alike
variable {beside : List String} {a b : Sources}

theorem add {source source' : Source} (alike : a.Alike l beside b) (same : source.Alike l source') :
    (a.add source).Alike l beside (b.add source') := by
  have named := same.name
  cases first : source.aliasName with
  | none =>
    have second : source'.aliasName = none := by simpa [first] using named.symm
    simp only [Sources.add, first, second]
    refine ⟨alike.aliases, alike.derived, alike.reading.append_beside same.reading, ?_⟩
    have branch := alike.branch
    rw [Option.orElse_eq_or, Option.orElse_eq_or, Option.map_or, Option.map_or, branch]
    exact congrArg _ (congrArg some same.columns)
  | some name =>
    obtain ⟨name', second, called⟩ := Option.map_eq_some_iff.mp (named.symm.trans (by rw [first]; rfl))
    obtain ⟨key, form⟩ := Prod.ext_iff.mp called.symm
    simp only [Sources.add, first, second]
    refine ⟨alike.aliases.insert key form, alike.derived.cons (Prod.ext form same.columns), ?_,
      alike.branch⟩
    exact (alike.reading.append_beside same.reading).append_beside
      (.ofNotes (alike.aliases.findings_insertNoting key))

theorem addAll {all all' : List Source} (alike : a.Alike l beside b)
    (each : List.Forall₂ (Source.Alike l) all all') :
    (all.foldl Sources.add a).Alike l beside (all'.foldl Sources.add b) := by
  induction each generalizing a b with
  | nil => exact alike
  | cons first _ ih => exact ih (alike.add first)

/-- From alike sources, places and outputs a scope reads and gives alike. -/
theorem finish {inside inside' given given' : Reading} (alike : a.Alike l beside b)
    (held : ∀ table ∈ beside, table ∈ a.aliases.entries.map AliasEntry.table)
    (held' : ∀ table ∈ beside, table ∈ b.aliases.entries.map AliasEntry.table)
    (places : inside.Alike l inside') (outputs : given.Alike l given') :
    (a.finish inside given).Alike l (b.finish inside' given') := by
  have sources : (a.reading ++ .ofTables (a.aliases.entries.map AliasEntry.table)).Alike l
      (b.reading ++ .ofTables (b.aliases.entries.map AliasEntry.table)) :=
    (alike.reading.append_beside (.ofTables alike.aliases.entryTables)).of_beside rfl
      (fun table member => List.mem_append_right _ (held table member))
      fun table member => List.mem_append_right _ (held' table member)
  have all := sources.append places
  have read := (all.append outputs).withOutputs outputs.outputs
  have branch := alike.branch
  have none_ := alike.aliases.entries_eq_nil_iff
  unfold Sources.finish
  cases first : a.branch <;> cases second : b.branch <;>
    simp only [first, second, Option.map_none, Option.map_some, reduceCtorEq, Option.some.injEq]
      at branch
  · exact read
  · cases names : a.aliases.entries <;> cases names' : b.aliases.entries <;>
      simp only [names, names', iff_true, true_iff, reduceCtorEq] at none_
    · rw [names, names'] at all
      exact all.withOutputs branch
    · rw [names, names'] at read
      exact read

end Sources.Alike
end
end TableAccess
