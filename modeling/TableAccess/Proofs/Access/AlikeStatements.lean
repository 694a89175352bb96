import TableAccess.Proofs.Access.AlikeScopes
import TableAccess.Proofs.Binding.Parts

/-! What is read and written in two statements that are alike. Statements are alike part by part,
and only at their scopes scope by scope. A scope is alike itself where its tables have the names
that tables may have; so is a scope in which another one is replaced by one that is read alike, as
long as all other names for tables are in the scope that is replaced. -/
namespace TableAccess

/-- How many names for tables in a scope are not allowed. -/
def Likeness.foreign (l : Likeness) (names : List String) : Nat :=
  names.countP fun name => !l.allows name

/-- Whether two updates are alike, with scopes that a relation holds of. -/
structure Update.Resembles (l : Likeness) (P : Scope → Scope → Prop) (u u' : Update) : Prop where
  targets : u.targets.map l.form = u'.targets.map l.form
  scope : P u.scope u'.scope
  table : u.table?.map (fun t => l.form t.name) = u'.table?.map fun t => l.form t.name

/-- Whether two insertions are alike, with scopes that a relation holds of. -/
structure Insert.Resembles (l : Likeness) (P : Scope → Scope → Prop) (i i' : Insert) : Prop where
  table : l.form i.table.name = l.form i'.table.name
  columns : i.columns.map l.form = i'.columns.map l.form
  source : Option.Rel P i.source i'.source
  onConflict : Option.Rel (Update.Resembles l P) i.onConflict i'.onConflict

/-- Whether two statements are alike, with scopes that a relation holds of. -/
inductive Statement.Resembles (l : Likeness) (P : Scope → Scope → Prop) : Statement → Statement → Prop
  | select {s s' : Scope} (inside : P s s') : Resembles l P (.select s) (.select s')
  | insert {i i' : Insert} (same : i.Resembles l P i') : Resembles l P (.insert i) (.insert i')
  | update {u u' : Update} (same : u.Resembles l P u') : Resembles l P (.update u) (.update u')
  | delete {s s' : Scope} (inside : P s s') : Resembles l P (.delete s) (.delete s')
  | unknown : Resembles l P .unknown .unknown

/-- The names under which a statement reads or declares tables in its scopes. -/
def Statement.tableNames (s : Statement) : List String := s.scopes.flatMap Scope.tableNames

/-- The names under which the scopes at a place read or declare tables. -/
def Place.tableNames (p : Place) : List String := p.parts.flatMap Scope.ownTables

theorem Place.tableNames_subquery (body : Scope) : (Place.subquery body).tableNames = body.tableNames :=
  rfl

section
variable {l : Likeness} {c c' : Catalog} {d : Nat} {P : Scope → Scope → Prop}

namespace Likeness

theorem foreign_eq_zero_iff {names : List String} :
    l.foreign names = 0 ↔ ∀ name ∈ names, l.allows name = true := by
  simp [foreign, List.countP_eq_zero]

theorem foreign_append (l : Likeness) (names more : List String) :
    l.foreign (names ++ more) = l.foreign names + l.foreign more := List.countP_append

/-- The names in a scope are its own, and those in its bodies. -/
theorem foreign_tableNames (l : Likeness) (s : Scope) :
    l.foreign s.tableNames = l.foreign s.ownTables +
      (s.ctes.map fun cte => l.foreign cte.body.tableNames).sum +
      (s.derived.map fun source => l.foreign source.body.tableNames).sum +
      ((Node.placesOf s.nodes).map fun p => l.foreign p.tableNames).sum := by
  simp only [foreign, Scope.tableNames, Scope.parts_eq s, Scope.inner, List.flatMap_cons,
    List.flatMap_append, List.flatMap_assoc, List.countP_append, List.countP_flatMap,
    Function.comp_def, Nat.add_assoc, Place.tableNames]

end Likeness

section
variable {s s' a b : Scope}

/-- Whether two named queries are the same but for their bodies. -/
private def Cte.SameBut (P : Scope → Scope → Prop) (c c' : Cte) : Prop :=
  c.aliasName = c'.aliasName ∧ c.columns = c'.columns ∧ P c.body c'.body

/-- Whether two subqueries among the sources are the same but for their bodies. -/
private def Derived.SameBut (P : Scope → Scope → Prop) (d d' : Derived) : Prop :=
  d.aliasName = d'.aliasName ∧ d.columns = d'.columns ∧ P d.body d'.body

/-- Scopes that are the same but for their bodies are alike if their own names for tables are
allowed. -/
private theorem Scope.Resembles.of_bodies (plain : l.rename = id) (own : l.foreign s.ownTables = 0)
    (tables : s.tables = s'.tables) (outputs : s.outputs = s'.outputs)
    (ctes : List.Forall₂ (Cte.SameBut P) s.ctes s'.ctes)
    (derived : List.Forall₂ (Derived.SameBut P) s.derived s'.derived)
    (places : List.Forall₂ (Place.Resembles l P) (Node.placesOf s.nodes) (Node.placesOf s'.nodes)) :
    s.Resembles l P s' := by
  have allowed := Likeness.foreign_eq_zero_iff.mp own
  simp only [Scope.ownTables, List.forall_mem_append, List.forall_mem_map] at allowed
  obtain ⟨⟨read, named⟩, called⟩ := allowed
  have sources : ∀ source ∈ s.derived, ∀ name, source.aliasName = some name → l.allows name = true :=
    fun source declared name own => called name (List.mem_filterMap.mpr ⟨source, declared, own⟩)
  refine ⟨?_, .inl (by rw [plain, tables]), read, ?_, ⟨_, places, rfl⟩, by rw [plain, outputs]⟩
  · refine ((List.forall₂_and_left ..).mpr ⟨named, ctes⟩).imp ?_
    rintro c c' ⟨allowed, name, columns, body⟩
    exact ⟨by rw [name], by rw [columns], body, allowed⟩
  · refine ((List.forall₂_and_left ..).mpr ⟨sources, derived⟩).imp ?_
    rintro d d' ⟨allowed, name, columns, body⟩
    exact ⟨by rw [plain, name], by rw [columns], body, allowed⟩

private theorem ctes_self {ctes : List Cte}
    (bodies : (ctes.map fun cte => l.foreign cte.body.tableNames).sum = 0)
    (reads : ∀ cte ∈ ctes, l.foreign cte.body.tableNames = 0 → P cte.body cte.body) :
    List.Forall₂ (Cte.SameBut P) ctes ctes := by
  refine List.forall₂_same.mpr fun cte declared => ⟨rfl, rfl, reads cte declared ?_⟩
  exact List.sum_eq_zero_iff_forall_eq_nat.mp bodies _ (List.mem_map_of_mem declared)

private theorem derived_self {derived : List Derived}
    (bodies : (derived.map fun source => l.foreign source.body.tableNames).sum = 0)
    (reads : ∀ source ∈ derived, l.foreign source.body.tableNames = 0 →
      P source.body source.body) : List.Forall₂ (Derived.SameBut P) derived derived := by
  refine List.forall₂_same.mpr fun source declared => ⟨rfl, rfl, reads source declared ?_⟩
  exact List.sum_eq_zero_iff_forall_eq_nat.mp bodies _ (List.mem_map_of_mem declared)

private theorem places_self {places : List Place} (plain : l.rename = id)
    (bodies : (places.map fun p => l.foreign p.tableNames).sum = 0)
    (reads : ∀ body, .subquery body ∈ places → l.foreign body.tableNames = 0 → P body body) :
    List.Forall₂ (Place.Resembles l P) places places := by
  refine List.forall₂_same.mpr fun p present => ?_
  cases p with
  | column _ => exact .column (by rw [plain])
  | argument _ _ => exact .argument rfl (by rw [plain])
  | subquery body =>
    refine .subquery (reads body present ?_)
    exact List.sum_eq_zero_iff_forall_eq_nat.mp bodies _ (List.mem_map_of_mem present)

private theorem resembles_of_bodies (plain : l.rename = id) (allowed : l.foreign s.tableNames = 0)
    (named : ∀ cte ∈ s.ctes, l.foreign cte.body.tableNames = 0 → P cte.body cte.body)
    (sources : ∀ source ∈ s.derived, l.foreign source.body.tableNames = 0 →
      P source.body source.body)
    (inside : ∀ body, .subquery body ∈ Node.placesOf s.nodes →
      l.foreign body.tableNames = 0 → P body body) : s.Resembles l P s := by
  rw [l.foreign_tableNames] at allowed
  exact .of_bodies plain (by omega) rfl rfl (ctes_self (by omega) named)
    (derived_self (by omega) sources) (places_self plain (by omega) inside)

namespace Scope

/-- A scope is read alike itself if its tables have allowed names. -/
theorem readsAlike_self (catalogs : c.Alike l c') (plain : l.rename = id) :
    l.foreign s.tableNames = 0 → Scope.ReadsAlike l c c' d s s := by
  induction s using Scope.tree_induction with
  | step s named sources inside =>
    exact fun allowed =>
      (resembles_of_bodies plain allowed named sources inside).readsAlike catalogs

theorem resembles_self (catalogs : c.Alike l c') (plain : l.rename = id)
    (allowed : l.foreign s.tableNames = 0) : s.Resembles l (Scope.ReadsAlike l c c' d) s :=
  resembles_of_bodies plain allowed (fun _ _ => readsAlike_self catalogs plain)
    (fun _ _ => readsAlike_self catalogs plain) fun _ _ => readsAlike_self catalogs plain

end Scope

/-- Scopes are read alike that are the same but for one, if this is read alike and all names that
are not allowed are in it. -/
private theorem Scope.Replaced.reads (catalogs : c.Alike l c') (plain : l.rename = id)
    (replaced : a.Replaced b s s') :
    l.foreign a.tableNames ≤ l.foreign s.tableNames ∧
      (l.foreign s.tableNames ≤ l.foreign a.tableNames → Scope.ReadsAlike l c c' d a b →
        Scope.ReadsAlike l c c' d s s') := by
  have self (body : Scope) := readsAlike_self (d := d) (s := body) catalogs plain
  -- Where one body is replaced, the count of the whole leaves none for the others.
  induction replaced with
  | whole => exact ⟨Nat.le_refl _, fun _ same => same⟩
  | @cte s body body' before after name columns _ ih =>
    obtain ⟨least, reads⟩ := ih
    have parts := l.foreign_tableNames { s with ctes := before ++ ⟨name, columns, body⟩ :: after }
    simp only [List.map_append, List.map_cons, List.sum_append, List.sum_cons] at parts
    refine ⟨by omega, fun within same => ?_⟩
    have ctes : List.Forall₂ (Cte.SameBut (Scope.ReadsAlike l c c' d))
        (before ++ ⟨name, columns, body⟩ :: after) (before ++ ⟨name, columns, body'⟩ :: after) :=
      List.rel_append (ctes_self (by omega) fun cte _ => self cte.body)
        (.cons ⟨rfl, rfl, reads (by omega) same⟩ (ctes_self (by omega) fun cte _ => self cte.body))
    exact Resembles.readsAlike catalogs (.of_bodies plain (by omega) rfl rfl ctes
      (derived_self (by dsimp only; omega) fun source _ => self source.body)
      (places_self plain (by dsimp only; omega) fun body _ => self body))
  | @derived s body body' before after name columns _ ih =>
    obtain ⟨least, reads⟩ := ih
    have parts := l.foreign_tableNames { s with derived := before ++ ⟨name, columns, body⟩ :: after }
    simp only [List.map_append, List.map_cons, List.sum_append, List.sum_cons] at parts
    refine ⟨by omega, fun within same => ?_⟩
    have derived : List.Forall₂ (Derived.SameBut (Scope.ReadsAlike l c c' d))
        (before ++ ⟨name, columns, body⟩ :: after) (before ++ ⟨name, columns, body'⟩ :: after) :=
      List.rel_append (derived_self (by omega) fun source _ => self source.body)
        (.cons ⟨rfl, rfl, reads (by omega) same⟩
          (derived_self (by omega) fun source _ => self source.body))
    exact Resembles.readsAlike catalogs (.of_bodies plain (by omega) rfl rfl
      (ctes_self (by dsimp only; omega) fun cte _ => self cte.body) derived
      (places_self plain (by dsimp only; omega) fun body _ => self body))
  | @subquery s body body' nodes nodes' _ mentioned ih =>
    obtain ⟨least, reads⟩ := ih
    obtain ⟨before, after, split, split'⟩ := mentioned.placesOf
    have parts := l.foreign_tableNames { s with nodes }
    simp only [split, List.map_append, List.map_cons, List.sum_append, List.sum_cons,
      Place.tableNames_subquery] at parts
    refine ⟨by omega, fun within same => ?_⟩
    have places : List.Forall₂ (Place.Resembles l (Scope.ReadsAlike l c c' d))
        (Node.placesOf nodes) (Node.placesOf nodes') := by
      rw [split, split']
      exact List.rel_append (places_self plain (by omega) fun body _ => self body)
        (.cons (.subquery (reads (by omega) same))
          (places_self plain (by omega) fun body _ => self body))
    exact Resembles.readsAlike catalogs (.of_bodies plain (by omega) rfl rfl
      (ctes_self (by dsimp only; omega) fun cte _ => self cte.body)
      (derived_self (by dsimp only; omega) fun source _ => self source.body) places)

end

namespace Catalog.Alike
variable {table table' : String} (catalogs : c.Alike l c')
include catalogs

private theorem find? (same : l.form table = l.form table') :
    (c.find? table).map l.schema = (c'.find? table').map l.schema := by
  rw [Catalog.find?_congr (l.sameName_of_form same), catalogs table']

/-- Alike tables that are changed are known by alike names. -/
theorem canonical (same : l.form table = l.form table') :
    l.form (c.canonical [] table) = l.form (c'.canonical [] table') := by
  have found := catalogs.find? same
  have known (c : Catalog) (table : String) :
      l.form (c.canonical [] table) = ((c.find? table).map l.schema).elim (l.form table) Prod.fst := by
    unfold Catalog.canonical
    rw [Option.orElse_eq_or, show LocalTables.find? [] table = none from rfl, Option.none_or]
    cases c.find? table <;> rfl
  rw [known, known, found, same]

/-- Alike columns that are written are spelled alike. -/
theorem write {columns columns' : List String} (same : l.form table = l.form table')
    (written : columns.map l.form = columns'.map l.form) :
    (Resolver.write ⟨c, d⟩ table columns).Alike l (Resolver.write ⟨c', d⟩ table' columns') := by
  have known : (c.columnsOf? [] table).map l.columns = (c'.columnsOf? [] table').map l.columns :=
    Likeness.map_columns_of_schema (catalogs.find? same)
  refine .of_forms rfl ?_ rfl rfl
  simp only [Resolver.write, Reading.ofColumns, List.map_map]
  induction columns generalizing columns' with
  | nil =>
    obtain rfl := List.map_eq_nil_iff.mp written.symm
    rfl
  | cons name rest ih =>
    obtain ⟨name', rest', rfl, atHead, later⟩ := List.map_eq_cons_iff.mp written.symm
    exact congrArg₂ List.cons (Prod.ext same (Likeness.form_spelling known atHead.symm))
      (ih later.symm)

end Catalog.Alike

section
variable {s s' : Statement}

theorem Update.Resembles.read {u u' : Update} (catalogs : c.Alike l c')
    (same : u.Resembles l (Scope.ReadsAlike l c c' d) u') :
    (u.read ⟨c, d⟩).Alike l (u'.read ⟨c', d⟩) := by
  have scope := same.scope _ _ _ _ 0 (.top catalogs)
  have table := same.table
  unfold Update.read
  cases first : u.table? with
  | none =>
    have second : u'.table? = none := by simpa [first] using table.symm
    rw [second]
    exact scope
  | some t =>
    rw [first, Option.map_some] at table
    obtain ⟨t', second, alike⟩ := Option.map_eq_some_iff.mp table.symm
    rw [second]
    exact (scope.append (catalogs.write (catalogs.canonical alike.symm) same.targets)).withOutputs
      scope.outputs

private theorem read_alike_of_rel {α : Type} {R : α → α → Prop} {read read' : α → Reading}
    {a b : Option α} (rel : Option.Rel R a b) (alike : ∀ x y, R x y → (read x).Alike l (read' y)) :
    (a.elim .empty read).Alike l (b.elim .empty read') := by
  cases rel with
  | none => exact .refl l _
  | some inside => exact alike _ _ inside

theorem Insert.Resembles.read {i i' : Insert} (catalogs : c.Alike l c')
    (same : i.Resembles l (Scope.ReadsAlike l c c' d) i') :
    (i.read ⟨c, d⟩).Alike l (i'.read ⟨c', d⟩) := by
  have parts (c : Catalog) (i : Insert) : i.read ⟨c, d⟩ =
      i.source.elim .empty (fun scope => scope.read ⟨c, d⟩ [] [] 0)
        ++ Resolver.write ⟨c, d⟩ (c.canonical [] i.table.name) i.columns
        ++ .ofTables [c.canonical [] i.table.name]
        ++ i.onConflict.elim .empty (fun update => update.read ⟨c, d⟩) := by
    obtain ⟨table, columns, source, onConflict⟩ := i
    cases source <;> cases onConflict <;> rfl
  have target := catalogs.canonical same.table
  have source := read_alike_of_rel same.source fun _ _ inside => inside _ _ _ _ 0 (.top catalogs)
  have upsert := read_alike_of_rel same.onConflict fun _ _ inside => inside.read catalogs
  rw [parts, parts]
  refine ((source.append (catalogs.write target same.columns)).append
    (.ofTables ?_)).append upsert
  simp [target]

/-- **Statements are read alike if their scopes are.** -/
theorem Statement.Resembles.read (catalogs : c.Alike l c')
    (same : s.Resembles l (Scope.ReadsAlike l c c' d) s') :
    (s.read ⟨c, d⟩).Alike l (s'.read ⟨c', d⟩) := by
  cases same with
  | select inside => exact inside _ _ _ _ 0 (.top catalogs)
  | delete inside => exact inside _ _ _ _ 0 (.top catalogs)
  | insert same => exact same.read catalogs
  | update same => exact same.read catalogs
  | unknown => exact .refl l _

theorem Statement.Resembles.kind (same : s.Resembles l P s') : s.kind = s'.kind := by
  cases same <;> rfl

/-- A statement resembles one in which a scope is replaced by one that is read alike, as long as
all names that are not allowed are in the scope that is replaced. -/
theorem Statement.Replaced.resembles {a b : Scope} (catalogs : c.Alike l c') (plain : l.rename = id)
    (replaced : s.Replaced a b s') :
    l.foreign a.tableNames ≤ l.foreign s.tableNames ∧
      (l.foreign s.tableNames ≤ l.foreign a.tableNames → Scope.ReadsAlike l c c' d a b →
        s.Resembles l (Scope.ReadsAlike l c c' d) s') := by
  have reads {s s' : Scope} (inside : a.Replaced b s s') :
      l.foreign a.tableNames ≤ l.foreign s.tableNames ∧
        (l.foreign s.tableNames ≤ l.foreign a.tableNames → Scope.ReadsAlike l c c' d a b →
          Scope.ReadsAlike l c c' d s s') := inside.reads catalogs plain
  have self (scope : Scope) := Scope.readsAlike_self (d := d) (s := scope) catalogs plain
  have update {u u' : Update} (inside : u.Replaced a b u')
      (same : Scope.ReadsAlike l c c' d u.scope u'.scope) :
      u.Resembles l (Scope.ReadsAlike l c c' d) u' :=
    ⟨by rw [inside.targets], same, by rw [inside.table]⟩
  cases replaced with
  | @select scope scope' inside =>
    have names : (Statement.select scope).tableNames = scope.tableNames := List.flatMap_singleton ..
    rw [names]
    exact ⟨(reads inside).1, fun within same => .select ((reads inside).2 within same)⟩
  | @delete scope scope' inside =>
    have names : (Statement.delete scope).tableNames = scope.tableNames := List.flatMap_singleton ..
    rw [names]
    exact ⟨(reads inside).1, fun within same => .delete ((reads inside).2 within same)⟩
  | @update u u' inside =>
    have names : (Statement.update u).tableNames = u.scope.tableNames := List.flatMap_singleton ..
    rw [names]
    exact ⟨(reads inside.scope).1, fun within same =>
      .update (update inside ((reads inside.scope).2 within same))⟩
  | @source i scope scope' inside =>
    obtain ⟨least, reads⟩ := reads inside
    simp only [tableNames, scopes, Option.toList_some, List.flatMap_append,
      Likeness.foreign_append, List.flatMap_singleton]
    refine ⟨by omega, fun within same => .insert ⟨rfl, rfl, .some (reads (by omega) same), ?_⟩⟩
    cases conflict : i.onConflict with
    | none => exact .none
    | some u =>
      simp only [conflict, Option.map_some, Option.toList_some, List.flatMap_singleton] at within
      exact .some ⟨rfl, self u.scope (by omega), rfl⟩
  | @onConflict i u u' inside =>
    obtain ⟨least, reads⟩ := reads inside.scope
    simp only [tableNames, scopes, Option.map_some, Option.toList_some, List.flatMap_append,
      Likeness.foreign_append, List.flatMap_singleton]
    refine ⟨by omega, fun within same =>
      .insert ⟨rfl, rfl, ?_, .some (update inside (reads (by omega) same))⟩⟩
    cases source : i.source with
    | none => exact .none
    | some scope =>
      simp only [source, Option.toList_some, List.flatMap_singleton] at within
      exact .some (self scope (by omega))

end

/-- Tables and columns without regard to the case of their names. -/
def Access.folded (a : Access) : Access where
  kind := a.kind
  tables := nameSet (a.tables.map fold)
  columns := nameTable (a.columns.flatMap fun entry =>
    entry.2.map fun column => (fold entry.1, fold column))

section
variable {s s' : Statement} {tag tag' : Option StatementId}

private theorem mem_pairs {pairs : List (String × String)} {pair : String × String} :
    pair ∈ ((nameTable pairs).flatMap fun entry => entry.2.map fun column => (fold entry.1, fold column))
      ↔ pair ∈ pairs.map (Prod.map fold fold) := by
  rw [List.mem_flatMap, List.mem_map]
  constructor
  · rintro ⟨entry, present, held⟩
    obtain ⟨column, recorded, rfl⟩ := List.mem_map.mp held
    exact ⟨_, (mem_entry_nameTable present).mp recorded, rfl⟩
  · rintro ⟨⟨table, column⟩, paired, rfl⟩
    have listed : (table, nameSet ((pairs.filter fun pair => pair.1 == table).map Prod.snd)) ∈
        nameTable pairs := mem_nameTable.mpr ⟨List.mem_map_of_mem paired, rfl⟩
    exact ⟨_, listed, List.mem_map.mpr ⟨column, (mem_entry_nameTable listed).mpr paired, rfl⟩⟩

/-- What is read alike up to case is resolved alike up to case. -/
theorem Reading.Alike.access_folded (folds : l.form = fold)
    (alike : (s.read ⟨c, d⟩).Alike l (s'.read ⟨c', d⟩)) (kind : s.kind = s'.kind) :
    (Resolver.resolve ⟨c, d⟩ s tag).access.folded = (Resolver.resolve ⟨c', d⟩ s' tag').access.folded := by
  have tables := alike.tables
  have columns := alike.columns
  rw [folds] at tables columns
  simp only [Access.folded, Resolver.resolve, Access.mk.injEq]
  refine ⟨kind, nameSet_congr fun table => ?_, nameTable_congr fun pair => ?_⟩
  · have sets (names : List String) : table ∈ (nameSet names).map fold ↔ table ∈ names.map fold := by
      simp only [List.mem_map, mem_nameSet]
    rw [sets, sets, tables]
  · rw [mem_pairs, mem_pairs, columns]

/-- What is read alike in every letter is resolved to the same tables and columns. -/
theorem Reading.Alike.access_eq (spelled : l.form = id)
    (alike : (s.read ⟨c, d⟩).Alike l (s'.read ⟨c', d⟩)) (kind : s.kind = s'.kind) :
    (Resolver.resolve ⟨c, d⟩ s tag).access = (Resolver.resolve ⟨c', d⟩ s' tag').access := by
  have tables := alike.tables
  have columns := alike.columns
  simp only [spelled, List.map_id, Prod.map_id] at tables columns
  simp only [Resolver.resolve, Access.mk.injEq]
  exact ⟨kind, nameSet_congr tables, nameTable_congr columns⟩

end
end
end TableAccess
