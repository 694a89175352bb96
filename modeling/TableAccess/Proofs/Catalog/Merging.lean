import TableAccess.Proofs.Binding.Lookup
import TableAccess.Proofs.Report.Listing

/-! How catalogs are put together. What is loaded later counts: of the tables with one name the last
one is kept, with its own spelling and its own columns, and nothing is kept of those before it. A
catalog says of each name which table that is, and two catalogs in order that say the same are one
catalog; so it makes no difference whether tables are listed one after the other or merged part by
part, nor which parts are merged first. A file that cannot be loaded leaves its note and nothing
else. -/
namespace TableAccess
namespace Catalog
variable {c x y z : Catalog} {tables others : List TableSchema} {name : String}

/-- Whether the tables of a catalog stand in the order of their folded names, no two of which are
equal. -/
def Ordered (c : Catalog) : Prop := c.tables.Pairwise fun s t => fold s.name < fold t.name

/-- The catalogs that can be loaded: those of listed tables, of definitions and of documents, and
what is merged of such catalogs. -/
inductive Loaded : Catalog → Prop where
  | ofTables (tables : List TableSchema) : Loaded (ofTables tables)
  | ofDefinitions {dialect : Sql.Dialect} {text : String} {c : Catalog}
      (read : Catalog.ofDefinitions dialect text = .ok c) : Loaded c
  | ofJson {text : String} {c : Catalog} (read : Catalog.ofJson text = .ok c) : Loaded c
  | merge {x y : Catalog} (first : Loaded x) (second : Loaded y) : Loaded (x.merge y)

private theorem ordered_iff : c.Ordered ↔ c.tables.Pairwise fun s t => s.order t = .lt := by
  have alike (s t : TableSchema) : fold s.name < fold t.name ↔ s.order t = .lt :=
    compareOfLessAndEq_eq_lt.symm
  simp only [Ordered, alike]

theorem Ordered.insertAll (ordered : c.Ordered) (tables : List TableSchema) :
    (tables.foldl insert c).Ordered := by
  induction tables generalizing c with
  | nil => exact ordered
  | cons t rest ih =>
    refine ih (ordered_iff.mpr ?_)
    rw [tables_insert]
    exact pairwise_insertOver (ordered_iff.mp ordered)

theorem ordered_empty : empty.Ordered := List.Pairwise.nil

theorem ordered_ofTables : (ofTables tables).Ordered := ordered_empty.insertAll tables

theorem Ordered.merge (ordered : c.Ordered) (other : Catalog) : (c.merge other).Ordered := by
  rw [merge_eq_insertAll]
  exact ordered.insertAll other.tables

/-- The last of the added tables counts, and tables of other names stay. -/
theorem find?_insertAll : (tables.foldl insert c).find? name =
    (tables.reverse.find? fun t => sameName t.name name).or (c.find? name) := by
  induction tables generalizing c with
  | nil => rfl
  | cons t rest ih =>
    rw [List.foldl_cons, ih, find?_insert, List.reverse_cons, List.find?_append, Option.or_assoc]
    cases same : sameName t.name name <;> simp [same]

theorem find?_ofTables :
    (ofTables tables).find? name = tables.reverse.find? fun t => sameName t.name name :=
  find?_insertAll.trans Option.or_none

theorem find?_merge (ordered : y.Ordered) :
    (x.merge y).find? name = (y.find? name).or (x.find? name) := by
  have once := find?_reverse_of_pairwise (y := ⟨name, []⟩) (ordered_iff.mp ordered)
  simp only [← TableSchema.sameName_eq_order] at once
  rw [merge_eq_insertAll, find?_insertAll, once, ← find?_eq]

/-- A catalog in order holds the tables that are found by their own names. -/
theorem Ordered.mem_iff (ordered : c.Ordered) {t : TableSchema} :
    t ∈ c.tables ↔ c.find? t.name = some t := by
  rw [mem_iff_find?_of_pairwise (ordered_iff.mp ordered)]
  simp only [← TableSchema.sameName_eq_order, find?_eq]

/-- Catalogs in order that find the same tables are the same. -/
theorem Ordered.ext (first : x.Ordered) (second : y.Ordered)
    (same : ∀ name, x.find? name = y.find? name) : x = y := by
  have tables : x.tables = y.tables := by
    refine eq_of_pairwise_of_mem (ordered_iff.mp first) (ordered_iff.mp second) fun t => ?_
    rw [first.mem_iff, second.mem_iff, same]
  exact eq_of_tables tables

/-- Tables that are listed one after the other are merged. -/
theorem ofTables_append : ofTables (tables ++ others) = (ofTables tables).merge (ofTables others) := by
  refine ordered_ofTables.ext (ordered_ofTables.merge _) fun name => ?_
  rw [find?_merge ordered_ofTables, find?_ofTables, find?_ofTables, find?_ofTables,
    List.reverse_append, List.find?_append]

theorem merge_assoc (first : x.Ordered) (second : y.Ordered) (third : z.Ordered) :
    (x.merge y).merge z = x.merge (y.merge z) := by
  refine ((first.merge y).merge z).ext (first.merge _) fun name => ?_
  rw [find?_merge third, find?_merge second, find?_merge (second.merge z), find?_merge third,
    Option.or_assoc]

theorem empty_merge (ordered : c.Ordered) : empty.merge c = c := by
  refine (ordered_empty.merge c).ext ordered fun name => ?_
  rw [find?_merge ordered]
  exact Option.or_none

/-- A document is loaded if it lists tables and nothing stands behind it. -/
theorem ofJson_of_listed {text : String} (listed : namedTables (Document.Json.read text).value = .ok tables) :
    ofJson text = if (Document.Json.read text).whole
      then .ok (ofListing tables) else .error (.schemaDocument "") := by
  rw [ofJson, listed]
  rfl

/-- The catalog of a document is that of the tables which it lists. -/
theorem exists_of_ofJson {text : String} (read : Catalog.ofJson text = .ok c) :
    ∃ tables, c = ofTables tables := by
  cases listed : namedTables (Document.Json.read text).value with
  | error e =>
    simp only [Catalog.ofJson, listed] at read
    cases read
  | ok found =>
    rw [ofJson_of_listed listed] at read
    split at read
    · exact ⟨_, (Except.ok.inj read).symm⟩
    · cases read

/-- The catalog of definitions is that of the tables which they create. -/
theorem exists_of_ofDefinitions {dialect : Sql.Dialect} {text : String}
    (read : Catalog.ofDefinitions dialect text = .ok c) : ∃ tables, c = ofTables tables := by
  unfold Catalog.ofDefinitions at read
  split at read
  · cases read
  · exact ⟨_, (Except.ok.inj read).symm⟩

theorem Loaded.ordered (loaded : c.Loaded) : c.Ordered := by
  induction loaded with
  | ofTables tables => exact ordered_ofTables
  | ofDefinitions read =>
    obtain ⟨tables, rfl⟩ := exists_of_ofDefinitions read
    exact ordered_ofTables
  | ofJson read =>
    obtain ⟨tables, rfl⟩ := exists_of_ofJson read
    exact ordered_ofTables
  | merge _ _ first _ => exact first.merge _

end Catalog

/-- Whether schema files are loaded one after the other: what is loaded is merged of the files that
can be loaded, and any other file leaves one note in its place and nothing else. -/
structure Files.LoadedInOrder (files : Files) (dialect : Sql.Dialect) : Prop where
  merged : ∀ paths, (Report.loadSchemas files dialect .empty paths).1 =
    (paths.filterMap (files.read? (Report.schemaOf dialect))).foldl Catalog.merge .empty
  loaded : ∀ paths, (Report.loadSchemas files dialect .empty paths).1.Loaded
  /-- A file that is loaded leaves no note. -/
  silent : ∀ before path after, (files.read? (Report.schemaOf dialect) path).isSome = true →
    (Report.loadSchemas files dialect .empty (before ++ path :: after)).2 =
      (Report.loadSchemas files dialect .empty before).2 ++
        (Report.loadSchemas files dialect .empty after).2
  /-- A file that cannot be loaded leaves the catalog as it was. -/
  kept : ∀ before path after, files.read? (Report.schemaOf dialect) path = none →
    (Report.loadSchemas files dialect .empty (before ++ path :: after)).1 =
      (Report.loadSchemas files dialect .empty (before ++ after)).1
  /-- A file that cannot be loaded is noted once. -/
  noted : ∀ before path after, files.read? (Report.schemaOf dialect) path = none →
    ∃ e, (Report.loadSchemas files dialect .empty (before ++ path :: after)).2 =
      (Report.loadSchemas files dialect .empty before).2 ++
        Report.malformed path e :: (Report.loadSchemas files dialect .empty after).2

section
variable {files : Files} {dialect : Sql.Dialect} {c : Catalog} {path : String}

theorem Report.catalog_loadSchemas (paths : List String) :
    (Report.loadSchemas files dialect c paths).1 =
      (paths.filterMap (files.read? (Report.schemaOf dialect))).foldl Catalog.merge c := by
  induction paths generalizing c with
  | nil => rfl
  | cons path rest ih =>
    rw [Report.loadSchemas, List.filterMap_cons]
    rcases load_cases files (Report.schemaOf dialect) path with ⟨part, read, loaded⟩ | ⟨read, e, loaded⟩
    · rw [loaded, read]
      exact ih
    · rw [loaded, read]
      exact ih

/-- What is loaded from a file is the catalog of some tables. -/
theorem loaded_of_read? {part : Catalog} (read : files.read? (Report.schemaOf dialect) path = some part) :
    part.Loaded := by
  obtain ⟨text, _, decoded⟩ := Option.bind_eq_some_iff.mp read
  cases found : Report.schemaOf dialect path text with
  | error e =>
    rw [found] at decoded
    cases decoded
  | ok part' =>
    rw [found] at decoded
    obtain rfl := Option.some.inj decoded
    unfold Report.schemaOf at found
    split at found
    · exact .ofJson found
    · exact .ofDefinitions found

private theorem loaded_foldl (loaded : c.Loaded) (parts : List Catalog)
    (all : ∀ part ∈ parts, part.Loaded) : (parts.foldl Catalog.merge c).Loaded := by
  induction parts generalizing c with
  | nil => exact loaded
  | cons part rest ih =>
    obtain ⟨first, others⟩ := List.forall_mem_cons.mp all
    exact ih (loaded.merge first) others

theorem fault?_of_read? (read : (files.read? (Report.schemaOf dialect) path).isSome = true) :
    files.fault? (Report.schemaOf dialect) path = none := by
  rw [← Option.not_isSome_iff_eq_none, isSome_fault?, ← Option.not_isSome, read]
  exact Bool.false_ne_true

theorem Files.loadedInOrder (files : Files) (dialect : Sql.Dialect) :
    files.LoadedInOrder dialect where
  merged := fun paths => Report.catalog_loadSchemas paths
  loaded := by
    intro paths
    rw [Report.catalog_loadSchemas]
    refine loaded_foldl (.ofTables []) _ fun part held => ?_
    obtain ⟨path, _, read⟩ := List.mem_filterMap.mp held
    exact loaded_of_read? read
  silent := by
    intro before path after read
    rw [notes_loadSchemas, notes_loadSchemas, notes_loadSchemas, List.filterMap_append,
      List.filterMap_cons, fault?_of_read? read]
  kept := by
    intro before path after unread
    rw [Report.catalog_loadSchemas, Report.catalog_loadSchemas, List.filterMap_append,
      List.filterMap_append, List.filterMap_cons, unread]
  noted := by
    intro before path after unread
    rcases load_cases files (Report.schemaOf dialect) path with ⟨part, read, _⟩ | ⟨_, e, loaded⟩
    · rw [unread] at read
      cases read
    · have fault : files.fault? (Report.schemaOf dialect) path = some (Report.malformed path e) := by
        rw [Files.fault?, loaded]
      exact ⟨e, by rw [notes_loadSchemas, notes_loadSchemas, notes_loadSchemas,
        List.filterMap_append, List.filterMap_cons, fault]⟩

end

/-- **Loading is compositional, and the last declaration of a table counts**, with its own spelling
and its own columns, across listed tables, catalogs that are merged and files. -/
theorem Catalog.loading_composes (files : Files) (dialect : Sql.Dialect) :
    (∀ a b, ofTables (a ++ b) = (ofTables a).merge (ofTables b)) ∧
      (∀ x y z : Catalog, x.Loaded → y.Loaded → z.Loaded →
        (x.merge y).merge z = x.merge (y.merge z)) ∧
      (∀ c : Catalog, c.Loaded → empty.merge c = c ∧ c.merge empty = c) ∧
      (∀ tables name, (ofTables tables).find? name =
        tables.reverse.find? fun t => sameName t.name name) ∧
      (∀ c : Catalog, c.Loaded → c.tables.Pairwise fun s t => fold s.name < fold t.name) ∧
      files.LoadedInOrder dialect := by
  refine ⟨fun a b => ofTables_append, ?_, ?_, fun tables name => find?_ofTables, ?_,
    files.loadedInOrder dialect⟩
  · intro x y z first second third
    exact merge_assoc first.ordered second.ordered third.ordered
  · intro c loaded
    exact ⟨empty_merge loaded.ordered, rfl⟩
  · intro c loaded
    exact loaded.ordered

/-- A document that declares a table again, under a name in another case. -/
def redeclaredFiles : Files
  | "more.json" => some "\x7b\"USERS\": [\"id\", \"email\"]\x7d"
  | _ => none

/-- The catalog of that document. -/
def redeclared : Catalog := .ofTables [⟨"USERS", ["id", "email"]⟩]

theorem Catalog.loading_composes_redeclared :
    let users : Catalog := .ofTables [⟨"users", ["id"]⟩, ⟨"orders", ["id"]⟩]
    users.Loaded ∧ redeclared.Loaded ∧
      (users.merge redeclared).merge users = users.merge (redeclared.merge users) ∧
      empty.merge redeclared = redeclared ∧
      (users.merge redeclared).find? "Users" = some ⟨"USERS", ["id", "email"]⟩ ∧
      redeclaredFiles.read? (Report.schemaOf .generic) "lost.sql" = none ∧
      (Report.loadSchemas redeclaredFiles .generic .empty (["more.json"] ++ "lost.sql" :: [])).1 =
        (Report.loadSchemas redeclaredFiles .generic .empty (["more.json"] ++ [])).1 := by
  intro users
  obtain ⟨append, assoc, unit, last, _, files⟩ := loading_composes redeclaredFiles .generic
  have first : users.Loaded := .ofTables _
  have listed : namedTables (Document.Json.read "\x7b\"USERS\": [\"id\", \"email\"]\x7d").value =
      .ok [⟨"USERS", ["id", "email"]⟩] := by decide +kernel
  have whole : (Document.Json.read "\x7b\"USERS\": [\"id\", \"email\"]\x7d").whole = true := by
    decide +kernel
  have decoded : ofJson "\x7b\"USERS\": [\"id\", \"email\"]\x7d" = .ok redeclared :=
    (ofJson_of_listed listed).trans (if_pos whole)
  have second : redeclared.Loaded := .ofJson decoded
  have unread : redeclaredFiles.read? (Report.schemaOf .generic) "lost.sql" = none := rfl
  refine ⟨first, second, assoc users redeclared users first second first, (unit redeclared second).1, ?_,
    unread, files.kept ["more.json"] "lost.sql" [] unread⟩
  have merged : users.merge redeclared = ofTables ([⟨"users", ["id"]⟩, ⟨"orders", ["id"]⟩] ++
      [⟨"USERS", ["id", "email"]⟩]) := (append _ _).symm
  have same : sameName "USERS" "Users" = true := sameName_iff.mpr (fold_eq_fold_iff.mpr (by decide))
  rw [merged, last]
  exact List.find?_cons_of_pos same

end TableAccess
