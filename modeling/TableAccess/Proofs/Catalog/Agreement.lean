import TableAccess.Proofs.Catalog.Merging

/-! What is known of a table's columns is asked for in three ways: which columns there are, whether
a certain one is among them, and how it is spelled. The first goes by the list of the columns, the
second by the stored set of their folded names where the database declares the table, and the third
goes through the list again. They give one account of the table, which is the same however the table
and the column are written. -/
namespace TableAccess
namespace Catalog

/-- Whether what is known of a table's columns is the same in whichever way one asks for it. -/
structure LookupsAgree (c : Catalog) (frames : Frames) (table column : String) : Prop where
  present : c.tableHas frames table column = some true ↔
    ∃ columns, c.columnsOf? frames table = some columns ∧
      ∃ declared ∈ columns, sameName declared column = true
  unknown : c.tableHas frames table column = none ↔ c.columnsOf? frames table = none
  /-- A column that is present is spelled like the first one that has its name. -/
  first : c.tableHas frames table column = some true → ∃ before after,
    c.columnsOf? frames table = some (before ++ c.spelling frames table column :: after) ∧
      sameName (c.spelling frames table column) column = true ∧
      ∀ declared ∈ before, sameName declared column = false
  /-- Any other column is spelled as it is written. -/
  asWritten : c.tableHas frames table column ≠ some true → c.spelling frames table column = column
  respelled : ∀ table' column', sameName table table' = true → sameName column column' = true →
    c.columnsOf? frames table' = c.columnsOf? frames table ∧
      c.tableHas frames table' column' = c.tableHas frames table column ∧
      (c.tableHas frames table column = some true →
        c.spelling frames table' column' = c.spelling frames table column)
  /-- A table that no scope declares is known with the columns that were loaded last. -/
  loaded : c.Loaded → frames.localTable? table = none → ∀ t ∈ c.tables, sameName t.name table = true →
    c.columnsOf? frames table = some t.columns

variable {c : Catalog} {frames : Frames} {table column table' column' : String}

theorem tableHas_eq_some_true_iff : c.tableHas frames table column = some true ↔
    ∃ columns, c.columnsOf? frames table = some columns ∧
      ∃ declared ∈ columns, sameName declared column = true := by
  simp only [tableHas_eq, Option.map_eq_some_iff, hasName, List.any_eq_true, sameName_comm column]

/-- A column that is present is found among the known ones, and spelled as it is found. -/
theorem exists_spelling_of_tableHas (present : c.tableHas frames table column = some true) :
    ∃ columns, c.columnsOf? frames table = some columns ∧
      columns.find? (sameName column) = some (c.spelling frames table column) := by
  rw [tableHas_eq] at present
  obtain ⟨columns, known, held⟩ := Option.map_eq_some_iff.mp present
  rw [hasName_eq_isSome_find?] at held
  obtain ⟨declared, found⟩ := Option.isSome_iff_exists.mp held
  refine ⟨columns, known, ?_⟩
  simp only [spelling, known, found, Option.getD_some]

/-- The spelling of a column that is present is that of the first one which has its name. -/
theorem first_of_tableHas (present : c.tableHas frames table column = some true) : ∃ before after,
    c.columnsOf? frames table = some (before ++ c.spelling frames table column :: after) ∧
      sameName (c.spelling frames table column) column = true ∧
      ∀ declared ∈ before, sameName declared column = false := by
  obtain ⟨columns, known, found⟩ := exists_spelling_of_tableHas present
  obtain ⟨named, before, after, split, others⟩ := List.find?_eq_some_iff_append.mp found
  refine ⟨before, after, split ▸ known, ?_, fun declared earlier => ?_⟩
  · rw [sameName_comm]
    exact named
  · rw [sameName_comm]
    simpa using others declared earlier

/-- A column that is not known to be present is spelled as it is written. -/
theorem spelling_of_not_tableHas (absent : c.tableHas frames table column ≠ some true) :
    c.spelling frames table column = column := by
  rw [tableHas_eq] at absent
  unfold spelling
  cases known : c.columnsOf? frames table with
  | none => rfl
  | some columns =>
    have nowhere : columns.find? (sameName column) = none := by
      rw [known, Option.map_some, hasName_eq_isSome_find?] at absent
      simpa using absent
    simp only [nowhere, Option.getD_none]

theorem tableHas_congr (tables : sameName table table' = true)
    (columns : sameName column column' = true) :
    c.tableHas frames table column = c.tableHas frames table' column' := by
  have alike : sameName column = sameName column' := funext (sameName_congr columns)
  simp only [tableHas_eq, hasName, columnsOf?_congr tables, alike]

/-- A column that is present is spelled the same however it is asked for. -/
theorem spelling_congr (tables : sameName table table' = true)
    (columns : sameName column column' = true)
    (present : c.tableHas frames table column = some true) :
    c.spelling frames table column = c.spelling frames table' column' := by
  obtain ⟨known, listed, found⟩ := exists_spelling_of_tableHas present
  have alike : sameName column = sameName column' := funext (sameName_congr columns)
  have found' : known.find? (sameName column') = some (c.spelling frames table column) := alike ▸ found
  have listed' : c.columnsOf? frames table' = some known := (columnsOf?_congr tables).symm.trans listed
  have spelled : c.spelling frames table' column' = (known.find? (sameName column')).getD column' := by
    simp only [spelling, listed']
  rw [spelled, found', Option.getD_some]

/-- A table that is loaded keeps its columns, unless a scope declares one of its name. -/
theorem Loaded.columnsOf? (loaded : c.Loaded) (unhidden : frames.localTable? table = none)
    {t : TableSchema} (member : t ∈ c.tables) (same : sameName t.name table = true) :
    c.columnsOf? frames table = some t.columns := by
  have found : c.find? table = some t :=
    (find?_congr same).symm.trans (loaded.ordered.mem_iff.mp member)
  rw [Catalog.columnsOf?, unhidden, found]
  rfl

/-- **What is known of a table is the same in whichever way one asks for it**: a column is present
exactly when it is among the known columns, and then it is spelled like the first one of its name. -/
theorem lookups_agree (c : Catalog) (frames : Frames) (table column : String) :
    c.LookupsAgree frames table column where
  present := tableHas_eq_some_true_iff
  unknown := by rw [tableHas_eq, Option.map_eq_none_iff]
  first := first_of_tableHas
  asWritten := spelling_of_not_tableHas
  respelled := fun _ _ tables columns =>
    ⟨(columnsOf?_congr tables).symm, (tableHas_congr tables columns).symm,
      fun present => (spelling_congr tables columns present).symm⟩
  loaded := fun loaded unhidden _ member same => loaded.columnsOf? unhidden member same

/-- Users, who are declared once more with further columns. -/
def members : Catalog :=
  (ofTables [⟨"users", ["id"]⟩]).merge (ofTables [⟨"users", ["id", "email", "phone"]⟩])

theorem lookups_agree_respelled :
    members.Loaded ∧ members.columnsOf? [] "users" = some ["id", "email", "phone"] ∧
      members.tableHas [] "USERS" "EMAIL" = some true ∧
      members.spelling [] "USERS" "EMAIL" = "email" ∧ members.spelling [] "users" "name" = "name" := by
  have loaded : members.Loaded := .merge (.ofTables _) (.ofTables _)
  have tables : sameName "users" "USERS" = true := sameName_iff.mpr (fold_eq_fold_iff.mpr (by decide))
  have columns : sameName "email" "EMAIL" = true := sameName_iff.mpr (fold_eq_fold_iff.mpr (by decide))
  have agree (column : String) := lookups_agree members [] "users" column
  have known : members.columnsOf? [] "users" = some ["id", "email", "phone"] :=
    (agree "id").loaded loaded rfl ⟨"users", ["id", "email", "phone"]⟩ (by decide +kernel) (by decide +kernel)
  have present : members.tableHas [] "users" "email" = some true :=
    (agree "email").present.mpr ⟨_, known, "email", by decide, sameName_refl _⟩
  obtain ⟨_, has, spelled⟩ := (agree "email").respelled "USERS" "EMAIL" tables columns
  refine ⟨loaded, known, has.trans present, (spelled present).trans ?_,
    (agree "name").asWritten (by decide +kernel)⟩
  decide +kernel

end Catalog
end TableAccess
