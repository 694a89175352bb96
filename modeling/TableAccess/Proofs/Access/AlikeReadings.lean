import TableAccess.Proofs.Access.Contents
import TableAccess.Proofs.Binding.Likeness
import TableAccess.Proofs.Binding.Lookup

/-! What is read at one place of two scopes that are alike. Readings are compared by the tables
and columns in them, as sets, by the findings of their notes and by the columns that they give.
Mentions of the same column are read alike as soon as the chains around them are: these look up
alike qualifiers alike, and know alike columns of every table that they have a name for. -/
namespace TableAccess

namespace Reading

@[simp] theorem tables_append (a b : Reading) : (a ++ b).tables = a.tables ++ b.tables := rfl

@[simp] theorem columns_append (a b : Reading) : (a ++ b).columns = a.columns ++ b.columns := rfl

@[simp] theorem notes_append (a b : Reading) : (a ++ b).notes = a.notes ++ b.notes := rfl

/-- Whether two readings are alike. -/
structure Alike (l : Likeness) (a b : Reading) : Prop where
  tables : ∀ table, table ∈ a.tables.map l.form ↔ table ∈ b.tables.map l.form
  columns : ∀ pair, pair ∈ a.columns.map (Prod.map l.form l.form) ↔
    pair ∈ b.columns.map (Prod.map l.form l.form)
  notes : arranged l.sequenced (a.notes.map Diagnostic.finding) =
    arranged l.sequenced (b.notes.map Diagnostic.finding)
  outputs : l.columns a.outputs = l.columns b.outputs

namespace Alike
variable {l : Likeness} {a a' b b' : Reading}

theorem refl (l : Likeness) (a : Reading) : a.Alike l a :=
  ⟨fun _ => .rfl, fun _ => .rfl, rfl, rfl⟩

theorem symm (alike : a.Alike l b) : b.Alike l a :=
  ⟨fun table => (alike.tables table).symm, fun pair => (alike.columns pair).symm, alike.notes.symm,
    alike.outputs.symm⟩

theorem trans (first : a.Alike l b) (second : b.Alike l b') : a.Alike l b' :=
  ⟨fun table => (first.tables table).trans (second.tables table),
    fun pair => (first.columns pair).trans (second.columns pair), first.notes.trans second.notes,
    first.outputs.trans second.outputs⟩

theorem append (first : a.Alike l a') (second : b.Alike l b') : (a ++ b).Alike l (a' ++ b') where
  tables table := by
    rw [tables_append, tables_append, List.map_append, List.map_append, List.mem_append,
      List.mem_append, first.tables, second.tables]
  columns pair := by
    rw [columns_append, columns_append, List.map_append, List.map_append, List.mem_append,
      List.mem_append, first.columns, second.columns]
  notes := by
    rw [notes_append, notes_append, List.map_append, List.map_append]
    exact arranged_append first.notes second.notes
  outputs := rfl

/-- Alike readings give the same columns in order, where order counts. -/
theorem outputs_eq (alike : a.Alike l b) (counts : l.ordered = true) :
    a.outputs.map l.form = b.outputs.map l.form := by
  have same := alike.outputs
  rwa [Likeness.columns, Likeness.columns, arranged_eq_iff, counts] at same

/-- Alike readings find the same one after the other, where the order of notes counts. -/
theorem findings_eq (alike : a.Alike l b) (counts : l.sequenced = true) :
    a.notes.map Diagnostic.finding = b.notes.map Diagnostic.finding := by
  have same := alike.notes
  rwa [arranged_eq_iff, counts] at same

/-- Alike readings find the same. -/
theorem findings_perm (alike : a.Alike l b) :
    (a.notes.map Diagnostic.finding).Perm (b.notes.map Diagnostic.finding) :=
  perm_of_arranged alike.notes

/-- Readings that are alike are so with alike columns that are given. -/
theorem withOutputs (alike : a.Alike l b) {given given' : List String}
    (same : l.columns given = l.columns given') :
    { a with outputs := given }.Alike l { b with outputs := given' } :=
  ⟨alike.tables, alike.columns, alike.notes, same⟩

/-- Readings in which the same is found one after the other. -/
theorem of_forms (tables : a.tables.map l.form = b.tables.map l.form)
    (columns : a.columns.map (Prod.map l.form l.form) = b.columns.map (Prod.map l.form l.form))
    (notes : a.notes.map Diagnostic.finding = b.notes.map Diagnostic.finding)
    (outputs : l.columns a.outputs = l.columns b.outputs) : a.Alike l b :=
  ⟨fun _ => by rw [tables], fun _ => by rw [columns], by rw [notes], outputs⟩

theorem ofNotes {notes notes' : List Diagnostic}
    (same : notes.map Diagnostic.finding = notes'.map Diagnostic.finding) :
    (Reading.ofNotes notes).Alike l (Reading.ofNotes notes') := of_forms rfl rfl same rfl

theorem ofTables {tables tables' : List String}
    (same : arranged l.ordered (tables.map l.form) = arranged l.ordered (tables'.map l.form)) :
    (Reading.ofTables tables).Alike l (Reading.ofTables tables') :=
  ⟨fun _ => (perm_of_arranged same).mem_iff, fun _ => .rfl, rfl, rfl⟩

theorem foldl {all all' : List Reading} {start start' : Reading} (alike : start.Alike l start')
    (each : List.Forall₂ (Alike l) all all') :
    { all.foldl Reading.append start with outputs := [] }.Alike l
      { all'.foldl Reading.append start' with outputs := [] } := by
  induction each generalizing start start' with
  | nil => exact alike.withOutputs rfl
  | cons first _ ih => exact ih (alike.append first)

end Alike
end Reading

/-- Whether two chains of scopes are alike for what is read in the innermost one. -/
structure Frames.Resemble (l : Likeness) (c c' : Catalog) (frames frames' : Frames) : Prop where
  own : frames.aliases.Alike l frames'.aliases
  lookup : ∀ q q', fold (l.rename q) = fold q' →
    (frames.lookup q).map l.form = (frames'.lookup q').map l.form
  known : ∀ table, frames.Names table →
    (c.columnsOf? frames table).map l.columns = (c'.columnsOf? frames' table).map l.columns

namespace Likeness
variable (l : Likeness)

/-- A column as it is compared, with what stands in front of it. -/
def column (key : String → String) (c : ColumnRef) : ColumnRef :=
  ⟨c.qualifier.map fun q => fold (key q), l.form c.name⟩

/-- Where a column belongs, as far as it is compared. -/
def attribution : Attribution → Attribution
  | .table name => .table (l.form name)
  | .ambiguous _ => .ambiguous []
  | .unknown _ => .unknown .noTables

/-- An output as it is compared. -/
def output (key : String → String) : Output → Output
  | .named name => .named (l.form name)
  | .wildcard qualifier => .wildcard (qualifier.map fun q => fold (key q))

section
variable {l} {names names' : List String} {name name' : String}

private theorem map_find?_forms (names : List String) (probe : String) :
    (names.find? (sameName probe)).map l.form = (names.map l.form).find? (sameName probe) := by
  rw [List.find?_map]
  congr 2
  funext name
  exact (l.sameName_form probe name).symm

/-- Names that are spelled like those of alike columns are alike. -/
private theorem form_spelled (same : l.columns names = l.columns names')
    (alike : l.form name = l.form name') :
    l.form ((names.find? (sameName name)).getD name) =
      l.form ((names'.find? (sameName name')).getD name') := by
  cases counts : l.ordered with
  | true =>
    have forms : names.map l.form = names'.map l.form := by
      simpa [columns, counts, arranged_eq_iff] using same
    have probes : sameName name = sameName name' :=
      funext (sameName_congr (l.sameName_of_form alike))
    have spelled : (names.find? (sameName name)).map l.form =
        (names'.find? (sameName name')).map l.form := by
      rw [map_find?_forms, map_find?_forms, probes, forms]
    rw [← Option.getD_map l.form, ← Option.getD_map l.form, spelled, alike]
  | false =>
    have spelled (names : List String) (name : String) :
        l.form ((names.find? (sameName name)).getD name) = l.form name := by
      cases found : names.find? (sameName name) with
      | none => rfl
      | some declared =>
        exact l.form_of_unordered counts _ _ ((sameName_comm _ _).trans (List.find?_some found))
    rw [spelled, spelled, alike]

/-- A column is spelled alike in alike columns of its table. -/
theorem form_spelling {c c' : Catalog} {frames frames' : Frames} {table table' : String}
    (known : (c.columnsOf? frames table).map l.columns = (c'.columnsOf? frames' table').map l.columns)
    (written : l.form name = l.form name') :
    l.form (c.spelling frames table name) = l.form (c'.spelling frames' table' name') := by
  unfold Catalog.spelling
  cases first : c.columnsOf? frames table <;> cases second : c'.columnsOf? frames' table' <;>
    simp only [first, second, Option.map_none, Option.map_some, reduceCtorEq, Option.some.injEq]
      at known ⊢
  · exact written
  · exact form_spelled known written

/-- Lists whose forms are the same are both empty, both single or both longer. -/
private theorem shapes (same : (names.map l.form).Perm (names'.map l.form)) :
    (names = [] ∧ names' = []) ∨
    (∃ only only', names = [only] ∧ names' = [only'] ∧ l.form only = l.form only') ∨
    ∃ a b rest a' b' rest', names = a :: b :: rest ∧ names' = a' :: b' :: rest' := by
  have lengths := same.length_eq
  match names, names' with
  | [], [] => exact .inl ⟨rfl, rfl⟩
  | [only], [only'] =>
    exact .inr (.inl ⟨only, only', rfl, rfl, by simpa using List.perm_singleton.mp same⟩)
  | a :: b :: rest, a' :: b' :: rest' => exact .inr (.inr ⟨a, b, rest, a', b', rest', rfl, rfl⟩)
  | [], _ :: _ => simp at lengths
  | _ :: _, [] => simp at lengths
  | [_], _ :: _ :: _ => simp at lengths
  | _ :: _ :: _, [_] => simp at lengths

private theorem ofMatches_eq (same : (names.map l.form).Perm (names'.map l.form)) :
    l.attribution (.ofMatches names) = l.attribution (.ofMatches names') := by
  rcases shapes same with ⟨rfl, rfl⟩ | ⟨only, only', rfl, rfl, alike⟩ |
    ⟨a, b, rest, a', b', rest', rfl, rfl⟩
  · rfl
  · exact congrArg Attribution.table alike
  · rfl

end

end Likeness

namespace Frames.Resemble
variable {l : Likeness} {c c' : Catalog} {d : Nat} {frames frames' : Frames} {column column' : ColumnRef}
  {table table' name name' : String} (alike : frames.Resemble l c c' frames')
include alike

theorem columnsOf (named : frames.Names table) (same : l.form table = l.form table') :
    (c.columnsOf? frames table).map l.columns = (c'.columnsOf? frames' table').map l.columns := by
  rw [← Catalog.columnsOf?_congr (l.sameName_of_form same), alike.known table named]

private theorem tableHas (named : frames.Names table) (same : l.form name = l.form name') :
    c.tableHas frames table name = c'.tableHas frames' table name' := by
  have known := alike.columnsOf named rfl
  rw [Catalog.tableHas_eq, Catalog.tableHas_eq]
  cases first : c.columnsOf? frames table <;> cases second : c'.columnsOf? frames' table <;>
    simp only [first, second, Option.map_none, Option.map_some, reduceCtorEq, Option.some.injEq]
      at known ⊢
  exact l.hasName_of_forms (perm_of_arranged known) same

theorem spelling (named : frames.Names table) (same : l.form table = l.form table')
    (written : l.form name = l.form name') :
    l.form (c.spelling frames table name) = l.form (c'.spelling frames' table' name') :=
  Likeness.form_spelling (alike.columnsOf named same) written

/-- The tables that have a column are alike. -/
private theorem candidates (same : l.form name = l.form name') :
    ((frames.aliases.tables.filter fun t => c.tableHas frames t name == some true).map l.form).Perm
      ((frames'.aliases.tables.filter fun t => c'.tableHas frames' t name' == some true).map
        l.form) := by
  have formed (c : Catalog) (frames : Frames) (tables : List String) (name : String) :
      (tables.filter fun t => c.tableHas frames t name == some true).map l.form =
        (tables.map l.form).filter fun t => c.tableHas frames t name == some true := by
    rw [List.filter_map]
    congr 2
    funext t
    simp only [Function.comp_apply, Catalog.tableHas_eq, Catalog.columnsOf?_congr (l.form_sameName t)]
  rw [formed, formed]
  -- Both sides now filter forms, and those of the two scopes are the same up to order.
  have has : ∀ form ∈ frames.aliases.tables.map l.form,
      (c.tableHas frames form name == some true) = (c'.tableHas frames' form name' == some true) := by
    intro form held
    obtain ⟨t, listed, rfl⟩ := List.mem_map.mp held
    have known := alike.tableHas (Frames.names_of_mem_tables listed) same
    simp only [Catalog.tableHas_eq, Catalog.columnsOf?_congr (l.form_sameName t)] at known ⊢
    rw [known]
  rw [List.filter_congr has]
  exact (perm_of_arranged alike.own.tables).filter _

/-- Alike columns belong to alike tables, or equally to none. -/
theorem attributionOf (same : l.column l.rename column = l.column id column') :
    l.attribution (c.attributionOf frames column) =
      l.attribution (c'.attributionOf frames' column') := by
  obtain ⟨qualified, written⟩ := ColumnRef.mk.inj same
  cases first : column.qualifier with
  | none =>
    have second : column'.qualifier = none := by simpa [first] using qualified.symm
    unfold Catalog.attributionOf
    rw [first, second]
    rcases Likeness.shapes (perm_of_arranged alike.own.tables) with ⟨none_, none_'⟩ |
      ⟨only, only', single, single', equal⟩ | ⟨a, b, rest, a', b', rest', several, several'⟩
    · rw [none_, none_']
    · rw [single, single']
      exact congrArg Attribution.table equal
    · have chosen := Likeness.ofMatches_eq (alike.candidates written)
      rw [several, several'] at chosen ⊢
      exact chosen
  | some q =>
    obtain ⟨q', second, equal⟩ := Option.map_eq_some_iff.mp (qualified.symm.trans (by rw [first]; rfl))
    have found := alike.lookup q q' equal.symm
    rw [Catalog.attributionOf_qualified first, Catalog.attributionOf_qualified second]
    cases means : frames.lookup q <;> cases means' : frames'.lookup q' <;>
      simp only [means, means', Option.map_none, Option.map_some, reduceCtorEq, Option.some.injEq]
        at found ⊢
    · rfl
    · exact congrArg Attribution.table found

theorem mention (same : l.column l.rename column = l.column id column') :
    (Resolver.mention ⟨c, d⟩ frames column).Alike l (Resolver.mention ⟨c', d⟩ frames' column') := by
  have belongs := alike.attributionOf same
  have written : l.form column.name = l.form column'.name := (ColumnRef.mk.inj same).2
  unfold Resolver.mention
  cases first : c.attributionOf frames column <;> cases second : c'.attributionOf frames' column' <;>
    simp only [first, second, Likeness.attribution, reduceCtorEq, Attribution.table.injEq] at belongs ⊢
  · have spelled := alike.spelling (Catalog.names_of_attributionOf first) belongs written
    exact .of_forms rfl (congrArg (fun pair => [pair]) (Prod.ext belongs spelled)) rfl rfl
  · exact .of_forms rfl (congrArg (fun pair => [pair]) (Prod.ext rfl written)) rfl rfl
  · exact .of_forms rfl (congrArg (fun pair => [pair]) (Prod.ext rfl written)) rfl rfl

theorem mentionInCall {call call' : String} (texts : l.form call = l.form call')
    (same : l.column l.rename column = l.column id column') :
    (Resolver.mentionInCall ⟨c, d⟩ frames call column).Alike l
      (Resolver.mentionInCall ⟨c', d⟩ frames' call' column') := by
  have belongs := alike.attributionOf same
  have qualified : column.qualifier.isSome = column'.qualifier.isSome := by
    simpa using congrArg Option.isSome (ColumnRef.mk.inj same).1
  refine (alike.mention same).append ?_
  cases first : column.qualifier <;> cases second : column'.qualifier <;>
    simp only [first, second, Option.isSome_none, Option.isSome_some, reduceCtorEq] at qualified ⊢
  · exact .refl l _
  · cases means : c.attributionOf frames column <;>
      cases means' : c'.attributionOf frames' column' <;>
      simp only [means, means', Likeness.attribution, reduceCtorEq, Attribution.table.injEq]
        at belongs ⊢
    · exact .of_forms rfl (congrArg (fun pair => [pair]) (Prod.ext belongs texts)) rfl rfl
    · exact .refl l _
    · exact .refl l _

private theorem knownColumns (named : frames.Names table) (same : l.form table = l.form table') :
    l.columns (Resolver.knownColumns ⟨c, d⟩ frames table) =
      l.columns (Resolver.knownColumns ⟨c', d⟩ frames' table') := by
  have known := alike.columnsOf named same
  unfold Resolver.knownColumns
  rw [← Option.getD_map l.columns, ← Option.getD_map l.columns, known]

private theorem mentionAll (named : frames.Names table) (same : l.form table = l.form table') :
    (Resolver.mentionAll ⟨c, d⟩ frames table).Alike l
      (Resolver.mentionAll ⟨c', d⟩ frames' table') :=
  .of_forms rfl (congrArg (fun pair => [pair]) (Prod.ext same rfl)) rfl (alike.knownColumns named same)

/-- Wildcards read alike tables, and give alike columns in the order of the sources. -/
private theorem output_all : (Resolver.output ⟨c, d⟩ frames (.wildcard none)).Alike l
    (Resolver.output ⟨c', d⟩ frames' (.wildcard none)) := by
  have found : { Resolver.output ⟨c, d⟩ frames (.wildcard none) with outputs := [] }.Alike l
      { Resolver.output ⟨c', d⟩ frames' (.wildcard none) with outputs := [] } := by
    rw [Resolver.output_all, Resolver.output_all]
    refine ⟨fun _ => .rfl, fun pair => ?_, rfl, rfl⟩
    have forms := arranged_map (fun form => (form, l.form everyColumn)) alike.own.tables
    simp only [List.map_map] at forms
    simp only [Reading.ofColumns, List.map_map]
    exact (perm_of_arranged forms).mem_iff
  refine found.withOutputs ?_
  have given (c : Catalog) (frames : Frames) :
      ((frames.aliases.tables.map (Resolver.mentionAll ⟨c, d⟩ frames)).flatMap
          Reading.outputs).map l.form =
        (frames.aliases.tables.map l.form).flatMap fun form =>
          (Resolver.knownColumns ⟨c, d⟩ frames form).map l.form := by
    simp only [List.flatMap_map, List.map_flatMap]
    refine List.flatMap_congr fun t _ => ?_
    simp only [Resolver.mentionAll, Resolver.knownColumns,
      Catalog.columnsOf?_congr (l.form_sameName t)]
  rw [Likeness.columns, Likeness.columns, given, given]
  refine arranged_flatMap alike.own.tables fun form held => ?_
  obtain ⟨t, listed, rfl⟩ := List.mem_map.mp held
  have known := alike.knownColumns (d := d) (Frames.names_of_mem_tables listed) rfl
  unfold Resolver.knownColumns at known ⊢
  rwa [Catalog.columnsOf?_congr (l.form_sameName t), Catalog.columnsOf?_congr (l.form_sameName t)]

theorem output {o o' : Output} (same : l.output l.rename o = l.output id o') :
    (Resolver.output ⟨c, d⟩ frames o).Alike l (Resolver.output ⟨c', d⟩ frames' o') := by
  match o, o' with
  | .named name, .named name' =>
    have forms : l.form name = l.form name' := Output.named.inj same
    refine .of_forms rfl rfl rfl ?_
    simp only [Resolver.output, Likeness.columns, List.map_cons, List.map_nil, forms]
  | .wildcard none, .wildcard none => exact alike.output_all
  | .wildcard (some q), .wildcard (some q') =>
    have renamed : fold (l.rename q) = fold q' := Option.some.inj (Output.wildcard.inj same)
    have found := alike.own.find? renamed
    simp only [Resolver.output]
    cases means : frames.aliases.find? q <;> cases means' : frames'.aliases.find? q' <;>
      simp only [means, means', Option.map_none, Option.map_some, reduceCtorEq, Option.some.injEq]
        at found ⊢
    · exact alike.mention (ColumnRef.mk.injEq .. ▸ ⟨congrArg some renamed, rfl⟩)
    · exact alike.mentionAll (Frames.names_of_lookup (Frames.lookup_of_own means)) found
  | .named _, .wildcard _ => cases same
  | .wildcard _, .named _ => cases same
  | .wildcard none, .wildcard (some _) => cases Output.wildcard.inj same
  | .wildcard (some _), .wildcard none => cases Output.wildcard.inj same

theorem outputs {os os' : List Output}
    (same : os.map (l.output l.rename) = os'.map (l.output id)) :
    (Resolver.outputs ⟨c, d⟩ frames os).Alike l (Resolver.outputs ⟨c', d⟩ frames' os') := by
  have each : List.Forall₂ (Reading.Alike l) (os.map (Resolver.output ⟨c, d⟩ frames))
      (os'.map (Resolver.output ⟨c', d⟩ frames')) := by
    have pairs : List.Forall₂ (fun o o' => l.output l.rename o = l.output id o') os os' := by
      rw [← List.forall₂_eq_eq_eq, List.forall₂_map_left_iff, List.forall₂_map_right_iff] at same
      exact same
    rw [List.forall₂_map_left_iff, List.forall₂_map_right_iff]
    exact pairs.imp fun _ _ same => alike.output same
  refine ((Reading.Alike.refl l .empty).foldl each).withOutputs ?_
  simp only [Likeness.columns, List.map_flatMap]
  generalize os.map (Resolver.output ⟨c, d⟩ frames) = all at each ⊢
  generalize os'.map (Resolver.output ⟨c', d⟩ frames') = all' at each ⊢
  induction each with
  | nil => rfl
  | cons first _ ih => exact arranged_append first.outputs ih

end Frames.Resemble
end TableAccess
