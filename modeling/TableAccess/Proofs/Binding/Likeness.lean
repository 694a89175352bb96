import TableAccess.Proofs.Binding.Aliases
import Mathlib.Data.Multiset.Basic
import Mathlib.Data.List.Forall2

/-! What it means that names, columns and sources are alike in two scopes. Two scopes are compared
up to the form of their names, which may leave case out, with what stands in front of a column
renamed from one to the other, and with lists in their order or without it. Everything that is
compared is brought into one form, so that alike means equal there; maps of names that are alike
give alike answers, and stay so when alike names are added. -/
namespace TableAccess

section
variable {α β : Type} {ordered : Bool} {xs ys : List α}

/-- A list as far as it is compared: in its order, or as often as each item occurs. -/
def arranged (ordered : Bool) (xs : List α) : List α ⊕ Multiset α :=
  if ordered then .inl xs else .inr xs

theorem arranged_eq_iff :
    arranged ordered xs = arranged ordered ys ↔ if ordered then xs = ys else xs.Perm ys := by
  cases ordered <;> simp [arranged]

theorem perm_of_arranged (same : arranged ordered xs = arranged ordered ys) : xs.Perm ys := by
  rw [arranged_eq_iff] at same
  cases ordered with
  | true => exact .of_eq same
  | false => exact same

theorem arranged_map (f : α → β) (same : arranged ordered xs = arranged ordered ys) :
    arranged ordered (xs.map f) = arranged ordered (ys.map f) := by
  rw [arranged_eq_iff] at same ⊢
  cases ordered with
  | true => exact congrArg (List.map f) same
  | false => exact List.Perm.map f same

theorem arranged_append {more others : List α} (same : arranged ordered xs = arranged ordered ys)
    (rest : arranged ordered more = arranged ordered others) :
    arranged ordered (xs ++ more) = arranged ordered (ys ++ others) := by
  rw [arranged_eq_iff] at same rest ⊢
  cases ordered with
  | true => exact congrArg₂ (· ++ ·) same rest
  | false => exact List.Perm.append same rest

theorem arranged_flatMap {f g : α → List β} (same : arranged ordered xs = arranged ordered ys)
    (each : ∀ x ∈ xs, arranged ordered (f x) = arranged ordered (g x)) :
    arranged ordered (xs.flatMap f) = arranged ordered (ys.flatMap g) := by
  simp only [arranged_eq_iff] at same each ⊢
  cases ordered with
  | true => exact same ▸ List.flatMap_congr each
  | false => exact List.Perm.flatMap same each

end

/-- How two scopes are compared. -/
structure Likeness where
  /-- The form in which tables and columns are compared. -/
  form : String → String
  /-- What is written in the second scope for a name in front of columns in the first. -/
  rename : String → String
  /-- Whether the order of sources counts, and with it that of the columns they give. -/
  ordered : Bool
  /-- Whether the order of notes counts. -/
  sequenced : Bool
  /-- The names that tables of the scopes may have. -/
  allows : String → Bool
  /-- Whether no other name means a table where the scopes stand. Otherwise one may be visible as
  a named query around one of the scopes and not around the other. -/
  closed : Bool
  fold_form : ∀ name, fold (form name) = fold name
  sameName_rename : ∀ a b, sameName (rename a) (rename b) = sameName a b
  /-- Names that are the same have one form where sources change their order. -/
  form_of_unordered : ordered = false → ∀ a b, sameName a b = true → form a = form b
  allows_congr : ∀ a b, sameName a b = true → allows a = allows b

namespace Likeness

/-- Names are compared without regard to case, in their order or in any order. -/
def upToCase (ordered : Bool) : Likeness where
  form := fold
  rename := id
  ordered := ordered
  sequenced := ordered
  allows _ := true
  closed := false
  fold_form := fold_fold
  sameName_rename _ _ := rfl
  form_of_unordered _ _ _ := sameName_iff.mp
  allows_congr _ _ _ := rfl

/-- Names are compared letter by letter, in their order. -/
def literal : Likeness where
  form := id
  rename := id
  ordered := true
  sequenced := true
  allows _ := true
  closed := false
  fold_form _ := rfl
  sameName_rename _ _ := rfl
  form_of_unordered unordered := by cases unordered
  allows_congr _ _ _ := rfl

variable (l : Likeness) {key : String → String} {a b : String}

theorem sameName_of_form (same : l.form a = l.form b) : sameName a b = true :=
  sameName_iff.mpr (by rw [← l.fold_form a, same, l.fold_form])

theorem sameName_form (a b : String) : sameName a (l.form b) = sameName a b := by
  rw [sameName, sameName, l.fold_form]

/-- A name is the same as its form. -/
theorem form_sameName (a : String) : sameName (l.form a) a = true := by
  rw [sameName_comm, sameName_form, sameName_refl]

/-- Whether a name is among others depends on their forms, in any order. -/
theorem hasName_of_forms {names names' : List String}
    (same : (names.map l.form).Perm (names'.map l.form)) (alike : l.form a = l.form b) :
    hasName names a = hasName names' b := by
  have inForms (names : List String) (probe : String) :
      hasName names probe = (names.map l.form).any (sameName probe) := by
    simp only [hasName, List.any_map, Function.comp_def, l.sameName_form]
  rw [inForms, inForms, same.any_eq]
  exact congrArg (List.any _) (funext (sameName_congr (l.sameName_of_form alike)))

/-- Columns as they are compared. -/
def columns (columns : List String) : List String ⊕ Multiset String :=
  arranged l.ordered (columns.map l.form)

/-- A table that a statement declares, as it is compared. -/
def schema (t : TableSchema) : String × (List String ⊕ Multiset String) :=
  (l.form t.name, l.columns t.columns)

variable {l} in
/-- Alike tables have alike columns. -/
theorem map_columns_of_schema {t t' : Option TableSchema} (same : t.map l.schema = t'.map l.schema) :
    (t.map TableSchema.columns).map l.columns = (t'.map TableSchema.columns).map l.columns := by
  have columns := congrArg (Option.map Prod.snd) same
  rwa [Option.map_map, Option.map_map] at columns ⊢

/-- A name and the table that it means, as they are compared. -/
def entry (key : String → String) (e : AliasEntry) : String × String :=
  (fold (key e.aliasName), l.form e.table)

end Likeness

/-- Whether two lists of names and tables are alike: one after the other, or in any order if the
names are distinct. -/
def Likeness.Declares (l : Likeness) (pairs others : List (String × String)) : Prop :=
  pairs = others ∨
    l.ordered = false ∧ pairs.Pairwise (fun e f => e.1 ≠ f.1) ∧ pairs.Perm others

/-- Whether two maps of names are alike: the names of the second are those of the first,
renamed, and mean the same tables. -/
structure AliasMap.Alike (l : Likeness) (m m' : AliasMap) : Prop where
  entries : arranged l.ordered (m.entries.map (l.entry l.rename)) =
    arranged l.ordered (m'.entries.map (l.entry id))
  /-- No name is in the map twice. -/
  distinct : (m.entries.map (l.entry l.rename)).Pairwise fun e f => e.1 ≠ f.1

section
variable {pairs others : List (String × String)} {key : String}

private theorem faithful_id (a b : String) : sameName (id a) (id b) = sameName a b := rfl

/-- What is found under a key does not depend on the order in which distinct keys are listed. -/
private theorem lookup_perm (same : pairs.Perm others)
    (distinct : pairs.Pairwise fun e f => e.1 ≠ f.1) : pairs.lookup key = others.lookup key := by
  induction same with
  | nil => rfl
  | cons pair _ ih =>
    rw [List.lookup_cons, List.lookup_cons, ih (List.pairwise_cons.mp distinct).2]
  | swap first second rest =>
    obtain ⟨name, table⟩ := first
    obtain ⟨other, means⟩ := second
    have different : other ≠ name := (List.pairwise_cons.mp distinct).1 (name, table) (by simp)
    rw [List.lookup_cons, List.lookup_cons, List.lookup_cons, List.lookup_cons]
    cases atName : key == name with
    | false => rfl
    | true =>
      have absent : (key == other) = false := by
        rw [beq_iff_eq.mp atName]
        exact beq_false_of_ne (Ne.symm different)
      rw [absent]
  | trans first _ ih more =>
    exact (ih distinct).trans (more (first.pairwise_iff (fun e => e.symm) |>.mp distinct))

end

namespace AliasMap
variable {l : Likeness} {key : String → String} {m m' : AliasMap} {name name' table table' : String}

theorem map_find?_eq_lookup (faithful : ∀ a b, sameName (key a) (key b) = sameName a b) :
    (m.find? name).map l.form = (m.entries.map (l.entry key)).lookup (fold (key name)) := by
  unfold find? entry?
  induction m.entries with
  | nil => rfl
  | cons e rest ih =>
    have same : (fold (key name) == fold (key e.aliasName)) = sameName e.aliasName name := by
      rw [sameName_comm, ← faithful]
      rfl
    rw [List.map_cons, List.lookup_cons, Likeness.entry, same, List.find?_cons]
    cases sameName e.aliasName name with
    | true => rfl
    | false => exact ih

namespace Alike

theorem distinct_right (alike : m.Alike l m') :
    (m'.entries.map (l.entry id)).Pairwise fun e f => e.1 ≠ f.1 :=
  ((perm_of_arranged alike.entries).pairwise_iff fun e => e.symm).mp alike.distinct

/-- Alike names mean alike tables. -/
theorem find? (alike : m.Alike l m') (same : fold (l.rename name) = fold name') :
    (m.find? name).map l.form = (m'.find? name').map l.form := by
  rw [map_find?_eq_lookup l.sameName_rename, map_find?_eq_lookup faithful_id, same]
  exact lookup_perm (perm_of_arranged alike.entries) alike.distinct

/-- Alike maps have alike tables, entry by entry. -/
theorem entryTables (alike : m.Alike l m') :
    arranged l.ordered ((m.entries.map AliasEntry.table).map l.form) =
      arranged l.ordered ((m'.entries.map AliasEntry.table).map l.form) := by
  have tables := arranged_map Prod.snd alike.entries
  rwa [List.map_map, List.map_map] at tables ⊢

theorem entries_eq_nil_iff (alike : m.Alike l m') : m.entries = [] ↔ m'.entries = [] := by
  have same := (perm_of_arranged alike.entries).length_eq
  rw [List.length_map, List.length_map] at same
  rw [← List.length_eq_zero_iff, ← List.length_eq_zero_iff, same]

end Alike

section
variable {key' : String → String} {new new' : AliasEntry} {entries entries' : List AliasEntry}

private theorem entry_fst_beq (faithful : ∀ a b, sameName (key a) (key b) = sameName a b)
    (e f : AliasEntry) :
    ((l.entry key e).1 == (l.entry key f).1) = sameName e.aliasName f.aliasName :=
  faithful e.aliasName f.aliasName

private theorem place_congr (faithful : ∀ a b, sameName (key a) (key b) = sameName a b)
    (faithful' : ∀ a b, sameName (key' a) (key' b) = sameName a b)
    (same : entries.map (l.entry key) = entries'.map (l.entry key'))
    (added : l.entry key new = l.entry key' new') :
    (place new entries).map (l.entry key) = (place new' entries').map (l.entry key') := by
  induction entries generalizing entries' with
  | nil =>
    obtain rfl := List.map_eq_nil_iff.mp same.symm
    exact congrArg (fun pair => [pair]) added
  | cons e rest ih =>
    obtain ⟨e', rest', rfl, atHead, later⟩ := List.map_eq_cons_iff.mp same.symm
    have replaced : sameName e.aliasName new.aliasName = sameName e'.aliasName new'.aliasName := by
      rw [← entry_fst_beq (l := l) faithful, ← entry_fst_beq (l := l) faithful', atHead, added]
    rw [place, place, ← replaced]
    split
    · rw [List.map_cons, List.map_cons, added, later]
    · rw [List.map_cons, List.map_cons, atHead, ih later.symm]

/-- An entry replaces that of its name, whichever place this has. -/
private theorem place_perm (new : AliasEntry)
    (faithful : ∀ a b, sameName (key a) (key b) = sameName a b)
    (distinct : (entries.map (l.entry key)).Pairwise fun e f => e.1 ≠ f.1) :
    ((place new entries).map (l.entry key)).Perm (l.entry key new ::
      (entries.map (l.entry key)).filter fun e => e.1 != (l.entry key new).1) := by
  induction entries with
  | nil => exact .refl _
  | cons e rest ih =>
    obtain ⟨others, later⟩ := List.pairwise_cons.mp distinct
    rw [place]
    cases replaced : sameName e.aliasName new.aliasName with
    | true =>
      have atHead : (l.entry key e).1 = (l.entry key new).1 :=
        beq_iff_eq.mp ((entry_fst_beq faithful e new).trans replaced)
      have kept : (rest.map (l.entry key)).filter (fun e => e.1 != (l.entry key new).1) =
          rest.map (l.entry key) :=
        List.filter_eq_self.mpr fun f member => bne_iff_ne.mpr (atHead ▸ Ne.symm (others f member))
      simp [atHead, kept]
    | false =>
      have atHead : ((l.entry key e).1 != (l.entry key new).1) = true := by
        rw [bne, entry_fst_beq faithful e new, replaced]
        rfl
      simp only [Bool.false_eq_true, if_false, List.map_cons, List.filter_cons, atHead, if_true]
      exact ((ih later).cons _).trans (.swap ..)

end

namespace Alike

/-- Maps stay alike when alike names are added. -/
theorem insert (alike : m.Alike l m') (named : fold (l.rename name) = fold name')
    (means : l.form table = l.form table') : (m.insert name table).Alike l (m'.insert name' table') := by
  have added : l.entry l.rename ⟨name, table⟩ = l.entry id ⟨name', table'⟩ := Prod.ext named means
  have placed := place_perm ⟨name, table⟩ l.sameName_rename alike.distinct
  have placed' := place_perm ⟨name', table'⟩ faithful_id alike.distinct_right
  constructor
  · have same := alike.entries
    rw [arranged_eq_iff] at same ⊢
    cases counts : l.ordered with
    | true =>
      rw [counts] at same
      exact place_congr l.sameName_rename (fun _ _ => rfl) same added
    | false =>
      rw [counts] at same
      refine placed.trans (.trans ?_ placed'.symm)
      rw [added]
      exact (List.Perm.filter _ same).cons _
  · refine (placed.pairwise_iff fun e => e.symm).mpr (List.pairwise_cons.mpr ⟨?_, ?_⟩)
    · intro e kept
      exact Ne.symm (bne_iff_ne.mp (List.mem_filter.mp kept).2)
    · exact alike.distinct.filter _

/-- Names are noted alike where they meant a table before. -/
theorem findings_insertNoting (alike : m.Alike l m') (named : fold (l.rename name) = fold name') :
    (m.insertNoting name table).2.map Diagnostic.finding =
      (m'.insertNoting name' table').2.map Diagnostic.finding := by
  have known := alike.find? named
  unfold insertNoting
  cases first : m.find? name <;> cases second : m'.find? name' <;>
    simp [first, second, duplicate, Diagnostic.about, Diagnostic.of] at known ⊢

theorem declareAll {ds ds' : List AliasEntry} (alike : m.Alike l m')
    (same : ds.map (l.entry l.rename) = ds'.map (l.entry id)) :
    (m.declareAll ds).1.Alike l (m'.declareAll ds').1 ∧
      (m.declareAll ds).2.map Diagnostic.finding = (m'.declareAll ds').2.map Diagnostic.finding := by
  induction ds generalizing ds' m m' with
  | nil =>
    obtain rfl := List.map_eq_nil_iff.mp same.symm
    exact ⟨alike, rfl⟩
  | cons e rest ih =>
    obtain ⟨e', rest', rfl, atHead, later⟩ := List.map_eq_cons_iff.mp same.symm
    obtain ⟨named, means⟩ := Prod.ext_iff.mp atHead.symm
    obtain ⟨maps, notes⟩ := ih (alike.insert named means) later.symm
    refine ⟨maps, ?_⟩
    simp only [AliasMap.declareAll, List.map_append]
    exact congrArg₂ (· ++ ·) (alike.findings_insertNoting named) notes

end Alike

theorem alike_empty (l : Likeness) : empty.Alike l empty := ⟨rfl, .nil⟩

private theorem place_new (faithful : ∀ a b, sameName (key a) (key b) = sameName a b)
    {new : AliasEntry} {entries : List AliasEntry}
    (absent : ∀ e ∈ entries, (l.entry key e).1 ≠ (l.entry key new).1) :
    place new entries = entries ++ [new] := by
  induction entries with
  | nil => rfl
  | cons e rest ih =>
    obtain ⟨atHead, later⟩ := List.forall_mem_cons.mp absent
    have kept : sameName e.aliasName new.aliasName = false :=
      (entry_fst_beq faithful e new).symm.trans (beq_false_of_ne atHead)
    rw [place, kept, ih later]
    rfl

/-- Names that are new and distinct are added at the end, without a note. -/
private theorem declareAll_of_distinct (faithful : ∀ a b, sameName (key a) (key b) = sameName a b)
    {ds : List AliasEntry}
    (distinct : ((m.entries ++ ds).map (l.entry key)).Pairwise fun e f => e.1 ≠ f.1) :
    m.declareAll ds = (⟨m.entries ++ ds⟩, []) := by
  induction ds generalizing m with
  | nil => rw [List.append_nil, declareAll]
  | cons d rest ih =>
    have absent : ∀ e ∈ m.entries, (l.entry key e).1 ≠ (l.entry key d).1 := by
      intro e member
      rw [List.map_append, List.pairwise_append] at distinct
      exact distinct.2.2 _ (List.mem_map_of_mem member) _ (by simp)
    have unknown : m.find? d.aliasName = none := by
      rw [find?, entry?, Option.map_eq_none_iff, List.find?_eq_none]
      intro e member same
      exact absent e member (beq_iff_eq.mp ((entry_fst_beq faithful e d).trans same))
    have placed : m.insert d.aliasName d.table = ⟨m.entries ++ [d]⟩ :=
      congrArg AliasMap.mk (place_new faithful absent)
    have later : (⟨m.entries ++ [d]⟩ : AliasMap).declareAll rest =
        (⟨m.entries ++ [d] ++ rest⟩, []) := ih (by simpa using distinct)
    simp only [declareAll, insertNoting, unknown, placed, later]
    simp

/-- Alike names of tables make alike maps. -/
theorem alike_declareAll {ds ds' : List AliasEntry}
    (same : l.Declares (ds.map (l.entry l.rename)) (ds'.map (l.entry id))) :
    (empty.declareAll ds).1.Alike l (empty.declareAll ds').1 ∧
      (empty.declareAll ds).2.map Diagnostic.finding =
        (empty.declareAll ds').2.map Diagnostic.finding := by
  rcases same with same | ⟨unordered, distinct, same⟩
  · exact (alike_empty l).declareAll same
  · have distinct' : (ds'.map (l.entry id)).Pairwise fun e f => e.1 ≠ f.1 :=
      (same.pairwise_iff fun e => e.symm).mp distinct
    rw [declareAll_of_distinct l.sameName_rename (m := empty) distinct,
      declareAll_of_distinct faithful_id (m := empty) distinct']
    refine ⟨⟨?_, distinct⟩, rfl⟩
    rw [arranged_eq_iff, unordered]
    exact same

section
variable {seen seen' names names' : List String}

private theorem distinctNames_congr (before : seen.map l.form = seen'.map l.form)
    (same : names.map l.form = names'.map l.form) :
    (distinctNames seen names).map l.form = (distinctNames seen' names').map l.form := by
  induction names generalizing seen seen' names' with
  | nil =>
    obtain rfl := List.map_eq_nil_iff.mp same.symm
    rfl
  | cons name rest ih =>
    obtain ⟨name', rest', rfl, atHead, later⟩ := List.map_eq_cons_iff.mp same.symm
    rw [distinctNames, distinctNames, l.hasName_of_forms (.of_eq before) atHead.symm]
    split
    · exact ih before later.symm
    · have kept : (name :: seen).map l.form = (name' :: seen').map l.form :=
        congrArg₂ List.cons atHead.symm before
      exact congrArg₂ List.cons atHead.symm (ih kept later.symm)

/-- Each name is among the distinct ones, in some spelling. -/
private theorem exists_mem_distinctNames (member : name ∈ names) :
    ∃ a ∈ distinctNames [] names, sameName a name = true := by
  cases found : names.find? (sameName name) with
  | none =>
    have absent := List.find?_eq_none.mp found name member
    exact absurd (sameName_refl name) absent
  | some a =>
    have same : sameName name a = true := List.find?_some found
    have first : names.find? (sameName a) = some a := by
      rw [← funext (sameName_congr same)]
      exact found
    exact ⟨a, mem_distinctNames_iff.mpr ⟨rfl, first⟩, (sameName_comm _ _).trans same⟩

end

/-- Alike maps have alike distinct tables. -/
theorem Alike.tables (alike : m.Alike l m') :
    arranged l.ordered (m.tables.map l.form) = arranged l.ordered (m'.tables.map l.form) := by
  have same := alike.entryTables
  rw [arranged_eq_iff] at same ⊢
  cases counts : l.ordered with
  | true =>
    rw [counts] at same
    exact distinctNames_congr rfl same
  | false =>
    rw [counts] at same
    -- The distinct tables are told apart by their forms, so they are compared as sets.
    have forms (m : AliasMap) : (m.tables.map l.form).Nodup := by
      refine List.pairwise_map.mpr (pairwise_distinctNames.imp fun different equal => ?_)
      rw [l.sameName_of_form equal] at different
      cases different
    have members (m : AliasMap) (form : String) :
        form ∈ m.tables.map l.form ↔ form ∈ (m.entries.map AliasEntry.table).map l.form := by
      constructor
      · intro held
        obtain ⟨table, listed, rfl⟩ := List.mem_map.mp held
        exact List.mem_map_of_mem (mem_entries_of_mem_tables listed)
      · intro held
        obtain ⟨table, listed, rfl⟩ := List.mem_map.mp held
        obtain ⟨a, distinct, equal⟩ := exists_mem_distinctNames listed
        exact List.mem_map.mpr ⟨a, distinct, l.form_of_unordered counts a table equal⟩
    refine (List.perm_ext_iff_of_nodup (forms m) (forms m')).mpr fun form => ?_
    rw [members, members]
    exact same.mem_iff

end AliasMap
end TableAccess
