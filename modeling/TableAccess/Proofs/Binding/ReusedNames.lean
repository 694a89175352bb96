import TableAccess.Proofs.Binding.Aliases
import Mathlib.Data.List.Induction

/-! Names that are used again. The tables of a scope take their names one after the other, and a name
that is taken a second time means the later table from then on, in the place that it had. So a map
has one entry for each name up to case, in the order in which the names came up, and each table
beyond that has cost an earlier one its name, which is noted where it happens. Tables that no name
means any more are not listed; the others are listed once, in the spelling that comes first. -/
namespace TableAccess

/-- What the tables of a scope are called and what they are, one after the other. -/
def Scope.references (canonical : String → String) (s : Scope) : List AliasEntry :=
  s.tables.map fun t => ⟨t.key, canonical t.name⟩

namespace AliasMap
variable {m : AliasMap} {new e : AliasEntry} {entries declarations : List AliasEntry}
  {seen names : List String} {name table : String}

/-- The names of a map in the form in which they are looked up, in order. -/
def keys (m : AliasMap) : List String := m.entries.map fun e => fold e.aliasName

/-- The note about a declaration whose name has a meaning already: which table had the name until
then, and which has it now. -/
def reuse? (before : List AliasEntry) (e : AliasEntry) : Option Diagnostic :=
  (lastDeclared before e.aliasName).map fun previous => duplicate e.aliasName previous e.table

/-- The notes about names that are used again, each where that happens. -/
def reuses (declarations : List AliasEntry) : List Diagnostic :=
  declarations.zipIdx.filterMap fun (e, place) => reuse? (declarations.take place) e

/-- Whether a map and some notes are what declarations come to when the last one of a name counts. -/
structure Settles (declarations : List AliasEntry) (m : AliasMap) (notes : List Diagnostic) :
    Prop where
  /-- There is one entry for each name, in the order in which the names came up. -/
  keys : m.keys = (declarations.map fun e => fold e.aliasName).eraseDups
  meaning : ∀ name, m.find? name = lastDeclared declarations name
  noted : notes = reuses declarations
  conserved : notes.length + m.entries.length = declarations.length
  /-- The tables that are held are those that some name still means. -/
  held : ∀ table, table ∈ m.entries.map AliasEntry.table ↔ ∃ name, m.find? name = some table
  /-- The tables are listed in order, each where it is held first. -/
  listed : m.tables = (m.entries.map AliasEntry.table).eraseDupsBy sameName
  distinct : m.tables.Pairwise fun a b => sameName a b = false
  spelled : ∀ table, table ∈ m.tables ↔
    (m.entries.map AliasEntry.table).find? (sameName table) = some table

private theorem keys_place : (place new entries).map (fun e => fold e.aliasName) =
    if fold new.aliasName ∈ entries.map (fun e => fold e.aliasName)
    then entries.map fun e => fold e.aliasName
    else entries.map (fun e => fold e.aliasName) ++ [fold new.aliasName] := by
  induction entries with
  | nil => rfl
  | cons head rest ih =>
    rw [place]
    by_cases same : sameName head.aliasName new.aliasName = true
    · have folded := sameName_iff.mp same
      simp [same, folded]
    · have other : ¬ fold new.aliasName = fold head.aliasName :=
        fun equal => same (sameName_iff.mpr equal.symm)
      rw [if_neg same, List.map_cons, ih, List.map_cons]
      simp only [List.mem_cons, other, false_or]
      split <;> rfl

/-- A name that is used for the first time comes last, and otherwise keeps its place. -/
theorem keys_insert : (m.insert name table).keys =
    if fold name ∈ m.keys then m.keys else m.keys ++ [fold name] := keys_place

private theorem eraseDups_concat (keys : List String) (key : String) :
    (keys ++ [key]).eraseDups =
      if key ∈ keys then keys.eraseDups else keys.eraseDups ++ [key] := by
  rw [List.eraseDups_append]
  split
  · rename_i known
    have nothing : [key].removeAll keys = [] := by simp [List.removeAll, known]
    rw [nothing]
    exact List.append_nil _
  · rename_i new
    have itself : [key].removeAll keys = [key] := by simp [List.removeAll, new]
    rw [itself]
    rfl

/-- The names of what is declared are those of the declarations, each where it comes up first. -/
theorem keys_declareAll : (empty.declareAll declarations).1.keys =
    (declarations.map fun e => fold e.aliasName).eraseDups := by
  induction declarations using List.reverseRecOn with
  | nil => rfl
  | append_singleton before e ih =>
    have step : (empty.declareAll (before ++ [e])).1 =
        (empty.declareAll before).1.insert e.aliasName e.table := by
      rw [declareAll_append]
      rfl
    rw [step, keys_insert, ih, List.map_append, List.map_singleton, eraseDups_concat]
    simp only [List.mem_eraseDups]

private theorem length_place : (place new entries).length +
    ((entries.find? fun e => sameName e.aliasName new.aliasName).map AliasEntry.table).toList.length =
      entries.length + 1 := by
  induction entries with
  | nil => rfl
  | cons head rest ih =>
    rw [place]
    cases same : sameName head.aliasName new.aliasName with
    | true => simp [same]
    | false =>
      simp only [same, Bool.false_eq_true, if_false, List.length_cons, List.find?_cons]
      omega

/-- Each declaration adds an entry or a note. -/
theorem length_declareAll :
    (m.declareAll declarations).2.length + (m.declareAll declarations).1.entries.length =
      declarations.length + m.entries.length := by
  induction declarations generalizing m with
  | nil => simp [declareAll]
  | cons e rest ih =>
    have later := ih (m := m.insert e.aliasName e.table)
    have step : (m.insert e.aliasName e.table).entries.length +
        (m.insertNoting e.aliasName e.table).2.length = m.entries.length + 1 := by
      simp only [insertNoting, List.length_map]
      exact length_place
    simp only [declareAll, List.length_append, List.length_cons] at later ⊢
    simp only [insertNoting] at later step ⊢
    omega

private theorem reuses_concat (before : List AliasEntry) (e : AliasEntry) :
    reuses (before ++ [e]) = reuses before ++ (reuse? before e).toList := by
  have earlier : (before.zipIdx.filterMap fun (d, place) => reuse? ((before ++ [e]).take place) d) =
      reuses before := by
    refine List.filterMap_congr fun placed member => ?_
    have inside : placed.2 < before.length := by simpa using List.snd_lt_of_mem_zipIdx member
    exact congrArg (reuse? · placed.1) (List.take_append_of_le_length (Nat.le_of_lt inside))
  rw [reuses, List.zipIdx_append, List.filterMap_append, earlier, List.filterMap_eq_flatMap_toList]
  simp

/-- What is noted of declarations is where a name is used again. -/
theorem notes_declareAll : (empty.declareAll declarations).2 = reuses declarations := by
  induction declarations using List.reverseRecOn with
  | nil => rfl
  | append_singleton before e ih =>
    have meaning : (empty.declareAll before).1.find? e.aliasName = lastDeclared before e.aliasName :=
      find?_declareAll.trans Option.or_none
    rw [declareAll_append, reuses_concat, ih]
    simp only [declareAll, insertNoting, meaning, reuse?, List.append_nil, Option.toList_map]

/-- Distinct names are the first ones of each kind that were not seen before. -/
theorem distinctNames_eq : distinctNames seen names =
    (names.filter fun name => !hasName seen name).eraseDupsBy sameName := by
  induction names generalizing seen with
  | nil => rfl
  | cons name rest ih =>
    rw [distinctNames]
    cases known : hasName seen name with
    | true => simp [known, ih]
    | false =>
      have others : (rest.filter fun n => !hasName (name :: seen) n) =
          (rest.filter fun n => !hasName seen n).filter fun n => decide (sameName n name = false) := by
        rw [List.filter_filter]
        refine List.filter_congr fun n _ => ?_
        rw [hasName, List.any_cons, ← hasName, Bool.not_or]
        cases sameName n name <;> simp
      simp only [Bool.false_eq_true, if_false, ih, others]
      rw [List.filter_cons_of_pos (by simp [known]), List.eraseDupsBy_cons]

/-- The tables of a map are those of its entries, each where it comes first. -/
theorem tables_eq : m.tables = (m.entries.map AliasEntry.table).eraseDupsBy sameName := by
  rw [tables, distinctNames_eq, List.filter_eq_self.mpr]
  intro name _
  rfl

end AliasMap
end TableAccess
