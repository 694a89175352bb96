import TableAccess.Proofs.Access.Contents
import Mathlib.Data.Multiset.Filter

/-! The notes about columns, counted. A column is noted once for each time that a visited
scope mentions it, at a place of an expression or by a wildcard with a qualifier, and only
if it belongs to no single table. Notes about names and about depth are of other kinds, so
nothing else is noted about a column. -/
namespace TableAccess

/-- Whether a note is about a column that belongs to no single table. -/
def Diagnostic.isAboutColumn (d : Diagnostic) : Bool :=
  d.finding == .ambiguousColumn || d.finding == .unknownColumn

/-- A column as it is written. -/
def ColumnRef.written (c : ColumnRef) : String :=
  match c.qualifier with
  | some qualifier => qualifier ++ "." ++ c.name
  | none => c.name

/-- Whether a column belongs to nothing that is known. -/
def Attribution.isUnknown : Attribution → Bool
  | .unknown _ => true
  | _ => false

/-- An unknown column is noted under its written form, and no other is noted as unknown. -/
theorem Attribution.any_note_unknown (a : Attribution) (column : ColumnRef) (written : String) :
    (a.note column).any (fun n => n.finding == .unknownColumn && n.subject == some written) =
      (a.isUnknown && column.written == written) := by
  cases a with
  | table name => rfl
  | ambiguous tables => rfl
  | unknown reason => cases qualified : column.qualifier <;> simp [note, isUnknown,
      ColumnRef.written, qualified, Diagnostic.about, Diagnostic.of]

theorem Attribution.isAboutColumn_of_note {a : Attribution} {column : ColumnRef} {n : Diagnostic}
    (noted : a.note column = some n) : n.isAboutColumn = true := by
  cases a <;> cases noted <;> rfl

/-- The mention of a column in place of an output, which only a wildcard with a qualifier
makes. -/
def Output.column? : Output → Option ColumnRef
  | .wildcard (some qualifier) => some ⟨some qualifier, everyColumn⟩
  | _ => none

/-- The columns that the outputs of a scope mention. -/
def Scope.wildcards (s : Scope) : List ColumnRef :=
  if s.isCombination then [] else s.outputs.filterMap Output.column?

/-- A mention of a column in a visited scope. -/
structure Mention where
  chain : Chain
  column : ColumnRef

namespace Mention

/-- Where a mentioned column belongs. -/
def attribution (r : Resolver) (m : Mention) : Attribution :=
  r.catalog.attributionOf (m.chain.frames r) m.column

/-- The note about a mentioned column. -/
def note (r : Resolver) (m : Mention) : Option Diagnostic := (m.attribution r).note m.column

end Mention

/-- The mentions of columns in the scope at the head of a chain, each as often as it occurs. -/
def Chain.mentions (chain : Chain) : List Mention :=
  (chain.scope.columns ++ chain.scope.wildcards).map (Mention.mk chain)

/-- The mentions of columns in a statement, each as often as it occurs. -/
def Statement.mentions (r : Resolver) (s : Statement) : List Mention :=
  (s.visits r).flatMap Chain.mentions

namespace Findings

/-- The notes about columns. -/
def columnNotes : Findings →+ Multiset Diagnostic where
  toFun found := (notes found).filter fun n => n.isAboutColumn = true
  map_zero' := rfl
  map_add' a b := by rw [map_add, Multiset.filter_add]

theorem columnNotes_findings (a : Reading) :
    columnNotes a.findings = (a.notes.filter Diagnostic.isAboutColumn : Multiset Diagnostic) := by
  refine (Multiset.filter_coe _ a.notes).trans ?_
  simp only [Bool.decide_eq_true]

theorem columnNotes_sum {α : Type} {items : List α} {f : α → Findings}
    (note : α → Option Diagnostic) (each : ∀ a, columnNotes (f a) = ((note a).toList : Multiset _)) :
    columnNotes (items.map f).sum = (items.filterMap note : Multiset Diagnostic) := by
  induction items with
  | nil => rfl
  | cons a rest ih =>
    rw [List.map_cons, List.sum_cons, map_add, each, ih, Multiset.coe_add]
    cases noted : note a <;> simp [noted]

end Findings

section
variable {r : Resolver} {frames : Frames} {depth : Nat}

@[simp] theorem Resolver.columnNotes_cut {what : String} {subject : Option String} :
    Findings.columnNotes (r.cut depth what subject) = 0 := by
  unfold cut
  split <;> rfl

theorem Cte.columnNotes_own {c : Cte} : Findings.columnNotes (c.own r depth) = 0 := by
  rw [own, map_add, Resolver.columnNotes_cut]
  rfl

theorem Derived.columnNotes_own {d : Derived} : Findings.columnNotes (d.own r depth) = 0 :=
  Resolver.columnNotes_cut

private theorem columnNotes_mention (column : ColumnRef) :
    Findings.columnNotes (r.mention frames column).findings =
      (((r.catalog.attributionOf frames column).note column).toList : Multiset Diagnostic) := by
  rw [Findings.columnNotes_findings]
  refine congrArg _ (List.filter_eq_self.mpr fun n noted => ?_)
  exact Attribution.isAboutColumn_of_note (Option.mem_toList.mp noted)

theorem Place.columnNotes_own (p : Place) : Findings.columnNotes (p.own r frames depth) =
    ((p.column?.bind fun column =>
      (r.catalog.attributionOf frames column).note column).toList : Multiset Diagnostic) := by
  match p with
  | .column c => exact columnNotes_mention c
  | .subquery body => exact Resolver.columnNotes_cut
  | .argument call c =>
    rw [Place.own, Findings.columnNotes_findings, r.notes_mentionInCall,
      ← Findings.columnNotes_findings]
    exact columnNotes_mention c

theorem Resolver.columnNotes_output (o : Output) :
    Findings.columnNotes (r.output frames o).findings =
      ((o.column?.bind fun column =>
        (r.catalog.attributionOf frames column).note column).toList : Multiset Diagnostic) := by
  match o with
  | .named name => rfl
  | .wildcard none =>
    have same := congrArg Reading.findings (r.output_all frames)
    exact congrArg Findings.columnNotes same
  | .wildcard (some qualifier) =>
    have same := congrArg Reading.findings (r.output_qualified frames qualifier)
    exact (congrArg Findings.columnNotes same).trans (columnNotes_mention _)

private theorem columnNotes_declared {m : AliasMap} {declarations : List AliasEntry} :
    Findings.columnNotes (Reading.ofNotes (m.declareAll declarations).2).findings = 0 := by
  have none_ : (m.declareAll declarations).2.filter Diagnostic.isAboutColumn = [] := by
    refine List.filter_eq_nil_iff.mpr fun n noted => ?_
    rw [Diagnostic.isAboutColumn, AliasMap.finding_of_mem_declareAll noted]
    decide
  rw [Findings.columnNotes_findings]
  exact congrArg _ none_

private theorem columnNotes_outputs (s : Scope) :
    Findings.columnNotes (if s.isCombination then 0 else (r.outputs frames s.outputs).findings) =
      (s.wildcards.filterMap fun column =>
        (r.catalog.attributionOf frames column).note column : Multiset Diagnostic) := by
  unfold Scope.wildcards
  split
  · rfl
  · rw [r.findings_outputs, Findings.columnNotes_sum _ Resolver.columnNotes_output,
      List.filterMap_filterMap]

end

private theorem columnNotes_visit (r : Resolver) (outer : Chain) (v : Visit) :
    Findings.columnNotes (v.own r outer) =
      ((Chain.mentions (v :: outer)).filterMap (Mention.note r) : Multiset Diagnostic) := by
  have places : Findings.columnNotes
      ((Node.placesOf v.scope.nodes).map (Place.own r (Chain.frames r (v :: outer)) v.depth)).sum =
        (v.scope.columns.filterMap fun column =>
          (r.catalog.attributionOf (Chain.frames r (v :: outer)) column).note column :
            Multiset Diagnostic) := by
    rw [Findings.columnNotes_sum _ Place.columnNotes_own, Scope.columns, Node.columnsOf_eq_places,
      List.filterMap_filterMap]
  have declared : Findings.columnNotes (v.scope.ctes.map (Cte.own r v.depth)).sum = 0 := by
    rw [Findings.columnNotes_sum (fun _ => none) fun c => Cte.columnNotes_own]
    simp
  have sources : Findings.columnNotes (v.scope.derived.map (Derived.own r v.depth)).sum = 0 := by
    rw [Findings.columnNotes_sum (fun _ => none) fun d => Derived.columnNotes_own]
    simp
  have tables : Findings.columnNotes (Reading.ofTables
      ((v.frame r outer).aliases.entries.map AliasEntry.table)).findings = 0 := rfl
  simp only [Visit.own, map_add, places, declared, sources, tables, columnNotes_declared,
    columnNotes_outputs, zero_add, Chain.mentions, List.filterMap_map, List.filterMap_append,
    ← Multiset.coe_add]
  rfl

/-- The notes about columns in one visit are those of its mentions. -/
theorem Chain.columnNotes_own (r : Resolver) (chain : Chain) : Findings.columnNotes (chain.own r) =
    (chain.mentions.filterMap (Mention.note r) : Multiset Diagnostic) := by
  cases chain with
  | nil => rfl
  | cons v outer => exact columnNotes_visit r outer v

/-- **The notes about columns are those of the mentions**, in some order. -/
theorem Statement.column_notes (r : Resolver) (s : Statement) :
    ((s.read r).notes.filter Diagnostic.isAboutColumn).Perm
      ((s.mentions r).filterMap (Mention.note r)) := by
  have visits (chains : List Chain) : Findings.columnNotes (Chain.ownAll r chains) =
      ((chains.flatMap Chain.mentions).filterMap (Mention.note r) : Multiset Diagnostic) := by
    induction chains with
    | nil => rfl
    | cons chain rest ih =>
      rw [Chain.ownAll, List.map_cons, List.sum_cons, ← Chain.ownAll, map_add,
        Chain.columnNotes_own, ih, List.flatMap_cons, List.filterMap_append, Multiset.coe_add]
  have writing : Findings.columnNotes (s.writing r).findings = 0 := rfl
  have all := congrArg Findings.columnNotes (s.read_findings r)
  rw [map_add, writing, zero_add, visits, Findings.columnNotes_findings] at all
  exact Multiset.coe_eq_coe.mp all

/-- Notes of a kind about columns are as many as the mentions that are noted so. -/
theorem Statement.countP_notes (r : Resolver) (s : Statement) {kind : Diagnostic → Bool}
    (about : ∀ n, kind n = true → n.isAboutColumn = true) :
    (s.read r).notes.countP kind = (s.mentions r).countP fun m => (m.note r).any kind := by
  have narrowed : (s.read r).notes.countP kind =
      ((s.read r).notes.filter Diagnostic.isAboutColumn).countP kind := by
    rw [List.countP_filter]
    refine List.countP_congr fun n _ => ?_
    simpa using about n
  rw [narrowed, (s.column_notes r).countP_eq, List.countP_filterMap]
  refine List.countP_congr fun m _ => ?_
  cases m.note r <;> rfl

/-- There are as many notes about an unknown column of some written form as mentions of such
a column in that form. -/
theorem Statement.countP_unknown (r : Resolver) (s : Statement) (written : String) :
    (s.read r).notes.countP
        (fun n => n.finding == .unknownColumn && n.subject == some written) =
      (s.mentions r).countP fun m => (m.attribution r).isUnknown && m.column.written == written := by
  rw [countP_notes]
  · simp only [Mention.note, Attribution.any_note_unknown]
  · intro n kind
    obtain ⟨unknown, _⟩ := Bool.and_eq_true_iff.mp kind
    simp [Diagnostic.isAboutColumn, unknown]

end TableAccess
