import TableAccess.Proofs.Binding.Assembly

/-! The columns that a scope gives. They are those of its own outputs, with the known columns of its tables for
each wildcard, unless the scope has no source but subqueries without a name: then it gives what the first of
these gives, and its own outputs play no part. -/
namespace TableAccess

/-- The columns that an output stands for, given those of all sources and those of each one by its name. -/
def Output.columns (all : List String) (ofSource : String → List String) : Output → List String
  | .named name => [name]
  | .wildcard none => all
  | .wildcard (some qualifier) => ofSource qualifier

namespace Resolver
variable {r : Resolver} {frames : Frames}

/-- The known columns of the tables that a scope has names for, each table once. -/
def namedColumns (r : Resolver) (frames : Frames) : List String :=
  frames.aliases.tables.flatMap (r.knownColumns frames)

/-- The known columns of the source of a name. -/
def sourceColumns (r : Resolver) (frames : Frames) (name : String) : List String :=
  match frames.aliases.find? name with
  | some table => r.knownColumns frames table
  | none => []

theorem outputs_output (o : Output) : (r.output frames o).outputs =
    o.columns (r.namedColumns frames) (r.sourceColumns frames) := by
  match o with
  | .named name => rfl
  | .wildcard none => exact List.flatMap_map _ _ _
  | .wildcard (some qualifier) =>
    cases found : frames.aliases.find? qualifier <;>
      simp only [output, Output.columns, sourceColumns, found] <;> rfl

theorem outputs_outputs (os : List Output) : (r.outputs frames os).outputs =
    os.flatMap (Output.columns (r.namedColumns frames) (r.sourceColumns frames)) := by
  have each : (fun o => (r.output frames o).outputs) =
      Output.columns (r.namedColumns frames) (r.sourceColumns frames) := funext fun o => r.outputs_output o
  rw [← each]
  exact List.flatMap_map _ _ _

end Resolver

/-- The first source without a name gives the columns of the whole. -/
theorem Sources.branch_foldl (added : List Source) (start : Sources) :
    (added.foldl Sources.add start).branch =
      start.branch.or ((added.filter fun source => source.aliasName.isNone).map Source.columns).head? := by
  induction added generalizing start with
  | nil => exact Option.or_none.symm
  | cons source rest ih =>
    rw [List.foldl_cons, ih]
    cases named : source.aliasName with
    | some name => rw [List.filter_cons_of_neg (by simp [named])]; simp [add, named]
    | none =>
      rw [List.filter_cons_of_pos (by simp [named])]
      cases before : start.branch <;> simp [add, named, before]

namespace Scope
variable {r : Resolver} {ctes : LocalTables} {outer : Frames} {depth : Nat} {s : Scope}

/-- The columns that each of the subqueries without a name among the sources of a scope is known to have. -/
def unnamedColumns (r : Resolver) (ctes : LocalTables) (outer : Frames) (depth : Nat) (s : Scope) :
    List (List String) :=
  (s.derived.filter fun d => d.aliasName.isNone).map fun d =>
    (r.readBody "derived table" none (s.visible r ctes outer depth) outer depth d.body).outputs

theorem branch_sources (s : Scope) :
    (s.sources r ctes outer depth).branch = (s.unnamedColumns r ctes outer depth).head? := by
  have columns (declared : List Derived) (visible : LocalTables) :
      (((Derived.readAll r visible outer depth declared).filter fun source =>
        source.aliasName.isNone).map Source.columns) =
      (declared.filter fun d => d.aliasName.isNone).map fun d =>
        (r.readBody "derived table" none visible outer depth d.body).outputs := by
    rw [Derived.readAll_eq_map]
    induction declared with
    | nil => rfl
    | cons d rest ih =>
      obtain ⟨_ | name, _, _⟩ := d
      · exact congrArg (List.cons _) ih
      · exact ih
  simp only [sources, Sources.branch_foldl, columns, Option.none_or]
  rfl

theorem entries_frame_eq_nil :
    (s.frame r ctes outer depth).aliases.entries = [] ↔
      s.tables = [] ∧ s.derived.filterMap Derived.aliasName = [] := by
  rw [s.frame_aliases, AliasMap.entries_declareAll_eq_nil]
  simp [declarations, AliasMap.empty]

/-- A combination has no name for a source, and gives what its first side gives. -/
theorem sources_of_isCombination (combination : s.isCombination = true) :
    (s.sources r ctes outer depth).aliases.entries = [] ∧
      ∃ columns, (s.sources r ctes outer depth).branch = some columns := by
  obtain ⟨_, tables, derived, _, _⟩ := s
  simp only [isCombination, Bool.and_eq_true, List.isEmpty_iff, Bool.not_eq_true',
    List.isEmpty_eq_false_iff, List.all_eq_true] at combination
  obtain ⟨⟨rfl, some⟩, unnamed⟩ := combination
  refine ⟨entries_frame_eq_nil.mpr ⟨rfl, List.filterMap_eq_nil_iff.mpr fun d held => ?_⟩, ?_⟩
  · exact Option.isNone_iff_eq_none.mp (unnamed d held)
  · rw [branch_sources, unnamedColumns, List.filter_eq_self.mpr unnamed]
    obtain ⟨first, rest, rfl⟩ := List.exists_cons_of_ne_nil some
    exact ⟨_, rfl⟩

/-- **A scope gives its own outputs unless all its sources are subqueries without a name.** -/
theorem outputs_read (s : Scope) : (s.read r ctes outer depth).outputs =
    let own := s.outputs.flatMap
      (Output.columns (r.namedColumns (s.frame r ctes outer depth :: outer))
        (r.sourceColumns (s.frame r ctes outer depth :: outer)))
    if s.tables = [] ∧ s.derived.filterMap Derived.aliasName = [] then
      (s.unnamedColumns r ctes outer depth).headD own
    else own := by
  have unnamed : (s.sources r ctes outer depth).aliases.entries = [] ↔ _ := entries_frame_eq_nil
  rw [read_eq_finish, Sources.finish, branch_sources, ← Resolver.outputs_outputs]
  cases branch : s.unnamedColumns r ctes outer depth with
  | nil => exact (ite_self _).symm
  | cons first rest =>
    split
    · next columns entries first' none_ =>
      rw [if_pos (unnamed.mp none_)]
      exact (Option.some.inj first').symm
    · next named =>
      rw [if_neg fun none_ => named first rfl (unnamed.mpr none_)]

end Scope
end TableAccess
