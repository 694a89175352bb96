import TableAccess.Proofs.Access.ColumnNotes
import TableAccess.Proofs.Binding.Assembly
import TableAccess.Proofs.Binding.Nesting

/-! What a bound on the depth takes away from a scope. A scope that lies too deep is noted and
leaves nothing else behind, just as the empty scope in its place would. One level of a tree
therefore reads as if its bodies were replaced, as soon as each body does, and the notes about
depth are those of the bodies, in order; what holds of a whole tree follows level by level. -/
namespace TableAccess

/-- Whether a note is about a scope that was left out. -/
def Diagnostic.isCut (d : Diagnostic) : Bool := d.finding == .depthExceeded

namespace Reading

/-- What was read, without the notes about scopes that were left out. -/
def quiet (a : Reading) : Reading := { a with notes := a.notes.filter fun n => !n.isCut }

/-- The notes about scopes that were left out. -/
def cuts (a : Reading) : List Diagnostic := a.notes.filter Diagnostic.isCut

/-- Whether no scope was left out. -/
def Complete (a : Reading) : Prop := ∀ n ∈ a.notes, n.isCut = false

theorem quiet_append (a b : Reading) : (a ++ b).quiet = a.quiet ++ b.quiet :=
  congrArg (Reading.mk _ _ · []) (List.filter_append ..)

theorem cuts_append (a b : Reading) : (a ++ b).cuts = a.cuts ++ b.cuts := List.filter_append ..

@[simp] theorem cuts_empty : empty.cuts = [] := rfl

theorem complete_iff_cuts {a : Reading} : a.Complete ↔ a.cuts = [] := by
  simp [Complete, cuts, List.filter_eq_nil_iff]

namespace Complete
variable {a : Reading}

theorem cuts_eq (complete : a.Complete) : a.cuts = [] := complete_iff_cuts.mp complete

theorem quiet_eq (complete : a.Complete) : a.quiet = a := by
  have same : a.notes.filter (fun n => !n.isCut) = a.notes :=
    List.filter_eq_self.mpr fun n noted => by rw [complete n noted, Bool.not_false]
  rw [quiet, same]

end Complete

theorem complete_ofTables (tables : List String) : (ofTables tables).Complete := by
  intro n noted
  cases noted

/-- What is noted about names is not about depth. -/
theorem complete_insertNoting {m : AliasMap} {name table : String} :
    (ofNotes (m.insertNoting name table).2).Complete := by
  intro n noted
  rw [Diagnostic.isCut, AliasMap.finding_of_mem_insertNoting noted]
  rfl

theorem complete_namesOfTables {canonical : String → String} {tables : List TableRef} :
    (ofNotes (AliasMap.ofTables canonical tables).2).Complete := by
  intro n noted
  rw [AliasMap.ofTables, AliasMap.addTables_eq_declareAll] at noted
  rw [Diagnostic.isCut, AliasMap.finding_of_mem_declareAll noted]
  rfl

end Reading

namespace Resolver
variable (r : Resolver) (frames : Frames)

/-- The note about a scope that nests too deeply. -/
def cutNote (inner : Nested) : Diagnostic :=
  { Diagnostic.of .depthExceeded (inner.what ++ " nested deeper than " ++ toString r.maxDepth
      ++ " levels was not resolved") with subject := inner.subject }

theorem complete_mention (column : ColumnRef) : (r.mention frames column).Complete := by
  intro n noted
  have about := Attribution.isAboutColumn_of_note (Option.mem_toList.mp noted)
  cases found : n.finding <;> simp_all [Diagnostic.isCut, Diagnostic.isAboutColumn]

theorem complete_mentionInCall (call : String) (column : ColumnRef) :
    (r.mentionInCall frames call column).Complete := by
  rw [Reading.Complete, r.notes_mentionInCall]
  exact r.complete_mention frames column

theorem complete_write (table : String) (columns : List String) :
    (r.write table columns).Complete := by
  intro n noted
  cases noted

theorem complete_outputs (os : List Output) : (r.outputs frames os).Complete := by
  intro n noted
  have found : n ∈ Findings.notes (r.outputs frames os).findings := noted
  rw [r.findings_outputs, Findings.mem_sum] at found
  obtain ⟨o, _, found⟩ := found
  have found : n ∈ (r.output frames o).notes := found
  match o with
  | .named name => cases found
  | .wildcard none =>
    rw [r.notes_output_all] at found
    cases found
  | .wildcard (some qualifier) =>
    rw [r.notes_output_qualified] at found
    exact r.complete_mention frames _ n found

/-- Whether bodies at a depth are read under another bound, with another scope in the place of
each, as they are read under this one without the notes about depth. -/
def Prunes (r r' : Resolver) (f : Scope → Scope) (depth : Nat) : Prop :=
  ∀ what subject ctes outer body, r'.readBody what subject ctes outer depth (f body) =
    (r.readBody what subject ctes outer depth body).quiet

end Resolver

/-- A source as it is read, without the notes about depth. -/
def Source.quiet (source : Source) : Source := { source with reading := source.reading.quiet }

/-- Sources as they are read, without the notes about depth. -/
def Sources.quiet (sources : Sources) : Sources := { sources with reading := sources.reading.quiet }

section
variable {catalog : Catalog} {d e depth : Nat} {f : Scope → Scope} {ctes : LocalTables}
  {outer : Frames}

private theorem Cte.readAll_quiet (prunes : Resolver.Prunes ⟨catalog, d⟩ ⟨catalog, e⟩ f depth)
    (declared : List Cte) :
    Cte.readAll ⟨catalog, e⟩ ctes outer depth (declared.map (Cte.mapBody f)) =
      ((Cte.readAll ⟨catalog, d⟩ ctes outer depth declared).1,
        (Cte.readAll ⟨catalog, d⟩ ctes outer depth declared).2.quiet) := by
  induction declared generalizing ctes with
  | nil => rfl
  | cons c rest ih =>
    have inner := prunes "CTE" (some c.aliasName) ctes outer c.body
    have known (body : Reading) : { c with body := f c.body }.schema body.quiet = c.schema body :=
      rfl
    simp only [List.map_cons, Cte.readAll_cons, Cte.mapBody, inner, known, ih,
      Reading.quiet_append, (Reading.complete_ofTables [c.aliasName]).quiet_eq]

private theorem Derived.readAll_quiet
    (prunes : Resolver.Prunes ⟨catalog, d⟩ ⟨catalog, e⟩ f depth) (declared : List Derived) :
    Derived.readAll ⟨catalog, e⟩ ctes outer depth (declared.map (Derived.mapBody f)) =
      (Derived.readAll ⟨catalog, d⟩ ctes outer depth declared).map Source.quiet := by
  rw [Derived.readAll_eq_map, Derived.readAll_eq_map, List.map_map, List.map_map]
  refine List.map_congr_left fun source _ => ?_
  have inner := prunes "derived table" source.aliasName ctes outer source.body
  exact congrArg source.source inner

private theorem Sources.add_quiet (sources : Sources) (source : Source) :
    sources.quiet.add source.quiet = (sources.add source).quiet := by
  cases named : source.aliasName with
  | none => simp only [add, Source.quiet, named, Sources.quiet, Reading.quiet_append]
  | some name =>
    simp only [add, Source.quiet, named, Sources.quiet, Reading.quiet_append,
      Reading.complete_insertNoting.quiet_eq]

private theorem Sources.foldl_quiet (all : List Source) (start : Sources) :
    (all.map Source.quiet).foldl Sources.add start.quiet = (all.foldl Sources.add start).quiet := by
  induction all generalizing start with
  | nil => rfl
  | cons source rest ih => rw [List.map_cons, List.foldl_cons, add_quiet, ih, List.foldl_cons]

private theorem Place.readAll_quiet {frames : Frames}
    (prunes : Resolver.Prunes ⟨catalog, d⟩ ⟨catalog, e⟩ f depth) (places : List Place) :
    Place.readAll ⟨catalog, e⟩ frames ctes depth (places.map (Place.mapBody f)) =
      (Place.readAll ⟨catalog, d⟩ frames ctes depth places).quiet := by
  induction places with
  | nil => rfl
  | cons p rest ih =>
    have atHead : (p.mapBody f).read ⟨catalog, e⟩ frames ctes depth =
        (p.read ⟨catalog, d⟩ frames ctes depth).quiet := by
      match p with
      | .column c => exact (Resolver.complete_mention ⟨catalog, d⟩ frames c).quiet_eq.symm
      | .argument call c =>
        exact (Resolver.complete_mentionInCall ⟨catalog, d⟩ frames call c).quiet_eq.symm
      | .subquery body => exact prunes "subquery" none ctes frames body
    rw [List.map_cons, readAll, readAll, atHead, ih, Reading.quiet_append]

private theorem Sources.finish_quiet (sources : Sources) (inside given : Reading) :
    sources.quiet.finish inside.quiet given.quiet = (sources.finish inside given).quiet := by
  have before : sources.reading.quiet ++ .ofTables (sources.aliases.entries.map AliasEntry.table)
      ++ inside.quiet = (sources.reading
        ++ .ofTables (sources.aliases.entries.map AliasEntry.table) ++ inside).quiet := by
    rw [Reading.quiet_append, Reading.quiet_append, (Reading.complete_ofTables _).quiet_eq]
  simp only [finish, Sources.quiet, before]
  split
  · rfl
  · rw [← Reading.quiet_append]
    rfl

/-- A scope with other scopes in it is read without the notes about depth if the scopes in it
are. -/
private theorem Scope.read_quiet (prunes : Resolver.Prunes ⟨catalog, d⟩ ⟨catalog, e⟩ f depth)
    (s : Scope) : (s.mapBodies f).read ⟨catalog, e⟩ ctes outer depth =
      (s.read ⟨catalog, d⟩ ctes outer depth).quiet := by
  have declared : Cte.readAll ⟨catalog, e⟩ ctes outer depth (s.mapBodies f).ctes =
      (s.visible ⟨catalog, d⟩ ctes outer depth,
        (Cte.readAll ⟨catalog, d⟩ ctes outer depth s.ctes).2.quiet) :=
    Cte.readAll_quiet prunes s.ctes
  have visible : (s.mapBodies f).visible ⟨catalog, e⟩ ctes outer depth =
      s.visible ⟨catalog, d⟩ ctes outer depth := by rw [Scope.visible, declared]
  have sources : (s.mapBodies f).sources ⟨catalog, e⟩ ctes outer depth =
      (s.sources ⟨catalog, d⟩ ctes outer depth).quiet := by
    rw [Scope.sources, Scope.sources, visible, declared, ← Sources.foldl_quiet, Sources.quiet,
      Reading.quiet_append, Reading.complete_namesOfTables.quiet_eq, ← Derived.readAll_quiet prunes]
    rfl
  have frame : (s.mapBodies f).frame ⟨catalog, e⟩ ctes outer depth =
      s.frame ⟨catalog, d⟩ ctes outer depth := by
    rw [Scope.frame, Scope.frame, sources, visible]
    rfl
  have given (frames : Frames) : Resolver.outputs ⟨catalog, e⟩ frames s.outputs =
      (Resolver.outputs ⟨catalog, d⟩ frames s.outputs).quiet :=
    (Resolver.complete_outputs ⟨catalog, d⟩ frames s.outputs).quiet_eq.symm
  rw [Scope.read_eq_finish, Scope.read_eq_finish, sources, frame, visible, ← Sources.finish_quiet,
    ← given, ← Place.readAll_quiet prunes, ← Node.placesOf_mapBodies]
  rfl

/-- What is read of a tree up to a bound is what is read of the tree that is cut off there. -/
theorem Scope.read_clip {n : Nat} (s : Scope) (level : depth + n = d) (above : d < e) :
    (s.clip (n + 1)).read ⟨catalog, e⟩ ctes outer depth =
      (s.read ⟨catalog, d⟩ ctes outer depth).quiet := by
  induction n generalizing s ctes outer depth with
  | zero =>
    -- The bodies are left out under the first bound, and are empty under the second.
    refine Scope.read_quiet (fun what subject ctes outer body => ?_) s
    have within : depth < e := by omega
    have deep : ¬ depth < d := by omega
    rw [Resolver.readBody, Resolver.readBody, if_pos within, if_neg deep]
    rfl
  | succ n ih =>
    refine Scope.read_quiet (fun what subject ctes outer body => ?_) s
    have under : depth < d := by omega
    have within : depth < e := by omega
    rw [Resolver.readBody, Resolver.readBody, if_pos within, if_pos under]
    exact ih body (by omega)

end

section
variable {r : Resolver} {depth : Nat} {g : Nested → List Diagnostic} {ctes : LocalTables}
  {outer : Frames}

/-- Whether bodies at a depth are read with given notes about depth. -/
def Resolver.Cuts (r : Resolver) (g : Nested → List Diagnostic) (depth : Nat) : Prop :=
  ∀ (inner : Nested) ctes outer,
    (r.readBody inner.what inner.subject ctes outer depth inner.body).cuts = g inner

private theorem Cte.readAll_cuts (cuts : r.Cuts g depth) (declared : List Cte) :
    (Cte.readAll r ctes outer depth declared).2.cuts =
      declared.flatMap fun c => g ⟨"CTE", some c.aliasName, c.body⟩ := by
  induction declared generalizing ctes with
  | nil => rfl
  | cons c rest ih =>
    have inner := cuts ⟨"CTE", some c.aliasName, c.body⟩ ctes outer
    simp only [Cte.readAll_cons, Reading.cuts_append, inner, ih, List.flatMap_cons,
      (Reading.complete_ofTables [c.aliasName]).cuts_eq, List.append_nil]

private theorem Derived.readAll_cuts (cuts : r.Cuts g depth) (declared : List Derived) :
    ((Derived.readAll r ctes outer depth declared).flatMap fun source => source.reading.cuts) =
      declared.flatMap fun d => g ⟨"derived table", d.aliasName, d.body⟩ := by
  rw [Derived.readAll_eq_map, List.flatMap_map]
  exact List.flatMap_congr fun d _ => cuts ⟨"derived table", d.aliasName, d.body⟩ ctes outer

private theorem Sources.foldl_cuts (all : List Source) (start : Sources) :
    (all.foldl Sources.add start).reading.cuts =
      start.reading.cuts ++ all.flatMap fun source => source.reading.cuts := by
  induction all generalizing start with
  | nil => exact (List.append_nil _).symm
  | cons source rest ih =>
    have added : (start.add source).reading.cuts = start.reading.cuts ++ source.reading.cuts := by
      cases named : source.aliasName with
      | none => simp only [add, named, Reading.cuts_append]
      | some name => simp only [add, named, Reading.cuts_append, List.append_nil,
          Reading.complete_insertNoting.cuts_eq]
    rw [List.foldl_cons, ih, added, List.flatMap_cons, List.append_assoc]

private theorem Place.readAll_cuts {frames : Frames} (cuts : r.Cuts g depth) (places : List Place) :
    (Place.readAll r frames ctes depth places).cuts =
      (places.filterMap Place.nested?).flatMap g := by
  induction places with
  | nil => rfl
  | cons p rest ih =>
    rw [readAll, Reading.cuts_append, ih]
    cases p with
    | column c =>
      rw [Place.read, (r.complete_mention frames c).cuts_eq]
      rfl
    | argument call c =>
      rw [Place.read, (r.complete_mentionInCall frames call c).cuts_eq]
      rfl
    | subquery body =>
      have inner : (Place.read r frames ctes depth (.subquery body)).cuts =
          g ⟨"subquery", none, body⟩ := cuts ⟨"subquery", none, body⟩ ctes frames
      rw [inner]
      rfl

private theorem Sources.finish_cuts {given : Reading} (complete : given.Complete)
    (sources : Sources) (inside : Reading) :
    (sources.finish inside given).cuts = sources.reading.cuts ++ inside.cuts := by
  have before : (sources.reading ++ .ofTables (sources.aliases.entries.map AliasEntry.table)
      ++ inside).cuts = sources.reading.cuts ++ inside.cuts := by
    rw [Reading.cuts_append, Reading.cuts_append,
      (Reading.complete_ofTables _).cuts_eq, List.append_nil]
  unfold finish
  split
  · exact before
  · refine (Reading.cuts_append _ given).trans ?_
    rw [before, complete.cuts_eq, List.append_nil]

/-- The notes about depth in a scope are those of the scopes directly in it, in order. -/
private theorem Scope.read_cuts (cuts : r.Cuts g depth) (s : Scope) :
    (s.read r ctes outer depth).cuts = s.nested.flatMap g := by
  have sources : (s.sources r ctes outer depth).reading.cuts =
      (s.ctes.flatMap fun c => g ⟨"CTE", some c.aliasName, c.body⟩)
        ++ s.derived.flatMap fun d => g ⟨"derived table", d.aliasName, d.body⟩ := by
    simp only [Scope.sources, Sources.foldl_cuts, Derived.readAll_cuts cuts, Reading.cuts_append,
      Cte.readAll_cuts cuts, Reading.complete_namesOfTables.cuts_eq, List.append_nil]
  rw [Scope.read_eq_finish, Sources.finish_cuts (r.complete_outputs _ _), sources,
    Place.readAll_cuts cuts]
  simp only [nested, List.flatMap_append, List.flatMap_map]

/-- A scope is left out for each that lies just below the bound, and for no other. -/
theorem Scope.cuts_read {n : Nat} (s : Scope) (level : depth + n = r.maxDepth) :
    (s.read r ctes outer depth).cuts = (s.nestedAt n).map r.cutNote := by
  induction n generalizing s ctes outer depth with
  | zero =>
    have deep : ¬ depth < r.maxDepth := by omega
    have notes : r.Cuts (fun inner => [r.cutNote inner]) depth := fun inner ctes outer => by
      rw [Resolver.readBody, if_neg deep]
      rfl
    rw [Scope.read_cuts notes, nestedAt, List.map_eq_flatMap]
  | succ n ih =>
    have under : depth < r.maxDepth := by omega
    have notes : r.Cuts (fun inner => (inner.body.nestedAt n).map r.cutNote) depth :=
      fun inner ctes outer => by
        rw [Resolver.readBody, if_pos under]
        exact ih inner.body (by omega)
    rw [Scope.read_cuts notes, nestedAt, List.map_flatMap]

end

end TableAccess
