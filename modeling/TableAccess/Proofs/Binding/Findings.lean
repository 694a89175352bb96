import TableAccess.Proofs.Binding.Visits
import Mathlib.Algebra.Group.Prod
import Mathlib.Algebra.Order.Group.Multiset
import Mathlib.Algebra.BigOperators.Group.List.Basic
import Mathlib.Tactic.Abel

/-! Everything that is found in a scope is found at one of its visits. Each visit finds
what its own declarations, places and outputs give in the names of its chain; the findings
of a whole tree are the sum of those of its visits, each counted as often as it occurs.
The order in which visits are nested into each other therefore never loses, repeats or
changes a finding. -/
namespace TableAccess

/-- Tables, pairs of a table and a column, and notes, in any order but each as often as it
was found. -/
abbrev Findings := Multiset String × Multiset (String × String) × Multiset Diagnostic

namespace Reading

/-- What a reading found. -/
def findings (a : Reading) : Findings := (a.tables, a.columns, a.notes)

@[simp] theorem findings_append (a b : Reading) : (a ++ b).findings = a.findings + b.findings := rfl

@[simp] theorem findings_empty : Reading.empty.findings = 0 := rfl

theorem findings_ofNotes_append (a b : List Diagnostic) :
    (ofNotes (a ++ b)).findings = (ofNotes a).findings + (ofNotes b).findings := rfl

theorem findings_foldl (start : Reading) (all : List Reading) :
    (all.foldl Reading.append start).findings = start.findings + (all.map findings).sum := by
  induction all generalizing start with
  | nil => simp
  | cons a rest ih =>
    rw [List.foldl_cons, ih, List.map_cons, List.sum_cons, ← add_assoc]
    rfl

end Reading

namespace Resolver
variable (r : Resolver)

/-- What a body is found to hold by its declaration alone: nothing, or that it lies too
deep to be read. -/
def cut (depth : Nat) (what : String) (subject : Option String) : Findings :=
  if depth < r.maxDepth then 0 else (r.tooDeep what subject).findings

theorem findings_body (depth : Nat) (what : String) (subject : Option String) (body : Reading) :
    (if depth < r.maxDepth then body else r.tooDeep what subject).findings =
      r.cut depth what subject + (if depth < r.maxDepth then body.findings else 0) := by
  unfold cut
  split <;> simp

theorem findings_outputs (frames : Frames) (outputs : List Output) :
    (r.outputs frames outputs).findings =
      (outputs.map fun o => (r.output frames o).findings).sum := by
  have all := Reading.findings_foldl .empty (outputs.map (r.output frames))
  rw [Reading.findings_empty, zero_add, List.map_map] at all
  exact all

end Resolver

/-- What the declaration of a named query finds, its body apart. -/
def Cte.own (r : Resolver) (depth : Nat) (c : Cte) : Findings :=
  r.cut depth "CTE" (some c.aliasName) + (Reading.ofTables [c.aliasName]).findings

/-- What the declaration of a subquery finds, its body apart. -/
def Derived.own (r : Resolver) (depth : Nat) (d : Derived) : Findings :=
  r.cut depth "derived table" d.aliasName

/-- What a place finds, the body of a subquery apart. -/
def Place.own (r : Resolver) (frames : Frames) (depth : Nat) : Place → Findings
  | .column c => (r.mention frames c).findings
  | .argument call c => (r.mentionInCall frames call c).findings
  | .subquery _ => r.cut depth "subquery" none

namespace Scope

/-- The names that a scope declares: those of its tables, then those of its subqueries. -/
def declarations (canonical : String → String) (s : Scope) : List AliasEntry :=
  (s.tables.map fun t => ⟨t.key, canonical t.name⟩)
    ++ (s.derived.filterMap Derived.aliasName).map fun name => ⟨name, name⟩

/-- Whether a scope has only sides of a set operation for its sources. It gives what its
first side gives, and its own outputs are not read. -/
def isCombination (s : Scope) : Bool :=
  s.tables.isEmpty && !s.derived.isEmpty && s.derived.all fun d => d.aliasName.isNone

end Scope

namespace Visit
variable (r : Resolver) (outer : Chain) (v : Visit)

/-- What names mean in the expressions of a visited scope. -/
def frame : Frame := v.scope.frame r v.ctes (outer.frames r) v.depth

/-- The names that a visited scope declares, its tables as they are known where it stands. -/
def declarations : List AliasEntry :=
  v.scope.declarations (r.catalog.canonical (v.visible r outer))

/-- What a visit finds by itself. -/
def own : Findings :=
  (v.scope.ctes.map (Cte.own r v.depth)).sum
    + (v.scope.derived.map (Derived.own r v.depth)).sum
    + (Reading.ofNotes (AliasMap.empty.declareAll (v.declarations r outer)).2).findings
    + (Reading.ofTables ((v.frame r outer).aliases.entries.map AliasEntry.table)).findings
    + ((Node.placesOf v.scope.nodes).map (Place.own r (Chain.frames r (v :: outer)) v.depth)).sum
    + if v.scope.isCombination then 0
      else (r.outputs (Chain.frames r (v :: outer)) v.scope.outputs).findings

end Visit

/-- What the visit at the head of a chain finds by itself. -/
def Chain.own (r : Resolver) : Chain → Findings
  | [] => 0
  | v :: outer => v.own r outer

/-- What several visits find, one after the other. -/
def Chain.ownAll (r : Resolver) (chains : List Chain) : Findings := (chains.map (Chain.own r)).sum

@[simp] theorem Chain.ownAll_cons {r : Resolver} {v : Visit} {outer : Chain} {chains : List Chain} :
    Chain.ownAll r ((v :: outer) :: chains) = v.own r outer + Chain.ownAll r chains := by
  simp [ownAll, own]

@[simp] theorem Chain.ownAll_append {r : Resolver} {first second : List Chain} :
    Chain.ownAll r (first ++ second) = Chain.ownAll r first + Chain.ownAll r second := by
  simp [ownAll]

/-- A scope is accounted for when what reading it finds is found at its visits. -/
def Scope.Accounted (r : Resolver) (s : Scope) : Prop := ∀ ctes (outer : Chain) depth,
  (s.read r ctes (outer.frames r) depth).findings = Chain.ownAll r (s.visits r ctes outer depth)

section
variable {r : Resolver} {ctes : LocalTables} {outer : Chain} {depth : Nat}

private theorem body_findings {body : Scope} (accounted : body.Accounted r) (what : String)
    (subject : Option String) :
    (if depth < r.maxDepth then body.read r ctes (outer.frames r) (depth + 1)
      else r.tooDeep what subject).findings =
    r.cut depth what subject +
      Chain.ownAll r (if depth < r.maxDepth then body.visits r ctes outer (depth + 1) else []) := by
  rw [r.findings_body, accounted ctes outer]
  split <;> rfl

private theorem cte_findings {declared : List Cte} (bodies : ∀ c ∈ declared, c.body.Accounted r) :
    (Cte.readAll r ctes (outer.frames r) depth declared).2.findings =
      (declared.map (Cte.own r depth)).sum +
        Chain.ownAll r (Cte.visitsAll r ctes outer depth declared) := by
  induction declared generalizing ctes with
  | nil => rfl
  | cons c rest ih =>
    obtain ⟨name, columns, body⟩ := c
    obtain ⟨first, others⟩ := List.forall_mem_cons.mp bodies
    simp only [Cte.readAll, Reading.findings_append, ih others, body_findings first,
      Cte.visitsAll, Chain.ownAll_append, List.map_cons, List.sum_cons, Cte.own]
    abel

private theorem derived_findings {declared : List Derived}
    (bodies : ∀ d ∈ declared, d.body.Accounted r) :
    ((Derived.readAll r ctes (outer.frames r) depth declared).map
        fun source => source.reading.findings).sum =
      (declared.map (Derived.own r depth)).sum +
        Chain.ownAll r (Derived.visitsAll r ctes outer depth declared) := by
  induction declared with
  | nil => rfl
  | cons d rest ih =>
    obtain ⟨name, columns, body⟩ := d
    obtain ⟨first, others⟩ := List.forall_mem_cons.mp bodies
    simp only [Derived.readAll, ih others, body_findings first, Derived.visitsAll,
      Chain.ownAll_append, List.map_cons, List.sum_cons, Derived.own]
    abel

/-- What is read at a place. -/
def Place.read (r : Resolver) (frames : Frames) (ctes : LocalTables) (depth : Nat) :
    Place → Reading
  | .column c => r.mention frames c
  | .argument call c => r.mentionInCall frames call c
  | .subquery body =>
    if depth < r.maxDepth then body.read r ctes frames (depth + 1) else r.tooDeep "subquery" none

/-- What several places find, one after the other. -/
def Place.findingsOf (r : Resolver) (frames : Frames) (ctes : LocalTables) (depth : Nat)
    (places : List Place) : Findings :=
  (places.map fun p => (p.read r frames ctes depth).findings).sum

section
variable {frames : Frames}

mutual

private theorem node_findings :
    ∀ n : Node, (n.read r frames ctes depth).findings =
      Place.findingsOf r frames ctes depth n.places
  | .column c => by simp [Node.read, Node.places, Place.findingsOf, Place.read]
  | .call _ text arguments => by rw [Node.read, Node.places, argument_findings text arguments]
  | .subquery body => by simp [Node.read, Node.places, Place.findingsOf, Place.read]

private theorem argument_findings (call : String) : ∀ arguments : List Node,
    (Node.readArguments r frames ctes depth call arguments).findings =
      Place.findingsOf r frames ctes depth (Node.argumentPlaces call arguments)
  | [] => rfl
  | n :: rest => by
    have first := node_findings n
    have others := argument_findings call rest
    cases n <;> simp only [Node.readArguments, Node.argumentPlaces, Reading.findings_append,
      first, others, Place.findingsOf, List.map_append, List.sum_append]
    simp [Place.read]

end

/-- Calls around a place make no difference to what is found there. -/
theorem Node.readAll_findings (nodes : List Node) :
    (Node.readAll r frames ctes depth nodes).findings =
      Place.findingsOf r frames ctes depth (Node.placesOf nodes) := by
  induction nodes with
  | nil => rfl
  | cons n rest ih =>
    simp only [Node.readAll, Node.placesOf, Reading.findings_append, node_findings, ih,
      Place.findingsOf, List.map_append, List.sum_append]

end

private theorem place_findings {places : List Place}
    (bodies : ∀ body, .subquery body ∈ places → body.Accounted r) :
    Place.findingsOf r (outer.frames r) ctes depth places =
      (places.map (Place.own r (outer.frames r) depth)).sum +
        Chain.ownAll r (places.flatMap (Place.visits r ctes outer depth)) := by
  induction places with
  | nil => rfl
  | cons p rest ih =>
    have atHead : (p.read r (outer.frames r) ctes depth).findings =
        p.own r (outer.frames r) depth + Chain.ownAll r (p.visits r ctes outer depth) := by
      cases p with
      | subquery body => exact body_findings (bodies body List.mem_cons_self) ..
      | _ => exact (add_zero _).symm
    have others := ih fun body member => bodies body (List.mem_cons_of_mem _ member)
    simp only [Place.findingsOf, List.map_cons, List.sum_cons, List.flatMap_cons,
      Chain.ownAll_append, atHead] at others ⊢
    rw [others]
    abel

private theorem sources_aliases (sources : List Source) (start : Sources) :
    (sources.foldl Sources.add start).aliases = (start.aliases.declareAll
      ((sources.filterMap Source.aliasName).map fun name => ⟨name, name⟩)).1 := by
  induction sources generalizing start with
  | nil => rfl
  | cons source rest ih =>
    rw [List.foldl_cons, ih]
    cases named : source.aliasName <;> simp [Sources.add, named, AliasMap.declareAll]

private theorem sources_findings (sources : List Source) (start : Sources) :
    (sources.foldl Sources.add start).reading.findings =
      start.reading.findings + (sources.map fun source => source.reading.findings).sum
        + (Reading.ofNotes (start.aliases.declareAll
          ((sources.filterMap Source.aliasName).map fun name => ⟨name, name⟩)).2).findings := by
  induction sources generalizing start with
  | nil => exact (add_zero _).symm.trans (add_zero _).symm
  | cons source rest ih =>
    rw [List.foldl_cons, ih]
    cases named : source.aliasName with
    | none =>
      simp only [Sources.add, named, Reading.findings_append, List.filterMap_cons_none,
        List.map_cons, List.sum_cons]
      abel
    | some name =>
      rw [List.filterMap_cons_some named]
      simp only [Sources.add, named, Reading.findings_append, List.map_cons, List.sum_cons,
        AliasMap.declareAll, Reading.findings_ofNotes_append]
      abel

private theorem sources_branch (sources : List Source) (start : Sources) :
    (sources.foldl Sources.add start).branch.isSome =
      (start.branch.isSome || sources.any fun source => source.aliasName.isNone) := by
  induction sources generalizing start with
  | nil => simp
  | cons source rest ih =>
    rw [List.foldl_cons, ih]
    cases named : source.aliasName <;> simp [Sources.add, named]

private theorem derived_names {frames : Frames} (declared : List Derived) :
    (Derived.readAll r ctes frames depth declared).map Source.aliasName =
      declared.map Derived.aliasName := by
  induction declared with
  | nil => rfl
  | cons d rest ih =>
    cases d
    simp only [Derived.readAll, List.map_cons, ih]

private theorem derived_filterMap {frames : Frames} (declared : List Derived) :
    (Derived.readAll r ctes frames depth declared).filterMap Source.aliasName =
      declared.filterMap Derived.aliasName := by
  have names : ((Derived.readAll r ctes frames depth declared).map Source.aliasName).filterMap id =
      (declared.map Derived.aliasName).filterMap id := congrArg _ (derived_names declared)
  simpa only [List.filterMap_map, Function.id_comp] using names

/-- What names mean in a scope is what its declarations say. -/
theorem Scope.frame_aliases (s : Scope) (frames : Frames) :
    (s.frame r ctes frames depth).aliases = (AliasMap.empty.declareAll
      (s.declarations (r.catalog.canonical (s.visible r ctes frames depth)))).1 := by
  simp only [Scope.frame, Scope.sources, sources_aliases, derived_filterMap, AliasMap.ofTables,
    AliasMap.addTables_eq_declareAll, Scope.declarations, AliasMap.declareAll_append]

/-- A name means in a scope what the last declaration of that name says. -/
theorem Scope.find?_frame (s : Scope) (frames : Frames) (name : String) :
    (s.frame r ctes frames depth).aliases.find? name = AliasMap.lastDeclared
      (s.declarations (r.catalog.canonical (s.visible r ctes frames depth))) name := by
  rw [s.frame_aliases, AliasMap.find?_declareAll]
  exact Option.or_none

private theorem sources_derived (sources : List Source) (start : Sources) :
    (sources.foldl Sources.add start).derived.map TableSchema.name =
      (sources.filterMap Source.aliasName).reverse ++ start.derived.map TableSchema.name := by
  induction sources generalizing start with
  | nil => rfl
  | cons source rest ih =>
    rw [List.foldl_cons, ih]
    cases named : source.aliasName <;> simp [Sources.add, named]

/-- The subqueries that are known by name in a scope are those among its sources, the last one
first. -/
theorem Scope.frame_derived (s : Scope) (frames : Frames) :
    (s.frame r ctes frames depth).derived.map TableSchema.name =
      (s.derived.filterMap Derived.aliasName).reverse := by
  simp only [Scope.frame, Scope.sources, sources_derived, derived_filterMap, List.map_nil,
    List.append_nil]

private theorem Scope.sources_reading (s : Scope)
    (named : ∀ c ∈ s.ctes, c.body.Accounted r) (sources : ∀ d ∈ s.derived, d.body.Accounted r) :
    (s.sources r ctes (outer.frames r) depth).reading.findings =
      (s.ctes.map (Cte.own r depth)).sum + (s.derived.map (Derived.own r depth)).sum
        + (Reading.ofNotes (AliasMap.empty.declareAll
          (s.declarations (r.catalog.canonical (s.visible r ctes (outer.frames r) depth)))).2).findings
        + Chain.ownAll r (Cte.visitsAll r ctes outer depth s.ctes)
        + Chain.ownAll r (Derived.visitsAll r (s.visible r ctes (outer.frames r) depth) outer depth
            s.derived) := by
  simp only [Scope.sources, sources_findings, derived_filterMap, AliasMap.ofTables,
    AliasMap.addTables_eq_declareAll, Scope.declarations, AliasMap.declareAll_append,
    Reading.findings_append, Reading.findings_ofNotes_append, cte_findings named,
    derived_findings sources]
  abel

/-- A scope gives what a side of a set operation gives exactly when it has nothing else for
its sources. -/
private theorem Scope.combination_iff (s : Scope) (frames : Frames) :
    s.isCombination = true ↔ (s.sources r ctes frames depth).branch.isSome = true ∧
      (s.sources r ctes frames depth).aliases.entries = [] := by
  have aliases : (s.sources r ctes frames depth).aliases = _ :=
    s.frame_aliases frames
  have unnamed : ((Derived.readAll r (s.visible r ctes frames depth) frames depth s.derived).any
      fun source => source.aliasName.isNone) = s.derived.any fun d => d.aliasName.isNone := by
    simpa [List.any_map, Function.comp_def] using
      congrArg (List.any · Option.isNone) (derived_names s.derived)
  have branch : (s.sources r ctes frames depth).branch.isSome =
      s.derived.any fun d => d.aliasName.isNone := by
    simp only [Scope.sources, sources_branch, Option.isSome_none, Bool.false_or, unnamed]
  rw [aliases, branch, AliasMap.entries_declareAll_eq_nil]
  simp only [Scope.isCombination, Scope.declarations, AliasMap.empty, Bool.and_eq_true,
    List.isEmpty_iff, Bool.not_eq_true', List.all_eq_true, List.any_eq_true,
    List.append_eq_nil_iff, List.map_eq_nil_iff, List.filterMap_eq_nil_iff,
    Option.isNone_iff_eq_none, true_and]
  constructor
  · rintro ⟨⟨tables, some⟩, unnamed⟩
    obtain ⟨d, member⟩ := List.exists_mem_of_ne_nil _ (List.isEmpty_eq_false_iff.mp some)
    exact ⟨⟨d, member, unnamed d member⟩, tables, unnamed⟩
  · rintro ⟨⟨d, member, _⟩, tables, unnamed⟩
    exact ⟨⟨tables, List.isEmpty_eq_false_iff.mpr (List.ne_nil_of_mem member)⟩, unnamed⟩

private theorem Scope.read_findings (s : Scope) (frames : Frames) :
    (s.read r ctes frames depth).findings =
      (s.sources r ctes frames depth).reading.findings
        + (Reading.ofTables
          ((s.frame r ctes frames depth).aliases.entries.map AliasEntry.table)).findings
        + Place.findingsOf r (s.frame r ctes frames depth :: frames) (s.visible r ctes frames depth)
          depth (Node.placesOf s.nodes)
        + if s.isCombination then 0
          else (r.outputs (s.frame r ctes frames depth :: frames) s.outputs).findings := by
  have combined : s.isCombination = true ↔ (s.sources r ctes frames depth).branch.isSome = true ∧
      (s.sources r ctes frames depth).aliases.entries = [] := s.combination_iff frames
  rw [← Node.readAll_findings]
  cases s
  simp only [Scope.read]
  split
  · rename_i columns branch entries
    rw [if_pos (combined.mpr ⟨Option.isSome_of_mem branch, entries⟩), add_zero]
    rfl
  · rename_i other
    rw [if_neg]
    · rfl
    · intro combination
      obtain ⟨branch, entries⟩ := combined.mp combination
      obtain ⟨columns, branch⟩ := Option.isSome_iff_exists.mp branch
      exact other columns branch entries

/-- **Every finding belongs to a visit.** -/
theorem Scope.accounted (s : Scope) : s.Accounted r := by
  induction s using Scope.tree_induction with
  | step s named sources inside =>
    intro ctes outer depth
    have places := @place_findings r (s.visible r ctes (outer.frames r) depth)
      (⟨s, ctes, depth⟩ :: outer) depth _ inside
    rw [Scope.read_findings, s.sources_reading named sources]
    have visits : s.visits r ctes outer depth = (⟨s, ctes, depth⟩ :: outer) ::
        (Cte.visitsAll r ctes outer depth s.ctes
          ++ Derived.visitsAll r (s.visible r ctes (outer.frames r) depth) outer depth s.derived
          ++ Node.visitsAll r (s.visible r ctes (outer.frames r) depth) (⟨s, ctes, depth⟩ :: outer)
              depth s.nodes) := by
      cases s
      rfl
    rw [visits, Chain.ownAll_cons, Chain.ownAll_append, Chain.ownAll_append,
      Node.visitsAll_eq_places]
    simp only [Chain.frames] at places
    rw [places]
    simp only [Visit.own, Visit.frame, Visit.declarations, Visit.visible, Chain.frames]
    abel

end

end TableAccess
