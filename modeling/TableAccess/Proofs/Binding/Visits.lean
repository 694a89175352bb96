import TableAccess.Proofs.Binding.Places

/-! Which scopes of a statement are read, and what surrounds each of them. A scope is
visited within its chain: the scope itself, then the one among whose expressions it
stands, and so on outward. The bodies of named queries and of subqueries among the
sources stand beside the scope that declares them, so their chain goes on with what
surrounds that scope. Nothing below the bound on the depth is visited. -/
namespace TableAccess

namespace Scope
variable (r : Resolver) (ctes : LocalTables) (outer : Frames) (depth : Nat) (s : Scope)

/-- The named queries that the body of a scope sees, its own included. -/
def visible : LocalTables := (Cte.readAll r ctes outer depth s.ctes).1

/-- The sources of a scope once they are read. -/
def sources : Sources :=
  let (aliases, notes) :=
    AliasMap.ofTables (r.catalog.canonical (s.visible r ctes outer depth)) s.tables
  (Derived.readAll r (s.visible r ctes outer depth) outer depth s.derived).foldl Sources.add
    ⟨aliases, [], (Cte.readAll r ctes outer depth s.ctes).2 ++ .ofNotes notes, none⟩

/-- What names mean in the expressions of a scope. -/
def frame : Frame :=
  ⟨(s.sources r ctes outer depth).aliases, (s.sources r ctes outer depth).derived,
    s.visible r ctes outer depth⟩

end Scope

/-- A scope with the named queries that it sees from outside, and its depth below the
statement. -/
structure Visit where
  scope : Scope
  ctes : LocalTables
  depth : Nat

/-- A visited scope with the scopes that its expressions see, innermost first. -/
abbrev Chain := List Visit

namespace Chain

/-- What names mean along a chain. -/
def frames (r : Resolver) : Chain → Frames
  | [] => []
  | v :: outer => v.scope.frame r v.ctes (frames r outer) v.depth :: frames r outer

/-- The visited scope. -/
def scope : Chain → Scope
  | [] => .empty
  | v :: _ => v.scope

end Chain

/-- The named queries that the body of a visited scope sees. -/
def Visit.visible (r : Resolver) (v : Visit) (outer : Chain) : LocalTables :=
  v.scope.visible r v.ctes (outer.frames r) v.depth

/-- The chains in which the scopes of a tree are visited, starting from the whole tree. -/
inductive Scope.Visited (r : Resolver) (whole : Scope) : Chain → Prop where
  | whole : Visited r whole [⟨whole, [], 0⟩]
  | cte {v : Visit} {outer : Chain} {before after : List Cte} {c : Cte}
      (seen : Visited r whole (v :: outer)) (within : v.depth < r.maxDepth)
      (declared : v.scope.ctes = before ++ c :: after) :
      Visited r whole
        (⟨c.body, (Cte.readAll r v.ctes (outer.frames r) v.depth before).1, v.depth + 1⟩ :: outer)
  | derived {v : Visit} {outer : Chain} {d : Derived}
      (seen : Visited r whole (v :: outer)) (within : v.depth < r.maxDepth)
      (declared : d ∈ v.scope.derived) :
      Visited r whole (⟨d.body, v.visible r outer, v.depth + 1⟩ :: outer)
  | subquery {v : Visit} {outer : Chain} {body : Scope}
      (seen : Visited r whole (v :: outer)) (within : v.depth < r.maxDepth)
      (mentioned : .subquery body ∈ Node.placesOf v.scope.nodes) :
      Visited r whole (⟨body, v.visible r outer, v.depth + 1⟩ :: v :: outer)

mutual

/-- The visits of a scope and of all that is nested in it, one for each time that a scope
is read. -/
def Scope.visits (r : Resolver) (ctes : LocalTables) (outer : Chain) (depth : Nat) :
    Scope → List Chain
  | ⟨declared, tables, derived, nodes, outputs⟩ =>
    let v : Visit := ⟨⟨declared, tables, derived, nodes, outputs⟩, ctes, depth⟩
    (v :: outer) :: (Cte.visitsAll r ctes outer depth declared
      ++ Derived.visitsAll r (v.visible r outer) outer depth derived
      ++ Node.visitsAll r (v.visible r outer) (v :: outer) depth nodes)

/-- The visits of the bodies of named queries. Each sees the named queries before it. -/
def Cte.visitsAll (r : Resolver) (ctes : LocalTables) (outer : Chain) (depth : Nat) :
    List Cte → List Chain
  | [] => []
  | ⟨aliasName, columns, body⟩ :: rest =>
    (if depth < r.maxDepth then body.visits r ctes outer (depth + 1) else [])
      ++ Cte.visitsAll r
        (Cte.readAll r ctes (outer.frames r) depth [⟨aliasName, columns, body⟩]).1 outer depth rest

/-- The visits of subqueries among the sources. -/
def Derived.visitsAll (r : Resolver) (ctes : LocalTables) (outer : Chain) (depth : Nat) :
    List Derived → List Chain
  | [] => []
  | ⟨_, _, body⟩ :: rest =>
    (if depth < r.maxDepth then body.visits r ctes outer (depth + 1) else [])
      ++ Derived.visitsAll r ctes outer depth rest

/-- The visits of the subqueries at a node. -/
def Node.visits (r : Resolver) (ctes : LocalTables) (outer : Chain) (depth : Nat) :
    Node → List Chain
  | .column _ => []
  | .call _ _ arguments => Node.visitsAll r ctes outer depth arguments
  | .subquery body => if depth < r.maxDepth then body.visits r ctes outer (depth + 1) else []

/-- The visits of the subqueries at several nodes. -/
def Node.visitsAll (r : Resolver) (ctes : LocalTables) (outer : Chain) (depth : Nat) :
    List Node → List Chain
  | [] => []
  | n :: rest => n.visits r ctes outer depth ++ Node.visitsAll r ctes outer depth rest

end

/-- The visits of the subquery at a place. -/
def Place.visits (r : Resolver) (ctes : LocalTables) (outer : Chain) (depth : Nat) :
    Place → List Chain
  | .subquery body => if depth < r.maxDepth then body.visits r ctes outer (depth + 1) else []
  | _ => []

section
variable {r : Resolver} {ctes : LocalTables} {outer chain : Chain} {depth : Nat} {s : Scope}

private theorem argumentPlaces_visits (call : String) (arguments : List Node) :
    (Node.argumentPlaces call arguments).flatMap (Place.visits r ctes outer depth) =
      (Node.placesOf arguments).flatMap (Place.visits r ctes outer depth) := by
  induction arguments with
  | nil => rfl
  | cons n rest ih =>
    cases n <;> simp only [Node.argumentPlaces, Node.placesOf, List.flatMap_append, ih]
    rfl

mutual

private theorem Node.visits_eq_places :
    ∀ n : Node, n.visits r ctes outer depth = n.places.flatMap (Place.visits r ctes outer depth)
  | .column _ => rfl
  | .call _ _ arguments => by
    rw [Node.visits, Node.places, argumentPlaces_visits, Node.visitsAll_eq_places arguments]
  | .subquery _ => (List.append_nil _).symm

/-- Calls around a subquery make no difference to its visits. -/
theorem Node.visitsAll_eq_places : ∀ nodes : List Node, Node.visitsAll r ctes outer depth nodes =
    (Node.placesOf nodes).flatMap (Place.visits r ctes outer depth)
  | [] => rfl
  | n :: rest => by
    rw [Node.visitsAll, Node.placesOf, List.flatMap_append, Node.visits_eq_places n,
      Node.visitsAll_eq_places rest]

end

private theorem Cte.readAll_cons_fst {frames : Frames} (c : Cte) (rest : List Cte) :
    (Cte.readAll r ctes frames depth (c :: rest)).1 =
      (Cte.readAll r (Cte.readAll r ctes frames depth [c]).1 frames depth rest).1 := by
  cases c
  simp only [Cte.readAll]

private theorem Cte.mem_visitsAll {declared : List Cte} :
    chain ∈ Cte.visitsAll r ctes outer depth declared ↔
      ∃ before c after, declared = before ++ c :: after ∧ depth < r.maxDepth ∧
        chain ∈ c.body.visits r (Cte.readAll r ctes (outer.frames r) depth before).1 outer
          (depth + 1) := by
  induction declared generalizing ctes with
  | nil => simp [Cte.visitsAll]
  | cons c rest ih =>
    cases c
    rw [Cte.visitsAll, List.mem_append, ih]
    constructor
    · rintro (atHead | ⟨before, inner, after, rfl, within, visited⟩)
      · split at atHead
        · exact ⟨[], _, rest, rfl, ‹_›, atHead⟩
        · cases atHead
      · exact ⟨_ :: before, inner, after, rfl, within, by rwa [Cte.readAll_cons_fst]⟩
    · rintro ⟨before, inner, after, split, within, visited⟩
      cases before with
      | nil =>
        obtain ⟨rfl, rfl⟩ := List.cons.inj split
        exact .inl (by rwa [if_pos within])
      | cons first before =>
        obtain ⟨rfl, rfl⟩ := List.cons.inj split
        exact .inr ⟨before, inner, after, rfl, within, by rwa [Cte.readAll_cons_fst] at visited⟩

private theorem Derived.mem_visitsAll {declared : List Derived} :
    chain ∈ Derived.visitsAll r ctes outer depth declared ↔
      ∃ d ∈ declared, depth < r.maxDepth ∧ chain ∈ d.body.visits r ctes outer (depth + 1) := by
  induction declared with
  | nil => simp [Derived.visitsAll]
  | cons d rest ih =>
    cases d
    rw [Derived.visitsAll, List.mem_append, ih, List.exists_mem_cons_iff]
    refine or_congr_left ?_
    split
    · simp [*]
    · simp [*]

private theorem Node.mem_visitsAll {nodes : List Node} :
    chain ∈ Node.visitsAll r ctes outer depth nodes ↔
      ∃ body, .subquery body ∈ Node.placesOf nodes ∧ depth < r.maxDepth ∧
        chain ∈ body.visits r ctes outer (depth + 1) := by
  rw [Node.visitsAll_eq_places, List.mem_flatMap]
  constructor
  · rintro ⟨place, present, visited⟩
    cases place with
    | subquery body =>
      rw [Place.visits] at visited
      split at visited
      · exact ⟨body, present, ‹_›, visited⟩
      · cases visited
    | _ => cases visited
  · rintro ⟨body, present, within, visited⟩
    exact ⟨_, present, by rwa [Place.visits, if_pos within]⟩

/-- The visits of a scope: itself, and what its declarations and its subqueries visit. -/
theorem Scope.mem_visits : chain ∈ s.visits r ctes outer depth ↔
    chain = ⟨s, ctes, depth⟩ :: outer ∨
    (∃ before c after, s.ctes = before ++ c :: after ∧ depth < r.maxDepth ∧
      chain ∈ c.body.visits r (Cte.readAll r ctes (outer.frames r) depth before).1 outer
        (depth + 1)) ∨
    (∃ d ∈ s.derived, depth < r.maxDepth ∧
      chain ∈ d.body.visits r (s.visible r ctes (outer.frames r) depth) outer (depth + 1)) ∨
    (∃ body, .subquery body ∈ Node.placesOf s.nodes ∧ depth < r.maxDepth ∧
      chain ∈ body.visits r (s.visible r ctes (outer.frames r) depth) (⟨s, ctes, depth⟩ :: outer)
        (depth + 1)) := by
  cases s
  rw [Scope.visits, List.mem_cons, List.mem_append, List.mem_append, Cte.mem_visitsAll,
    Derived.mem_visitsAll, Node.mem_visitsAll, or_assoc]
  rfl

/-- What is visited from a visited scope is visited from the scope around it. -/
theorem Scope.visits_trans {v : Visit} {inner : Chain} (first : v :: inner ∈ s.visits r ctes outer depth)
    (second : chain ∈ v.scope.visits r v.ctes inner v.depth) : chain ∈ s.visits r ctes outer depth := by
  induction s using Scope.tree_induction generalizing ctes outer depth with
  | step s named sources inside =>
    rcases Scope.mem_visits.mp first with whole | ⟨before, c, after, split, within, first⟩ |
      ⟨d, declared, within, first⟩ | ⟨body, mentioned, within, first⟩
    · obtain ⟨rfl, rfl⟩ := List.cons.inj whole
      exact second
    · exact Scope.mem_visits.mpr (.inr (.inl ⟨before, c, after, split, within,
        named c (by simp [split]) first⟩))
    · exact Scope.mem_visits.mpr (.inr (.inr (.inl ⟨d, declared, within,
        sources d declared first⟩)))
    · exact Scope.mem_visits.mpr (.inr (.inr (.inr ⟨body, mentioned, within,
        inside body mentioned first⟩)))

private theorem Scope.visited_of_mem_visits {whole : Scope}
    (start : whole.Visited r (⟨s, ctes, depth⟩ :: outer))
    (member : chain ∈ s.visits r ctes outer depth) : whole.Visited r chain := by
  induction s using Scope.tree_induction generalizing ctes outer depth with
  | step s named sources inside =>
    rcases Scope.mem_visits.mp member with rfl | ⟨before, c, after, split, within, member⟩ |
      ⟨d, declared, within, member⟩ | ⟨body, mentioned, within, member⟩
    · exact start
    · exact named c (by simp [split]) (.cte start within split) member
    · exact sources d declared (.derived start within declared) member
    · exact inside body mentioned (.subquery start within mentioned) member

/-- The visits that are listed are those that the rules of visiting give. -/
theorem Scope.mem_visits_iff_visited {whole : Scope} :
    chain ∈ whole.visits r [] [] 0 ↔ whole.Visited r chain := by
  refine ⟨visited_of_mem_visits .whole, fun visited => ?_⟩
  have self (s : Scope) (ctes outer depth) : ⟨s, ctes, depth⟩ :: outer ∈ s.visits r ctes outer depth :=
    Scope.mem_visits.mpr (.inl rfl)
  induction visited with
  | whole => exact self ..
  | cte _ within declared ih =>
    exact Scope.visits_trans ih (Scope.mem_visits.mpr
      (.inr (.inl ⟨_, _, _, declared, within, self ..⟩)))
  | derived _ within declared ih =>
    exact Scope.visits_trans ih (Scope.mem_visits.mpr
      (.inr (.inr (.inl ⟨_, declared, within, self ..⟩))))
  | subquery _ within mentioned ih =>
    exact Scope.visits_trans ih (Scope.mem_visits.mpr
      (.inr (.inr (.inr ⟨_, mentioned, within, self ..⟩))))

/-- The scopes that a visited scope's expressions see are visited themselves. -/
theorem Scope.Visited.outward {whole : Scope} {inner : Chain} {v : Visit}
    (visited : whole.Visited r (inner ++ v :: outer)) : whole.Visited r (v :: outer) := by
  generalize split : inner ++ v :: outer = chain at visited
  induction visited generalizing inner with
  | whole =>
    cases inner with
    | nil => cases split; exact .whole
    | cons _ inner => cases inner <;> cases split
  | cte seen within declared ih =>
    cases inner with
    | nil => cases split; exact .cte seen within declared
    | cons _ inner => exact @ih (_ :: inner) (congrArg (List.cons _) (List.cons.inj split).2)
  | derived seen within declared ih =>
    cases inner with
    | nil => cases split; exact .derived seen within declared
    | cons _ inner => exact @ih (_ :: inner) (congrArg (List.cons _) (List.cons.inj split).2)
  | subquery seen within mentioned ih =>
    cases inner with
    | nil => cases split; exact .subquery seen within mentioned
    | cons _ inner => exact ih (List.cons.inj split).2

end

end TableAccess
