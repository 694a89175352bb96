import TableAccess.Proofs.Binding.Places

/-! How deeply scopes nest. The scopes directly in a scope are the bodies of its named queries,
those of the subqueries among its sources and those of the subqueries in its expressions; one level
further lie the scopes directly in these. A scope is cut off at a level by putting the empty scope
in place of each that lies there, which leaves everything above as it is. -/
namespace TableAccess

/-- A scope directly in another one, with its kind and name as a note tells them. -/
structure Nested where
  what : String
  subject : Option String
  body : Scope

/-- The same place with another scope in it. -/
def Nested.mapBody (f : Scope → Scope) (inner : Nested) : Nested :=
  { inner with body := f inner.body }

/-- The scope at a place. -/
def Place.nested? : Place → Option Nested
  | .subquery body => some ⟨"subquery", none, body⟩
  | _ => none

/-- The same place with another scope in it. -/
def Place.mapBody (f : Scope → Scope) : Place → Place
  | .subquery body => .subquery (f body)
  | p => p

/-- The same named query with another body. -/
def Cte.mapBody (f : Scope → Scope) (c : Cte) : Cte := { c with body := f c.body }

/-- The same subquery with another body. -/
def Derived.mapBody (f : Scope → Scope) (d : Derived) : Derived := { d with body := f d.body }

mutual

/-- A node with other scopes in the place of those directly in it. -/
def Node.mapBodies (f : Scope → Scope) : Node → Node
  | .column c => .column c
  | .call name text arguments => .call name text (Node.mapBodiesOf f arguments)
  | .subquery body => .subquery (f body)

/-- Several nodes with other scopes in the place of those directly in them. -/
def Node.mapBodiesOf (f : Scope → Scope) : List Node → List Node
  | [] => []
  | n :: rest => n.mapBodies f :: Node.mapBodiesOf f rest

end

mutual

/-- How many scopes lie in each other at a node. -/
def Node.height : Node → Nat
  | .column _ => 0
  | .call _ _ arguments => Node.heightOf arguments
  | .subquery body => body.height + 1

/-- How many scopes lie in each other at some of several nodes. -/
def Node.heightOf : List Node → Nat
  | [] => 0
  | n :: rest => max n.height (Node.heightOf rest)

/-- How many scopes lie in each other below a scope. -/
def Scope.height : Scope → Nat
  | ⟨ctes, _, derived, nodes, _⟩ =>
    max (Cte.heightOf ctes) (max (Derived.heightOf derived) (Node.heightOf nodes))

/-- How many scopes lie in each other in some of several named queries. -/
def Cte.heightOf : List Cte → Nat
  | [] => 0
  | ⟨_, _, body⟩ :: rest => max (body.height + 1) (Cte.heightOf rest)

/-- How many scopes lie in each other in some of several subqueries. -/
def Derived.heightOf : List Derived → Nat
  | [] => 0
  | ⟨_, _, body⟩ :: rest => max (body.height + 1) (Derived.heightOf rest)

end

namespace Scope

/-- The scopes directly in a scope, in the order in which they are read. -/
def nested (s : Scope) : List Nested :=
  (s.ctes.map fun c => ⟨"CTE", some c.aliasName, c.body⟩)
    ++ (s.derived.map fun d => ⟨"derived table", d.aliasName, d.body⟩)
    ++ (Node.placesOf s.nodes).filterMap Place.nested?

/-- The scopes some levels further in than those directly in a scope. -/
def nestedAt : Nat → Scope → List Nested
  | 0, s => s.nested
  | n + 1, s => s.nested.flatMap fun inner => inner.body.nestedAt n

/-- A scope with other scopes in the place of those directly in it. -/
def mapBodies (f : Scope → Scope) (s : Scope) : Scope :=
  { s with
    ctes := s.ctes.map (Cte.mapBody f), derived := s.derived.map (Derived.mapBody f)
    nodes := Node.mapBodiesOf f s.nodes }

/-- A scope with the empty scope in the place of each that lies some levels below. -/
def clip : Nat → Scope → Scope
  | 0, _ => .empty
  | n + 1, s => s.mapBodies (clip n)

end Scope

section
variable {f : Scope → Scope}

mutual

private theorem Node.places_mapBodies :
    ∀ n : Node, (n.mapBodies f).places = n.places.map (Place.mapBody f)
  | .column _ => rfl
  | .call _ text arguments => by
    rw [Node.mapBodies, Node.places, Node.places, Node.argumentPlaces_mapBodies text arguments]
  | .subquery _ => rfl

private theorem Node.argumentPlaces_mapBodies (call : String) : ∀ arguments : List Node,
    Node.argumentPlaces call (Node.mapBodiesOf f arguments) =
      (Node.argumentPlaces call arguments).map (Place.mapBody f)
  | [] => rfl
  | n :: rest => by
    have first := Node.places_mapBodies n
    have others := Node.argumentPlaces_mapBodies call rest
    cases n <;> simp only [Node.mapBodiesOf, Node.mapBodies, Node.argumentPlaces, List.map_append,
      others] at first ⊢
    · rfl
    · rw [first]
    · rfl

end

theorem Node.placesOf_mapBodies (nodes : List Node) :
    Node.placesOf (Node.mapBodiesOf f nodes) = (Node.placesOf nodes).map (Place.mapBody f) := by
  induction nodes with
  | nil => rfl
  | cons n rest ih =>
    rw [Node.mapBodiesOf, Node.placesOf, Node.placesOf, List.map_append, ih,
      Node.places_mapBodies n]

mutual

private theorem Node.mapBodies_eq_self : ∀ n : Node,
    (∀ body, .subquery body ∈ n.places → f body = body) → n.mapBodies f = n
  | .column _, _ => rfl
  | .call _ _ arguments, fixed => by
    rw [Node.mapBodies, Node.mapBodiesOf_eq_self arguments fun body place =>
      fixed body (Node.subquery_mem_argumentPlaces_iff.mpr place)]
  | .subquery body, fixed => congrArg Node.subquery (fixed body (List.mem_singleton_self _))

/-- Nodes stay the same if the scopes in them do. -/
theorem Node.mapBodiesOf_eq_self : ∀ nodes : List Node,
    (∀ body, .subquery body ∈ Node.placesOf nodes → f body = body) →
      Node.mapBodiesOf f nodes = nodes
  | [], _ => rfl
  | n :: rest, fixed => by
    rw [Node.mapBodiesOf,
      Node.mapBodies_eq_self n fun body place => fixed body (List.mem_append_left _ place),
      Node.mapBodiesOf_eq_self rest fun body place => fixed body (List.mem_append_right _ place)]

end

end

mutual

private theorem Node.height_lt {body : Scope} : ∀ n : Node,
    .subquery body ∈ n.places → body.height < n.height
  | .column _, member => by simp [Node.places] at member
  | .call _ _ arguments, member =>
    Node.height_lt_heightOf arguments (Node.subquery_mem_argumentPlaces_iff.mp member)
  | .subquery _, member => by
    rw [Node.places, List.mem_singleton, Place.subquery.injEq] at member
    rw [member, Node.height]
    exact Nat.lt_succ_self _

private theorem Node.height_lt_heightOf {body : Scope} : ∀ nodes : List Node,
    .subquery body ∈ Node.placesOf nodes → body.height < Node.heightOf nodes
  | [], member => by cases member
  | n :: rest, member => by
    rw [Node.heightOf]
    rcases List.mem_append.mp member with atHead | later
    · exact Nat.lt_of_lt_of_le (Node.height_lt n atHead) (Nat.le_max_left _ _)
    · exact Nat.lt_of_lt_of_le (Node.height_lt_heightOf rest later) (Nat.le_max_right _ _)

end

private theorem Cte.height_lt {declared : List Cte} {c : Cte} (member : c ∈ declared) :
    c.body.height < Cte.heightOf declared := by
  induction declared with
  | nil => cases member
  | cons first rest ih =>
    obtain ⟨name, columns, body⟩ := first
    rw [Cte.heightOf]
    rcases List.mem_cons.mp member with rfl | later
    · exact Nat.lt_of_lt_of_le (Nat.lt_succ_self _) (Nat.le_max_left _ _)
    · exact Nat.lt_of_lt_of_le (ih later) (Nat.le_max_right _ _)

private theorem Derived.height_lt {declared : List Derived} {d : Derived} (member : d ∈ declared) :
    d.body.height < Derived.heightOf declared := by
  induction declared with
  | nil => cases member
  | cons first rest ih =>
    obtain ⟨name, columns, body⟩ := first
    rw [Derived.heightOf]
    rcases List.mem_cons.mp member with rfl | later
    · exact Nat.lt_of_lt_of_le (Nat.lt_succ_self _) (Nat.le_max_left _ _)
    · exact Nat.lt_of_lt_of_le (ih later) (Nat.le_max_right _ _)

mutual

private theorem Node.exists_of_height_pos : ∀ n : Node, 0 < n.height →
    ∃ body, .subquery body ∈ n.places ∧ body.height + 1 = n.height
  | .column _, high => absurd high (Nat.lt_irrefl 0)
  | .call _ _ arguments, high => by
    obtain ⟨body, place, same⟩ := Node.exists_of_heightOf_pos arguments high
    exact ⟨body, Node.subquery_mem_argumentPlaces_iff.mpr place, same⟩
  | .subquery body, _ => ⟨body, List.mem_singleton_self _, rfl⟩

private theorem Node.exists_of_heightOf_pos : ∀ nodes : List Node, 0 < Node.heightOf nodes →
    ∃ body, .subquery body ∈ Node.placesOf nodes ∧ body.height + 1 = Node.heightOf nodes
  | [], high => absurd high (Nat.lt_irrefl 0)
  | n :: rest, high => by
    rw [Node.heightOf] at high ⊢
    rcases Nat.le_total (Node.heightOf rest) n.height with lower | lower
    · rw [Nat.max_eq_left lower] at high ⊢
      obtain ⟨body, place, same⟩ := Node.exists_of_height_pos n high
      exact ⟨body, List.mem_append_left _ place, same⟩
    · rw [Nat.max_eq_right lower] at high ⊢
      obtain ⟨body, place, same⟩ := Node.exists_of_heightOf_pos rest high
      exact ⟨body, List.mem_append_right _ place, same⟩

end

private theorem Cte.exists_of_heightOf_pos {declared : List Cte} (high : 0 < Cte.heightOf declared) :
    ∃ c ∈ declared, c.body.height + 1 = Cte.heightOf declared := by
  induction declared with
  | nil => exact absurd high (Nat.lt_irrefl 0)
  | cons first rest ih =>
    obtain ⟨name, columns, body⟩ := first
    rw [Cte.heightOf] at high ⊢
    rcases Nat.le_total (Cte.heightOf rest) (body.height + 1) with lower | lower
    · rw [Nat.max_eq_left lower]
      exact ⟨_, List.mem_cons_self, rfl⟩
    · rw [Nat.max_eq_right lower] at high ⊢
      obtain ⟨c, member, same⟩ := ih high
      exact ⟨c, List.mem_cons_of_mem _ member, same⟩

private theorem Derived.exists_of_heightOf_pos {declared : List Derived} (high : 0 < Derived.heightOf declared) :
    ∃ d ∈ declared, d.body.height + 1 = Derived.heightOf declared := by
  induction declared with
  | nil => exact absurd high (Nat.lt_irrefl 0)
  | cons first rest ih =>
    obtain ⟨name, columns, body⟩ := first
    rw [Derived.heightOf] at high ⊢
    rcases Nat.le_total (Derived.heightOf rest) (body.height + 1) with lower | lower
    · rw [Nat.max_eq_left lower]
      exact ⟨_, List.mem_cons_self, rfl⟩
    · rw [Nat.max_eq_right lower] at high ⊢
      obtain ⟨d, member, same⟩ := ih high
      exact ⟨d, List.mem_cons_of_mem _ member, same⟩

namespace Scope
variable {s : Scope} {n : Nat}

/-- The scopes directly in a scope are the bodies of its named queries, of its sources and of the
subqueries in its expressions. -/
theorem mem_nested {inner : Nested} : inner ∈ s.nested ↔
    (∃ c ∈ s.ctes, inner = ⟨"CTE", some c.aliasName, c.body⟩) ∨
    (∃ d ∈ s.derived, inner = ⟨"derived table", d.aliasName, d.body⟩) ∨
    ∃ body, .subquery body ∈ Node.placesOf s.nodes ∧ inner = ⟨"subquery", none, body⟩ := by
  have places : inner ∈ (Node.placesOf s.nodes).filterMap Place.nested? ↔
      ∃ body, .subquery body ∈ Node.placesOf s.nodes ∧ inner = ⟨"subquery", none, body⟩ := by
    rw [List.mem_filterMap]
    constructor
    · rintro ⟨p, place, found⟩
      cases p <;> cases found
      exact ⟨_, place, rfl⟩
    · rintro ⟨body, place, rfl⟩
      exact ⟨_, place, rfl⟩
  rw [nested, List.mem_append, List.mem_append, List.mem_map, List.mem_map, places, or_assoc]
  simp only [eq_comm]

theorem height_lt_of_mem_nested {inner : Nested} (member : inner ∈ s.nested) :
    inner.body.height < s.height := by
  have parts : s.height = max (Cte.heightOf s.ctes)
      (max (Derived.heightOf s.derived) (Node.heightOf s.nodes)) := by
    cases s
    rfl
  rcases mem_nested.mp member with ⟨c, declared, rfl⟩ | ⟨d, declared, rfl⟩ | ⟨body, place, rfl⟩
  · have low := Cte.height_lt declared
    dsimp only
    omega
  · have low := Derived.height_lt declared
    dsimp only
    omega
  · have low := Node.height_lt_heightOf _ place
    dsimp only
    omega

/-- One of the scopes directly in a scope reaches as far as that does. -/
theorem exists_nested_of_height_pos (high : 0 < s.height) :
    ∃ inner ∈ s.nested, inner.body.height + 1 = s.height := by
  have parts : s.height = max (Cte.heightOf s.ctes)
      (max (Derived.heightOf s.derived) (Node.heightOf s.nodes)) := by
    cases s
    rfl
  rw [parts] at high ⊢
  rcases Nat.le_total (max (Derived.heightOf s.derived) (Node.heightOf s.nodes)) (Cte.heightOf s.ctes)
    with lower | lower
  · rw [Nat.max_eq_left lower] at high ⊢
    obtain ⟨c, declared, same⟩ := Cte.exists_of_heightOf_pos high
    exact ⟨_, mem_nested.mpr (.inl ⟨c, declared, rfl⟩), same⟩
  rw [Nat.max_eq_right lower] at high ⊢
  rcases Nat.le_total (Node.heightOf s.nodes) (Derived.heightOf s.derived) with lower | lower
  · rw [Nat.max_eq_left lower] at high ⊢
    obtain ⟨d, declared, same⟩ := Derived.exists_of_heightOf_pos high
    exact ⟨_, mem_nested.mpr (.inr (.inl ⟨d, declared, rfl⟩)), same⟩
  · rw [Nat.max_eq_right lower] at high ⊢
    obtain ⟨body, place, same⟩ := Node.exists_of_heightOf_pos _ high
    exact ⟨_, mem_nested.mpr (.inr (.inr ⟨body, place, rfl⟩)), same⟩

theorem nested_mapBodies (f : Scope → Scope) :
    (s.mapBodies f).nested = s.nested.map (Nested.mapBody f) := by
  have places : ((Node.placesOf s.nodes).map (Place.mapBody f)).filterMap Place.nested? =
      ((Node.placesOf s.nodes).filterMap Place.nested?).map (Nested.mapBody f) := by
    rw [List.filterMap_map, List.map_filterMap]
    refine List.filterMap_congr fun p _ => ?_
    cases p <;> rfl
  simp only [nested, mapBodies, Node.placesOf_mapBodies, places, List.map_append, List.map_map]
  rfl

theorem mapBodies_eq_self {f : Scope → Scope}
    (fixed : ∀ inner ∈ s.nested, f inner.body = inner.body) : s.mapBodies f = s := by
  have ctes : s.ctes.map (Cte.mapBody f) = s.ctes := by
    refine (List.map_congr_left fun c declared => ?_).trans s.ctes.map_id
    have same : f c.body = c.body := fixed _ (mem_nested.mpr (.inl ⟨c, declared, rfl⟩))
    rw [Cte.mapBody, same]
    cases c
    rfl
  have derived : s.derived.map (Derived.mapBody f) = s.derived := by
    refine (List.map_congr_left fun d declared => ?_).trans s.derived.map_id
    have same : f d.body = d.body := fixed _ (mem_nested.mpr (.inr (.inl ⟨d, declared, rfl⟩)))
    rw [Derived.mapBody, same]
    cases d
    rfl
  have nodes : Node.mapBodiesOf f s.nodes = s.nodes :=
    Node.mapBodiesOf_eq_self _ fun body place =>
      fixed _ (mem_nested.mpr (.inr (.inr ⟨body, place, rfl⟩)))
  rw [mapBodies, ctes, derived, nodes]
  cases s
  rfl

/-- A scope is left alone where it is cut off further in than it reaches. -/
theorem clip_eq_self (low : s.height < n) : s.clip n = s := by
  induction n generalizing s with
  | zero => exact absurd low (Nat.not_lt_zero _)
  | succ n ih =>
    refine mapBodies_eq_self fun inner member => ih ?_
    have lower := height_lt_of_mem_nested member
    omega

/-- Nothing lies further in than a scope reaches. -/
theorem nestedAt_eq_nil (low : s.height ≤ n) : s.nestedAt n = [] := by
  induction n generalizing s with
  | zero =>
    refine List.eq_nil_iff_forall_not_mem.mpr fun inner member => ?_
    have lower := height_lt_of_mem_nested member
    omega
  | succ n ih =>
    refine List.flatMap_eq_nil_iff.mpr fun inner member => ih ?_
    have lower := height_lt_of_mem_nested member
    omega

/-- How far a scope reaches is where nothing lies any more. -/
theorem nestedAt_eq_nil_iff : s.nestedAt n = [] ↔ s.height ≤ n := by
  refine ⟨fun none => ?_, nestedAt_eq_nil⟩
  induction n generalizing s with
  | zero =>
    rcases Nat.eq_zero_or_pos s.height with flat | high
    · exact Nat.le_of_eq flat
    · obtain ⟨inner, member, -⟩ := exists_nested_of_height_pos high
      exact absurd (none ▸ member : inner ∈ []) List.not_mem_nil
  | succ n ih =>
    rcases Nat.eq_zero_or_pos s.height with flat | high
    · exact flat ▸ Nat.zero_le _
    · obtain ⟨inner, member, same⟩ := exists_nested_of_height_pos high
      rw [← same]
      exact Nat.succ_le_succ (ih (List.flatMap_eq_nil_iff.mp none inner member))

/-- Cutting a scope off at a level empties the scopes that lie there, and no other. -/
theorem nestedAt_clip (s : Scope) (n : Nat) : (s.clip (n + 1)).nestedAt n =
    (s.nestedAt n).map (Nested.mapBody fun _ => .empty) := by
  induction n generalizing s with
  | zero => exact nested_mapBodies _
  | succ n ih =>
    rw [clip, nestedAt, nested_mapBodies, List.flatMap_map, nestedAt, List.map_flatMap]
    simp only [Nested.mapBody, ih]

end Scope
end TableAccess
