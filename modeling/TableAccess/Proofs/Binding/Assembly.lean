import TableAccess.Proofs.Binding.Findings

/-! How the reading of a scope is put together. A scope reads its named queries one after the
other, then the subqueries among its sources, then the places of its expressions, and its outputs
last; all that it takes from a nested scope is the reading of that scope's body. Two readings of
a scope are therefore compared part by part, and only at the bodies scope by scope. -/
namespace TableAccess

namespace Reading

theorem append_assoc (a b c : Reading) : a ++ b ++ c = a ++ (b ++ c) := by
  show Reading.mk _ _ _ _ = Reading.mk _ _ _ _
  simp only [Reading.mk.injEq, and_true]
  exact ⟨List.append_assoc .., List.append_assoc .., List.append_assoc ..⟩

/-- What a reading gives is lost once something is read after it. -/
theorem append_empty_append (a b : Reading) : a ++ empty ++ b = a ++ b := by
  rw [append_assoc]
  rfl

end Reading

/-- What is read of a nested body, or that it lies too deep to be read. -/
def Resolver.readBody (r : Resolver) (what : String) (subject : Option String)
    (ctes : LocalTables) (outer : Frames) (depth : Nat) (body : Scope) : Reading :=
  if depth < r.maxDepth then body.read r ctes outer (depth + 1) else r.tooDeep what subject

/-- The table that a named query stands for once its body is read. -/
def Cte.schema (c : Cte) (body : Reading) : TableSchema :=
  ⟨c.aliasName, declaredOr c.columns body.outputs⟩

/-- The source that a subquery is once its body is read. -/
def Derived.source (d : Derived) (body : Reading) : Source where
  aliasName := d.aliasName
  columns :=
    match d.aliasName with
    | some _ => declaredOr d.columns body.outputs
    | none => body.outputs
  reading := body

/-- What is read at several places, one after the other. -/
def Place.readAll (r : Resolver) (frames : Frames) (ctes : LocalTables) (depth : Nat) :
    List Place → Reading
  | [] => .empty
  | p :: rest => p.read r frames ctes depth ++ Place.readAll r frames ctes depth rest

section
variable {r : Resolver} {frames outer : Frames} {ctes : LocalTables} {depth : Nat}

/-- A named query is read before those that follow it, which see it. -/
theorem Cte.readAll_cons (c : Cte) (rest : List Cte) :
    Cte.readAll r ctes outer depth (c :: rest) =
      let body := r.readBody "CTE" (some c.aliasName) ctes outer depth c.body
      let later := Cte.readAll r (c.schema body :: ctes) outer depth rest
      (later.1, body ++ .ofTables [c.aliasName] ++ later.2) := by
  cases c
  rfl

/-- The subqueries among the sources of a scope are read each by itself. -/
theorem Derived.readAll_eq_map (declared : List Derived) :
    Derived.readAll r ctes outer depth declared = declared.map fun d =>
      d.source (r.readBody "derived table" d.aliasName ctes outer depth d.body) := by
  induction declared with
  | nil => rfl
  | cons d rest ih =>
    cases d
    simp only [Derived.readAll, ih]
    rfl

theorem Place.readAll_append (first second : List Place) :
    Place.readAll r frames ctes depth (first ++ second) =
      Place.readAll r frames ctes depth first ++ Place.readAll r frames ctes depth second := by
  induction first with
  | nil => cases second <;> rfl
  | cons p rest ih => rw [List.cons_append, readAll, ih, readAll, Reading.append_assoc]

mutual

private theorem Node.read_append : ∀ (n : Node) (after : Reading),
    n.read r frames ctes depth ++ after =
      Place.readAll r frames ctes depth n.places ++ after
  | .column _, after => (Reading.append_empty_append _ after).symm
  | .call _ text arguments, after => by
    rw [Node.read, Node.places, Node.readArguments_eq text arguments]
  | .subquery _, after => (Reading.append_empty_append _ after).symm

private theorem Node.readArguments_eq (call : String) : ∀ arguments : List Node,
    Node.readArguments r frames ctes depth call arguments =
      Place.readAll r frames ctes depth (Node.argumentPlaces call arguments)
  | [] => rfl
  | n :: rest => by
    have others := Node.readArguments_eq call rest
    have first := Node.read_append n (Node.readArguments r frames ctes depth call rest)
    rw [others] at first
    cases n <;> simp only [Node.readArguments, Node.argumentPlaces, Place.readAll_append, others,
      first]
    exact (Reading.append_empty_append _ _).symm

end

/-- Expressions are read place by place. -/
theorem Node.readAll_eq_places (nodes : List Node) : Node.readAll r frames ctes depth nodes =
    Place.readAll r frames ctes depth (Node.placesOf nodes) := by
  induction nodes with
  | nil => rfl
  | cons n rest ih =>
    rw [Node.readAll, Node.placesOf, Place.readAll_append, ih, Node.read_append]

end

/-- What a scope reads and gives, from what its sources, its places and its outputs read. -/
def Sources.finish (sources : Sources) (inside given : Reading) : Reading :=
  let reading := sources.reading
    ++ .ofTables (sources.aliases.entries.map AliasEntry.table) ++ inside
  match sources.branch, sources.aliases.entries with
  | some columns, [] => { reading with outputs := columns }
  | _, _ => { reading ++ given with outputs := given.outputs }

theorem Scope.read_eq_finish (r : Resolver) (ctes : LocalTables) (outer : Frames) (depth : Nat)
    (s : Scope) : s.read r ctes outer depth =
      (s.sources r ctes outer depth).finish
        (Place.readAll r (s.frame r ctes outer depth :: outer) (s.visible r ctes outer depth) depth
          (Node.placesOf s.nodes))
        (r.outputs (s.frame r ctes outer depth :: outer) s.outputs) := by
  rw [← Node.readAll_eq_places]
  cases s
  rfl

end TableAccess
