import TableAccess.Proofs.Access.Pruning

/-! What a bound on the depth takes away from a statement. Reading down to a bound is reading the
statement that is cut off there under any greater bound, apart from the notes about depth. Of
these there is one for each scope that is cut off; so a bound that nothing exceeds makes no
difference. -/
namespace TableAccess

/-- An update with another scope in the place of its own. -/
def Update.mapScope (f : Scope → Scope) (u : Update) : Update := { u with scope := f u.scope }

namespace Statement

/-- A statement with other scopes in the place of those that it is made of. -/
def mapScopes (f : Scope → Scope) : Statement → Statement
  | .select scope => .select (f scope)
  | .insert i => .insert
    { i with source := i.source.map f, onConflict := i.onConflict.map (Update.mapScope f) }
  | .update u => .update (u.mapScope f)
  | .delete scope => .delete (f scope)
  | .unknown => .unknown

/-- A statement with the empty scope in the place of each that lies some levels below it. -/
def clip (n : Nat) (s : Statement) : Statement := s.mapScopes (Scope.clip n)

/-- The scopes some levels further in than those directly in the scopes of a statement. -/
def nestedAt (n : Nat) (s : Statement) : List Nested := s.scopes.flatMap (Scope.nestedAt n)

/-- How many scopes lie in each other below the scopes of a statement. -/
def height (s : Statement) : Nat := (s.scopes.map Scope.height).foldr max 0

section
variable {catalog : Catalog} {d e n : Nat} {s : Statement} {f : Scope → Scope}

theorem scopes_mapScopes (s : Statement) : (s.mapScopes f).scopes = s.scopes.map f := by
  match s with
  | .select _ | .delete _ | .update _ | .unknown => rfl
  | .insert ⟨_, _, source, onConflict⟩ => cases source <;> cases onConflict <;> rfl

theorem mapScopes_eq_self (fixed : ∀ scope ∈ s.scopes, f scope = scope) : s.mapScopes f = s := by
  match s with
  | .select scope => exact congrArg select (fixed scope (List.mem_singleton_self _))
  | .delete scope => exact congrArg delete (fixed scope (List.mem_singleton_self _))
  | .unknown => rfl
  | .update u =>
    have same := fixed u.scope (List.mem_singleton_self _)
    rw [mapScopes, Update.mapScope, same]
  | .insert ⟨table, columns, source, onConflict⟩ =>
    have first : source.map f = source := by
      cases source with
      | none => rfl
      | some scope => exact congrArg some (fixed scope (List.mem_append_left _ (by simp)))
    have second : onConflict.map (Update.mapScope f) = onConflict := by
      cases onConflict with
      | none => rfl
      | some u =>
        have same := fixed u.scope (List.mem_append_right _ (by simp))
        rw [Option.map_some, Update.mapScope, same]
    rw [mapScopes, first, second]

theorem height_le_of_mem {scope : Scope} (member : scope ∈ s.scopes) : scope.height ≤ s.height := by
  unfold height
  generalize s.scopes = all at member
  induction all with
  | nil => cases member
  | cons first rest ih =>
    rw [List.map_cons, List.foldr_cons]
    rcases List.mem_cons.mp member with rfl | later
    · exact Nat.le_max_left _ _
    · exact Nat.le_trans (ih later) (Nat.le_max_right _ _)

theorem nestedAt_clip (s : Statement) (n : Nat) : (s.clip (n + 1)).nestedAt n =
    (s.nestedAt n).map (Nested.mapBody fun _ => .empty) := by
  rw [nestedAt, clip, scopes_mapScopes, List.flatMap_map, nestedAt, List.map_flatMap]
  simp only [Scope.nestedAt_clip]

private theorem update_read_clip (above : d < e) (u : Update) :
    (u.mapScope (Scope.clip (d + 1))).read ⟨catalog, e⟩ = (u.read ⟨catalog, d⟩).quiet := by
  have read : (u.scope.clip (d + 1)).read ⟨catalog, e⟩ [] [] 0 =
      (u.scope.read ⟨catalog, d⟩ [] [] 0).quiet := u.scope.read_clip (Nat.zero_add d) above
  have first : (u.mapScope (Scope.clip (d + 1))).table? = u.table? := rfl
  unfold Update.read
  rw [first]
  cases u.table? with
  | none => exact read
  | some t =>
    have both := Reading.quiet_append (u.scope.read ⟨catalog, d⟩ [] [] 0)
      (Resolver.write ⟨catalog, d⟩ (catalog.canonical [] t.name) u.targets)
    rw [(Resolver.complete_write _ _ _).quiet_eq] at both
    simp only [Update.mapScope, read]
    exact congrArg (fun all : Reading =>
      { all with outputs := (u.scope.read ⟨catalog, d⟩ [] [] 0).outputs }) both.symm

theorem read_clip (above : d < e) (s : Statement) :
    (s.clip (d + 1)).read ⟨catalog, e⟩ = (s.read ⟨catalog, d⟩).quiet := by
  match s with
  | .select scope | .delete scope => exact scope.read_clip (Nat.zero_add d) above
  | .update u => exact update_read_clip above u
  | .unknown => rfl
  | .insert ⟨table, columns, source, onConflict⟩ =>
    have written := (Resolver.complete_write ⟨catalog, d⟩ (catalog.canonical [] table.name)
      columns).quiet_eq
    simp only [clip, mapScopes, read, Insert.read, Reading.quiet_append, written,
      (Reading.complete_ofTables _).quiet_eq]
    congr 1
    · congr 2
      cases source with
      | none => rfl
      | some scope => exact scope.read_clip (Nat.zero_add d) above
    · cases onConflict with
      | none => rfl
      | some u => exact update_read_clip above u

theorem cuts_read (r : Resolver) (s : Statement) :
    (s.read r).cuts = (s.nestedAt r.maxDepth).map r.cutNote := by
  have scope (whole : Scope) : (whole.read r [] [] 0).cuts =
      (whole.nestedAt r.maxDepth).map r.cutNote := whole.cuts_read (Nat.zero_add _)
  have update (u : Update) : (u.read r).cuts = (u.scope.nestedAt r.maxDepth).map r.cutNote := by
    unfold Update.read
    split
    · refine (Reading.cuts_append _ _).trans ?_
      rw [scope, (r.complete_write _ _).cuts_eq, List.append_nil]
    · exact scope u.scope
  match s with
  | .select whole | .delete whole =>
    simp only [read, nestedAt, scopes, List.flatMap_cons, List.flatMap_nil, List.append_nil, scope]
  | .update u =>
    simp only [read, nestedAt, scopes, List.flatMap_cons, List.flatMap_nil, List.append_nil, update]
  | .unknown => rfl
  | .insert ⟨table, columns, source, onConflict⟩ =>
    simp only [read, Insert.read, Reading.cuts_append, (r.complete_write _ _).cuts_eq,
      (Reading.complete_ofTables _).cuts_eq, List.append_nil]
    cases source <;> cases onConflict <;> simp [nestedAt, scopes, scope, update]

/-- A statement that reaches no further than a bound has nothing below it. -/
theorem nestedAt_eq_nil (low : s.height ≤ d) : s.nestedAt d = [] :=
  List.flatMap_eq_nil_iff.mpr fun _ member =>
    Scope.nestedAt_eq_nil (Nat.le_trans (height_le_of_mem member) low)

theorem nestedAt_eq_nil_iff : s.nestedAt n = [] ↔ s.height ≤ n := by
  refine ⟨fun none => ?_, nestedAt_eq_nil⟩
  have each := List.flatMap_eq_nil_iff.mp none
  unfold height
  generalize s.scopes = all at each
  induction all with
  | nil => exact Nat.zero_le _
  | cons first rest ih =>
    obtain ⟨first, others⟩ := List.forall_mem_cons.mp each
    exact Nat.max_le.mpr ⟨Scope.nestedAt_eq_nil_iff.mp first, ih others⟩

theorem clip_eq_self (low : s.height ≤ d) : s.clip (d + 1) = s :=
  mapScopes_eq_self fun _ member =>
    Scope.clip_eq_self (Nat.lt_succ_of_le (Nat.le_trans (height_le_of_mem member) low))

end

/-- What is left of a statement that is read down to a bound. -/
structure OnlyPruned (catalog : Catalog) (d : Nat) (s : Statement) : Prop where
  /-- It reads like the statement that is cut off there, the notes about depth apart. -/
  pruned : ∀ e, d < e → (s.clip (d + 1)).read ⟨catalog, e⟩ = (s.read ⟨catalog, d⟩).quiet
  /-- Exactly the scopes just below the bound are cut off. -/
  emptied : (s.clip (d + 1)).nestedAt d = (s.nestedAt d).map (Nested.mapBody fun _ => .empty)
  /-- Each of them is noted once, in order. -/
  noted : (s.read ⟨catalog, d⟩).cuts = (s.nestedAt d).map (Resolver.cutNote ⟨catalog, d⟩)
  /-- If there is none, then greater bounds make no difference. -/
  steady : s.height ≤ d → ∀ e, d ≤ e →
    s.read ⟨catalog, e⟩ = s.read ⟨catalog, d⟩ ∧ (s.read ⟨catalog, e⟩).Complete

/-- **A bound on the depth only prunes.** -/
theorem only_pruned (catalog : Catalog) (d : Nat) (s : Statement) : s.OnlyPruned catalog d where
  pruned e above := read_clip above s
  emptied := nestedAt_clip s d
  noted := cuts_read ⟨catalog, d⟩ s
  steady low e above := by
    have complete : (s.read ⟨catalog, d⟩).Complete := by
      rw [Reading.complete_iff_cuts, cuts_read ⟨catalog, d⟩, nestedAt_eq_nil low, List.map_nil]
    have same : s.read ⟨catalog, e⟩ = s.read ⟨catalog, d⟩ := by
      rcases Nat.eq_or_lt_of_le above with rfl | above
      · rfl
      · rw [← complete.quiet_eq, ← read_clip above, clip_eq_self low]
    exact ⟨same, same ▸ complete⟩

/-- A query two levels deep in two places: in a subquery of a named query, and in a condition
within a condition. -/
def nestedOrders : Scope where
  ctes := [⟨"recent", [], ⟨[], [], [⟨some "o", [], .ofTable ⟨"orders", none⟩⟩],
    [.column ⟨some "o", "id"⟩], [.wildcard none]⟩⟩]
  tables := [⟨"recent", some "r"⟩]
  derived := []
  nodes := [.call "exists" "exists(...)"
    [.subquery ⟨[], [⟨"items", some "i"⟩], [],
      [.column ⟨some "r", "id"⟩, .subquery (.ofTable ⟨"stock", none⟩)], [.named "id"]⟩]]
  outputs := [.wildcard none]

theorem only_pruned_orders :
    let s := Statement.select nestedOrders
    s.height = 2 ∧ (s.read ⟨.empty, 1⟩).cuts.map Diagnostic.subject = [some "o", none] ∧
      (s.clip 2).read ⟨.empty, 7⟩ = (s.read ⟨.empty, 1⟩).quiet ∧
      s.read ⟨.empty, 32⟩ = s.read ⟨.empty, 2⟩ ∧ (s.read ⟨.empty, 32⟩).Complete := by
  intro s
  have height : s.height = 2 := by decide +kernel
  have steady := (only_pruned .empty 2 s).steady (Nat.le_of_eq height) 32 (by decide)
  refine ⟨height, ?_, (only_pruned .empty 1 s).pruned 7 (by decide), steady⟩
  rw [(only_pruned .empty 1 s).noted]
  decide +kernel

end Statement
end TableAccess
