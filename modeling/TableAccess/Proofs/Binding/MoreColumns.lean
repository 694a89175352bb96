import TableAccess.Proofs.Binding.Assembly
import TableAccess.Proofs.Binding.Parts
import TableAccess.Sql.Outline

/-! Scopes that differ in the columns that they mention. If one scope has the sources and the places of
another one and mentions some columns more, it reads what the other one reads and those columns, each as
its own names have it. -/
namespace TableAccess
open TableAccess.Sql

/-- Whether a scope is another one with more mentions of columns at its places. -/
structure Scope.Adds (more : List ColumnRef) (base s : Scope) : Prop where
  ctes : s.ctes = base.ctes
  tables : s.tables = base.tables
  derived : s.derived = base.derived
  outputs : s.outputs = base.outputs
  places : ∀ p, p ∈ Node.placesOf s.nodes ↔
    p ∈ Node.placesOf base.nodes ∨ ∃ c ∈ more, p = .column c

namespace Scope.Adds
variable {more others : List ColumnRef} {base s base' s' : Scope}

theorem refl (s : Scope) : Adds [] s s := ⟨rfl, rfl, rfl, rfl, fun _ => by simp⟩

theorem append (first : Adds more base s) (second : Adds others base' s') :
    Adds (more ++ others) (base ++ base') (s ++ s') where
  ctes := congrArg₂ _ first.ctes second.ctes
  tables := congrArg₂ _ first.tables second.tables
  derived := congrArg₂ _ first.derived second.derived
  outputs := congrArg₂ _ first.outputs second.outputs
  places p := by
    change p ∈ Node.placesOf (s.nodes ++ s'.nodes) ↔ p ∈ Node.placesOf (base.nodes ++ base'.nodes) ∨ _
    rw [Node.placesOf_append, Node.placesOf_append, List.mem_append, List.mem_append, first.places p,
      second.places p]
    simp only [List.mem_append, or_and_right, exists_or]
    exact or_or_or_comm

theorem ofNodes (nodes : List Node) (more : List ColumnRef) :
    Adds more (Scope.ofNodes nodes) (Scope.ofNodes (nodes ++ more.map .column)) where
  ctes := rfl
  tables := rfl
  derived := rfl
  outputs := rfl
  places p := by
    have columns : Node.placesOf (more.map .column) = more.map .column := by
      induction more with
      | nil => rfl
      | cons c rest ih => exact congrArg (List.cons _) ih
    change p ∈ Node.placesOf (nodes ++ more.map .column) ↔ _
    rw [Node.placesOf_append, List.mem_append, columns, List.mem_map]
    simp only [eq_comm]
    rfl

theorem withCtes (adds : Adds more base s) (ctes : List TableAccess.Cte) :
    Adds more { base with ctes } { s with ctes } :=
  ⟨rfl, adds.tables, adds.derived, adds.outputs, adds.places⟩

theorem readBesideOutputs (adds : Adds more base s) (nodes : List Node) :
    Adds more (Sql.Scope.readBesideOutputs base nodes) (Sql.Scope.readBesideOutputs s nodes) where
  ctes := adds.ctes
  tables := adds.tables
  derived := adds.derived
  outputs := adds.outputs
  places p := by
    unfold Sql.Scope.readBesideOutputs
    rw [adds.outputs, Node.placesOf_append, Node.placesOf_append, List.mem_append, List.mem_append,
      adds.places p]
    exact or_right_comm

section
variable {r : Resolver} {ctes : LocalTables} {outer : Frames} {depth : Nat} {pair : String × String}

theorem visible (adds : Adds more base s) :
    s.visible r ctes outer depth = base.visible r ctes outer depth := by
  rw [Scope.visible, Scope.visible, adds.ctes]

theorem sources (adds : Adds more base s) :
    s.sources r ctes outer depth = base.sources r ctes outer depth := by
  rw [Scope.sources, Scope.sources, adds.visible, adds.tables, adds.derived, adds.ctes]

theorem frame (adds : Adds more base s) : s.frame r ctes outer depth = base.frame r ctes outer depth := by
  rw [Scope.frame, Scope.frame, adds.sources, adds.visible]

/-- The columns that are read are those of the other scope and those of the mentions. -/
theorem mem_columns_read (adds : Adds more base s) :
    pair ∈ (s.read r ctes outer depth).columns ↔ pair ∈ (base.read r ctes outer depth).columns ∨
      ∃ c ∈ more, pair ∈ (r.mention (base.frame r ctes outer depth :: outer) c).columns := by
  have placed {frames : Frames} {ctes : LocalTables} (places : List Place) :
      pair ∈ (Place.readAll r frames ctes depth places).columns ↔
        ∃ p ∈ places, pair ∈ (p.read r frames ctes depth).columns := by
    induction places with
    | nil => simp [Place.readAll, Reading.empty]
    | cons p rest ih =>
      rw [List.exists_mem_cons_iff, ← ih]
      exact List.mem_append
  have finished {sources : Sources} {inside inside' given : Reading} {also : Prop}
      (same : pair ∈ inside.columns ↔ pair ∈ inside'.columns ∨ also) :
      pair ∈ (sources.finish inside given).columns ↔
        pair ∈ (sources.finish inside' given).columns ∨ also := by
    unfold Sources.finish
    split
    · change pair ∈ sources.reading.columns ++ [] ++ inside.columns ↔
        pair ∈ sources.reading.columns ++ [] ++ inside'.columns ∨ also
      simp only [List.mem_append, same, or_assoc]
    · change pair ∈ sources.reading.columns ++ [] ++ inside.columns ++ given.columns ↔
        pair ∈ sources.reading.columns ++ [] ++ inside'.columns ++ given.columns ∨ also
      simp only [List.mem_append, same, ← or_assoc]
      exact or_right_comm
  rw [Scope.read_eq_finish, Scope.read_eq_finish, adds.sources, adds.frame, adds.visible, adds.outputs]
  refine finished ?_
  rw [placed, placed]
  constructor
  · rintro ⟨p, there, recorded⟩
    rcases (adds.places p).mp there with there | ⟨c, listed, rfl⟩
    · exact .inl ⟨p, there, recorded⟩
    · exact .inr ⟨c, listed, recorded⟩
  · rintro (⟨p, there, recorded⟩ | ⟨c, listed, recorded⟩)
    · exact ⟨p, (adds.places p).mpr (.inl there), recorded⟩
    · exact ⟨.column c, (adds.places _).mpr (.inr ⟨c, listed, rfl⟩), recorded⟩

end
end Scope.Adds
end TableAccess
