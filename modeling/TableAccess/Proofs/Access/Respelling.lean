import TableAccess.Proofs.Access.AlikeStatements
import TableAccess.Proofs.Binding.Respelling

/-! What is read in a statement with other names in it. It is read alike if the new names have the
form of the old ones, and if what may stand in front of a column is renamed as far as it is
compared: the qualifiers and the aliases of tables as they are rewritten, the names of all other
sources as they are written. -/
namespace TableAccess

section
variable {l : Likeness} {c c' : Catalog} {d : Nat} {name key : String → String}

/-- Whether rewriting the names in front of the columns of a scope renames them. -/
structure Scope.Renames (l : Likeness) (name key : String → String) (s : Scope) : Prop where
  qualifiers : ∀ q ∈ s.ownQualifiers, fold (l.rename q) = fold (key q)
  sources : ∀ n ∈ s.ownNames, fold (l.rename n) = fold (name n)

namespace Scope.Renames
variable {s : Scope} (renames : s.Renames l name key) (spelled : ∀ n, l.form (name n) = l.form n)
include renames spelled

private theorem table {t : TableRef} (present : t ∈ s.tables) :
    l.source l.rename t = l.source id (t.respell name key) := by
  refine Prod.ext ?_ (spelled t.name).symm
  cases called : t.aliasName with
  | none =>
    have held : t.name ∈ s.ownNames :=
      List.mem_append_left _ (List.mem_map_of_mem (List.mem_filter.mpr ⟨present, by simp [called]⟩))
    simpa [Likeness.source, TableRef.key, TableRef.respell, called] using renames.sources _ held
  | some q =>
    have held : q ∈ s.ownQualifiers :=
      List.mem_append_left _ (List.mem_append_left _ (List.mem_filterMap.mpr ⟨t, present, called⟩))
    simpa [Likeness.source, TableRef.key, TableRef.respell, called] using renames.qualifiers _ held

private theorem column {column : ColumnRef} (mentioned : column ∈ s.columns) :
    l.column l.rename column = l.column id (column.respell name key) := by
  obtain ⟨qualifier, n⟩ := column
  refine ColumnRef.mk.injEq .. ▸ ⟨?_, (spelled n).symm⟩
  cases qualifier with
  | none => rfl
  | some q =>
    have held : q ∈ s.ownQualifiers := List.mem_append_left _
      (List.mem_append_right _ (List.mem_filterMap.mpr ⟨_, mentioned, rfl⟩))
    exact congrArg some (renames.qualifiers q held)

private theorem output {o : Output} (given : o ∈ s.outputs) :
    l.output l.rename o = l.output id (o.respell name key) := by
  match o with
  | .named n => exact congrArg Output.named (spelled n).symm
  | .wildcard none => rfl
  | .wildcard (some q) =>
    have held : q ∈ s.ownQualifiers :=
      List.mem_append_right _ (List.mem_filterMap.mpr ⟨_, given, rfl⟩)
    exact congrArg Output.wildcard (congrArg some (renames.qualifiers q held))

private theorem subquery {source : Derived} (declared : source ∈ s.derived) :
    source.aliasName.map (l.called l.rename) = (source.aliasName.map name).map (l.called id) := by
  cases called : source.aliasName with
  | none => rfl
  | some n =>
    have held : n ∈ s.ownNames :=
      List.mem_append_right _ (List.mem_filterMap.mpr ⟨source, declared, called⟩)
    exact congrArg some (Prod.ext (renames.sources n held) (spelled n).symm)

end Scope.Renames

private theorem spelled_columns (spelled : ∀ n, l.form (name n) = l.form n) (names : List String) :
    names.map l.form = (names.map name).map l.form := by
  rw [List.map_map]
  exact List.map_congr_left fun n _ => (spelled n).symm

/-- A scope is read alike with other names in it. -/
theorem Scope.respell_readsAlike {s : Scope} (catalogs : c.Alike l c')
    (allowed : ∀ n, l.allows n = true) (spelled : ∀ n, l.form (name n) = l.form n) :
    (∀ part ∈ s.parts, part.Renames l name key) →
      Scope.ReadsAlike l c c' d s (s.respell name key) := by
  induction s using Scope.tree_induction with
  | step s named sources inside =>
    intro renames
    have own := renames s (mem_parts.mpr (.inl rfl))
    have parts : s.respell name key = ⟨Cte.respellAll name key s.ctes,
        s.tables.map (TableRef.respell name key), Derived.respellAll name key s.derived,
        Node.respellAll name key s.nodes, s.outputs.map (Output.respell name key)⟩ := by
      cases s
      rfl
    rw [parts, Cte.respellAll_eq_map, Derived.respellAll_eq_map]
    refine Resembles.readsAlike catalogs
      ⟨?ctes, .inl ?tables, fun _ _ => allowed _, ?derived, ⟨_, ?places, rfl⟩, ?outputs⟩
    case ctes =>
      refine List.forall₂_map_right_iff.mpr (List.forall₂_same.mpr fun cte declared => ?_)
      refine ⟨(spelled _).symm, spelled_columns spelled _, named cte declared ?_, allowed _⟩
      exact fun part held => renames part (mem_parts.mpr (.inr (.inl ⟨cte, declared, held⟩)))
    case tables =>
      rw [List.map_map]
      exact List.map_congr_left fun t present => own.table spelled present
    case derived =>
      refine List.forall₂_map_right_iff.mpr (List.forall₂_same.mpr fun source declared => ?_)
      refine ⟨own.subquery spelled declared, spelled_columns spelled _, sources source declared ?_,
        fun _ _ => allowed _⟩
      exact fun part held => renames part (mem_parts.mpr (.inr (.inr (.inl ⟨source, declared, held⟩))))
    case places =>
      simp only [Node.placesOf_respell]
      refine List.forall₂_map_right_iff.mpr (List.forall₂_same.mpr fun p place => ?_)
      cases p with
      | column column =>
        exact .column (own.column spelled (Scope.mem_columns.mpr ⟨_, place, rfl⟩))
      | argument call column =>
        exact .argument (spelled call).symm
          (own.column spelled (Scope.mem_columns.mpr ⟨_, place, rfl⟩))
      | subquery body =>
        refine .subquery (inside body place fun part held => ?_)
        exact renames part (mem_parts.mpr (.inr (.inr (.inr ⟨body, place, held⟩))))
    case outputs =>
      rw [List.map_map]
      exact List.map_congr_left fun o given => own.output spelled given

/-- A statement resembles itself with other names in it. -/
theorem Statement.respell_resembles {s : Statement} (catalogs : c.Alike l c')
    (allowed : ∀ n, l.allows n = true) (spelled : ∀ n, l.form (name n) = l.form n)
    (renames : ∀ part ∈ s.parts, part.Renames l name key) :
    s.Resembles l (Scope.ReadsAlike l c c' d) (s.respell name key) := by
  have scope {scope : Scope} (member : scope ∈ s.scopes) :
      Scope.ReadsAlike l c c' d scope (scope.respell name key) :=
    Scope.respell_readsAlike catalogs allowed spelled fun part held =>
      renames part (List.mem_flatMap.mpr ⟨scope, member, held⟩)
  have update {u : Update} (member : u.scope ∈ s.scopes) :
      u.Resembles l (Scope.ReadsAlike l c c' d) (u.respell name key) := by
    refine ⟨spelled_columns spelled _, scope member, ?_⟩
    obtain ⟨targets, ctes, tables, derived, nodes, outputs⟩ := u
    cases tables with
    | nil => rfl
    | cons t rest => exact congrArg some (spelled t.name).symm
  match s with
  | .select _ => exact .select (scope (List.mem_singleton_self _))
  | .delete _ => exact .delete (scope (List.mem_singleton_self _))
  | .update _ => exact .update (update (List.mem_singleton_self _))
  | .unknown => exact .unknown
  | .insert ⟨table, columns, source, onConflict⟩ =>
    refine .insert ⟨(spelled _).symm, spelled_columns spelled _, ?_, ?_⟩
    · cases source with
      | none => exact .none
      | some _ => exact .some (scope (List.mem_append_left _ (List.mem_singleton_self _)))
    · cases onConflict with
      | none => exact .none
      | some _ => exact .some (update (List.mem_append_right _ (List.mem_singleton_self _)))

end
end TableAccess
