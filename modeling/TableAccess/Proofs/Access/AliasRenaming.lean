import TableAccess.Proofs.Access.Respelling
import Mathlib.Logic.Equiv.Basic

/-! Aliases of tables do not leak. An alias may be replaced by a name that nothing in the statement
has yet, where tables are given it and in front of every column, and the statement reads and writes
the same. Since nothing has the new name, replacing the old one by it is exchanging the two, and
what an exchange finds is what was found before. -/
namespace TableAccess

/-- A name, or `b` in the place of `a`. -/
def replaceName (a b name : String) : String := if sameName name a then b else name

/-- A statement with `b` in the place of the alias `a`, where tables are given it and in front of
columns. Calls keep their written form. -/
def Statement.renameAlias (a b : String) (s : Statement) : Statement := s.respell id (replaceName a b)

/-- A name, or `a` and `b` in the place of each other. -/
private def exchange (a b name : String) : String :=
  if sameName name a then b else if sameName name b then a else name

private theorem fold_exchange (a b name : String) :
    fold (exchange a b name) = Equiv.swap (fold a) (fold b) (fold name) := by
  rw [Equiv.swap_apply_def]
  simp only [exchange, sameName_iff]
  split
  · rfl
  · split <;> rfl

private theorem sameName_exchange (a b x y : String) :
    sameName (exchange a b x) (exchange a b y) = sameName x y := by
  rw [Bool.eq_iff_iff, sameName_iff, sameName_iff, fold_exchange, fold_exchange]
  exact (Equiv.swap (fold a) (fold b)).injective.eq_iff

/-- Names are compared letter by letter, those in front of columns once two of them are
exchanged. -/
private def exchanging (a b : String) : Likeness :=
  { Likeness.literal with rename := exchange a b, sameName_rename := sameName_exchange a b }

section
variable {s : Statement} {a b : String}

/-- Replacing a name by one that is not there is exchanging the two. -/
private theorem renames (apart : hasName s.sourceNames a = false)
    (new : hasName (s.sourceNames ++ s.qualifiers) b = false) :
    ∀ part ∈ s.parts, part.Renames (exchanging a b) id (replaceName a b) := by
  simp only [hasName, List.any_append, Bool.or_eq_false_iff, List.any_eq_false, Bool.not_eq_true]
    at apart new
  intro part member
  constructor
  · intro q held
    have other : sameName q b = false :=
      (sameName_comm _ _).trans (new.2 q (List.mem_flatMap.mpr ⟨part, member, held⟩))
    show fold (exchange a b q) = _
    rw [exchange, other, replaceName]
    rfl
  · intro n held
    have named : n ∈ s.sourceNames := List.mem_flatMap.mpr ⟨part, member, held⟩
    have first : sameName n a = false := (sameName_comm _ _).trans (apart n named)
    have second : sameName n b = false := (sameName_comm _ _).trans (new.1 n named)
    show fold (exchange a b n) = _
    rw [exchange, first, second]
    rfl

/-- **Aliases of tables do not leak.** -/
theorem Statement.alias_hidden (r : Resolver) (tag : Option StatementId)
    (apart : hasName s.sourceNames a = false)
    (new : hasName (s.sourceNames ++ s.qualifiers) b = false) :
    (r.resolve (s.renameAlias a b) tag).access = (r.resolve s tag).access ∧
      ((s.renameAlias a b).read r).outputs = (s.read r).outputs ∧
      ((s.renameAlias a b).read r).notes.map Diagnostic.finding =
        (s.read r).notes.map Diagnostic.finding := by
  have catalogs : r.catalog.Alike (exchanging a b) r.catalog := fun _ => rfl
  have same := Statement.respell_resembles (d := r.maxDepth) catalogs (fun _ => rfl) (fun _ => rfl)
    (renames apart new)
  have alike := same.read catalogs
  have outputs := alike.outputs_eq rfl
  rw [show (exchanging a b).form = id from rfl, List.map_id, List.map_id] at outputs
  exact ⟨(alike.access_eq rfl same.kind).symm, outputs.symm, (alike.findings_eq rfl).symm⟩

/-- A query whose alias is also used in a subquery of its condition, beside a subquery among its
sources that has the same alias inside. -/
def buyers : Statement :=
  .select {
    ctes := []
    tables := [⟨"users", some "u"⟩]
    derived := [⟨some "d", [], ⟨[], [⟨"logs", some "U"⟩], [], [], [.wildcard (some "u")]⟩⟩]
    nodes := [.column ⟨some "u", "name"⟩, .subquery ⟨[], [⟨"orders", none⟩], [],
      [.call "f" "f(u.id)" [.column ⟨some "U", "id"⟩]], []⟩]
    outputs := [.wildcard (some "u"), .named "name"] }

theorem Statement.alias_hidden_buyers :
    let r : Resolver := ⟨.ofTables [⟨"users", ["id", "name"]⟩], 32⟩
    hasName buyers.sourceNames "u" = false ∧
      hasName (buyers.sourceNames ++ buyers.qualifiers) "x" = false ∧
      (r.resolve (buyers.renameAlias "u" "x") none).access = (r.resolve buyers none).access ∧
      ((buyers.renameAlias "u" "x").read r).outputs = (buyers.read r).outputs ∧
      ((buyers.renameAlias "u" "x").read r).notes.map Diagnostic.finding =
        (buyers.read r).notes.map Diagnostic.finding := by
  intro r
  have apart : hasName buyers.sourceNames "u" = false := by decide +kernel
  have new : hasName (buyers.sourceNames ++ buyers.qualifiers) "x" = false := by decide +kernel
  exact ⟨apart, new, alias_hidden r none apart new⟩

end
end TableAccess
