import TableAccess.Proofs.Report.Listing
import Mathlib.Data.List.Forall2

/-! The order in which a report lists its diagnostics. It looks at everything that a diagnostic says except
for what it is about, so diagnostics that it does not tell apart differ in nothing but their subject, and
they stay as they came. From however many places the diagnostics are collected, and in whatever order, the
reports agree line by line up to such subjects. -/
namespace TableAccess
namespace Diagnostic

/-- The worse one is first; then it goes by file, statement, finding and message, and what is not noted
comes before anything that is. -/
def Before (a b : Diagnostic) : Prop :=
  b.severity.rank < a.severity.rank ∨ (a.severity = b.severity ∧
    (a.file < b.file ∨ (a.file = b.file ∧
      (a.statement < b.statement ∨ (a.statement = b.statement ∧
        (a.finding.rank < b.finding.rank ∨ (a.finding = b.finding ∧ a.message < b.message)))))))

/-- Neither of two diagnostics is before the other. -/
structure Level (a b : Diagnostic) : Prop where
  severity : a.severity = b.severity
  file : a.file = b.file
  statement : a.statement = b.statement
  finding : a.finding = b.finding
  message : a.message = b.message

instance (a b : Diagnostic) : Decidable (a.Level b) :=
  decidable_of_iff (a.severity = b.severity ∧ a.file = b.file ∧ a.statement = b.statement ∧
      a.finding = b.finding ∧ a.message = b.message)
    ⟨fun ⟨severity, file, statement, finding, message⟩ => ⟨severity, file, statement, finding, message⟩,
      fun level => ⟨level.severity, level.file, level.statement, level.finding, level.message⟩⟩

/-- What a diagnostic says, without what it is about. -/
def unnamed (d : Diagnostic) : Diagnostic := { d with subject := none }

/-- Whether two diagnostics agree in everything but their subject. -/
def AlikeButSubject (a b : Diagnostic) : Prop := a.unnamed = b.unnamed

end Diagnostic

private theorem compare_text_eq_lt {a b : String} : compare a b = .lt ↔ a < b :=
  compareOfLessAndEq_eq_lt

private theorem compare_text_eq_eq {a b : String} : compare a b = .eq ↔ a = b :=
  Std.LawfulEqOrd.compare_eq_iff_eq

private theorem optionalOrder_eq_lt {a b : Option String} : optionalOrder a b = .lt ↔ a < b := by
  cases a <;> cases b <;> simp [optionalOrder, compare_text_eq_lt]

private theorem optionalOrder_eq_eq {a b : Option String} : optionalOrder a b = .eq ↔ a = b := by
  cases a <;> cases b <;> simp [optionalOrder]

theorem Severity.rank_injective : Function.Injective Severity.rank := by
  intro a b same
  cases a <;> cases b <;> simp_all [rank]

theorem Finding.rank_injective : Function.Injective Finding.rank := by
  intro a b same
  cases a <;> cases b <;> simp_all [rank]

namespace Diagnostic
variable {a b : Diagnostic}

private theorem compare_severity_eq_eq :
    compare b.severity.rank a.severity.rank = .eq ↔ a.severity = b.severity :=
  Nat.compare_eq_eq.trans (Severity.rank_injective.eq_iff.trans eq_comm)

private theorem compare_finding_eq_eq :
    compare a.finding.rank b.finding.rank = .eq ↔ a.finding = b.finding :=
  Nat.compare_eq_eq.trans Finding.rank_injective.eq_iff

theorem order_eq_lt : a.order b = .lt ↔ a.Before b := by
  simp only [order, Before, Ordering.then_eq_lt, compare_severity_eq_eq, compare_finding_eq_eq,
    optionalOrder_eq_lt, optionalOrder_eq_eq, compare_text_eq_lt, Nat.compare_eq_lt]

theorem order_eq_eq : a.order b = .eq ↔ a.Level b := by
  simp only [order, Ordering.then_eq_eq, compare_severity_eq_eq, compare_finding_eq_eq,
    optionalOrder_eq_eq, compare_text_eq_eq]
  exact ⟨fun ⟨severity, file, statement, finding, message⟩ =>
      ⟨severity, file, statement, finding, message⟩,
    fun level => ⟨level.severity, level.file, level.statement, level.finding, level.message⟩⟩

/-- The order of a report has seen everything but the subject. -/
theorem Level.alikeButSubject (level : a.Level b) : a.AlikeButSubject b := by
  obtain ⟨severity, file, statement, finding, message⟩ := level
  simp [AlikeButSubject, unnamed, severity, file, statement, finding, message]

/-- The order of a report does not look at the subject. -/
theorem order_unnamed : a.unnamed.order b.unnamed = a.order b := rfl

end Diagnostic

namespace Report
open Diagnostic
variable {diagnostics collected : List Diagnostic}

theorem sort_eq_inOrder : sort diagnostics = inOrder Diagnostic.order diagnostics := rfl

theorem pairwise_sort : (sort diagnostics).Pairwise fun a b => a.Before b ∨ a.Level b := by
  refine pairwise_inOrder.imp fun {a b} notAfter => ?_
  cases compared : a.order b with
  | lt => exact .inl (order_eq_lt.mp compared)
  | eq => exact .inr (order_eq_eq.mp compared)
  | gt => exact absurd compared notAfter

theorem filter_level_sort (d : Diagnostic) :
    ((sort diagnostics).filter fun e => d.Level e) = diagnostics.filter fun e => d.Level e := by
  have run (items : List Diagnostic) :
      (items.filter fun e => d.Level e) = peers Diagnostic.order d items :=
    List.filter_congr fun e _ => by rw [Bool.eq_iff_iff, decide_eq_true_iff, beq_iff_eq, order_eq_eq]
  rw [run, run, sort_eq_inOrder, peers_inOrder]

/-- Up to the subjects, a report is decided by which diagnostics there are. -/
theorem map_unnamed_sort (permuted : diagnostics.Perm collected) :
    (sort diagnostics).map unnamed = (sort collected).map unnamed := by
  have ordered (items : List Diagnostic) :
      ((sort items).map unnamed).Pairwise fun a b => a.order b ≠ .gt :=
    List.pairwise_map.mpr (pairwise_inOrder.imp fun notAfter => by rwa [order_unnamed])
  have same : (sort diagnostics).Perm (sort collected) :=
    perm_inOrder.trans (permuted.trans perm_inOrder.symm)
  refine List.Perm.eq_of_pairwise ?_ (ordered _) (ordered _) (same.map unnamed)
  intro a b listed listed' notAfter notBefore
  obtain ⟨d, _, rfl⟩ := List.mem_map.mp listed
  obtain ⟨e, _, rfl⟩ := List.mem_map.mp listed'
  have level : d.unnamed.order e.unnamed = .eq := by
    cases compared : d.unnamed.order e.unnamed with
    | eq => rfl
    | gt => exact absurd compared notAfter
    | lt => exact absurd (Std.OrientedCmp.gt_iff_lt.mpr compared) notBefore
  exact (order_eq_eq.mp level).alikeButSubject

/-- **The sorted view of the diagnostics is canonical.** It is a rearrangement of them with the worst
first, then by file, statement, finding and message; diagnostics that agree in all of these stay as they
came, and sorting again changes nothing. From rearranged diagnostics the view is the same, line by line,
up to the subjects of diagnostics that agree in everything else. -/
theorem sort_canonical (diagnostics : List Diagnostic) :
    (sort diagnostics).Perm diagnostics ∧
      (sort diagnostics).Pairwise (fun a b => a.Before b ∨ a.Level b) ∧
      (∀ d : Diagnostic, ((sort diagnostics).filter fun e => d.Level e) =
        diagnostics.filter fun e => d.Level e) ∧
      sort (sort diagnostics) = sort diagnostics ∧
      ∀ collected, diagnostics.Perm collected → (sort diagnostics).Perm (sort collected) ∧
        List.Forall₂ AlikeButSubject (sort diagnostics) (sort collected) := by
  refine ⟨perm_inOrder, pairwise_sort, filter_level_sort, inOrder_inOrder, fun collected permuted => ?_⟩
  refine ⟨perm_inOrder.trans (permuted.trans perm_inOrder.symm), ?_⟩
  have alike : List.Forall₂ (· = ·) ((sort diagnostics).map unnamed) ((sort collected).map unnamed) := by
    rw [List.forall₂_eq_eq_eq]
    exact map_unnamed_sort permuted
  rwa [List.forall₂_map_left_iff, List.forall₂_map_right_iff] at alike

/-- Two columns of one message, found in either order, beside a file that cannot be read. -/
theorem sort_canonical_columns :
    let nick := Diagnostic.about .unknownColumn "column matches no table" "u.nick"
    let mail := Diagnostic.about .unknownColumn "column matches no table" "u.mail"
    let lost := (Diagnostic.of .malformedInput "Bad request").inFile "users.xml"
    [nick, mail, lost].Perm [lost, mail, nick] ∧
      (sort [nick, mail, lost]).Perm (sort [lost, mail, nick]) ∧
      List.Forall₂ AlikeButSubject (sort [nick, mail, lost]) (sort [lost, mail, nick]) := by
  intro nick mail lost
  have permuted : [nick, mail, lost].Perm [lost, mail, nick] := by decide
  exact ⟨permuted, (sort_canonical [nick, mail, lost]).2.2.2.2 _ permuted⟩

end Report
end TableAccess
