import TableAccess.Proofs.Report.Listing

/-! The order in which files are named makes no difference to a report. Entries and notes that the
order of a report does not tell apart come from one file, and of a file that is named twice both
copies are the same; so each run of such entries or notes is the same list however the files are
arranged. The lineage is built from the report, and of entries with one identifier it takes the
first in the order of the report, so it does not depend on the arrangement either. -/
namespace TableAccess
namespace Plan
variable {p : Plan} {paths : List String}

private theorem entries_reordered (files : Files) (reordered : p.statements.Perm paths) :
    ({ p with statements := paths }.statementReport files).entries =
      (p.statementReport files).entries := by
  rw [entries_statementReport, entries_statementReport]
  refine inOrder_congr fun x => peers_flatMap_perm reordered.symm ?_
  intro path other e listed e' listed' same
  rw [← file_of_entriesIn listed, ← file_of_entriesIn listed', ReportEntry.file_of_order same]

private theorem diagnostics_reordered (files : Files) (reordered : p.statements.Perm paths) :
    ({ p with statements := paths }.statementReport files).diagnostics =
      (p.statementReport files).diagnostics := by
  rw [diagnostics_statementReport, diagnostics_statementReport]
  refine inOrder_congr fun x => ?_
  rw [peers_append, peers_append]
  refine congrArg _ (peers_flatMap_perm reordered.symm ?_)
  intro path other d noted d' noted' same
  have sameFile : some path = some other := by
    rw [← file_of_notesIn noted, ← file_of_notesIn noted', Diagnostic.file_of_order same]
  exact Option.some.inj sameFile

/-- **Reports do not depend on the order of the statement files.** Entries, usage and diagnostics
are the same lists, and so is the lineage that is built on them, whichever files declare a statement
and however often a file is named. -/
theorem reports_reordered (files : Files) (p : Plan) (reordered : p.statements.Perm paths) :
    { p with statements := paths }.statementReport files = p.statementReport files ∧
    ∀ daos logic, { p with statements := paths }.lineageReport files daos logic =
      p.lineageReport files daos logic := by
  have same : { p with statements := paths }.statementReport files = p.statementReport files := by
    have entries := entries_reordered files reordered
    have diagnostics := diagnostics_reordered files reordered
    have usage : ({ p with statements := paths }.statementReport files).usage =
        (p.statementReport files).usage := by
      rw [usage_statementReport, usage_statementReport, entries]
    cases first : { p with statements := paths }.statementReport files
    cases second : p.statementReport files
    simp_all
  refine ⟨same, fun daos logic => ?_⟩
  simp only [lineageReport, same]

end Plan

/-- Two files that declare one statement, each with an unknown column in a text of its own. -/
def rivalFiles : Files
  | "first.yaml" =>
    some "namespace: Users\nstatements:\n- id: find\n  sql: SELECT u.id, nick FROM users u, friends"
  | "second.yaml" =>
    some "namespace: Users\nstatements:\n- id: find\n  sql: SELECT l.id, nick FROM logins l, hosts"
  | _ => none

/-- The statements of both files, the first of which is named twice. -/
def rivalPlan : Plan where
  schemas := []
  statements := ["first.yaml", "second.yaml", "first.yaml"]
  dialect := .postgresql
  source := .plain
  maxDepth := 32
  workers := none
  style := ⟨.json, false, false⟩

theorem Plan.reports_reordered_rivals :
    let paths := ["second.yaml", "first.yaml", "first.yaml"]
    rivalPlan.statements.Perm paths ∧
      { rivalPlan with statements := paths }.statementReport rivalFiles =
        rivalPlan.statementReport rivalFiles ∧
      ∀ daos logic, { rivalPlan with statements := paths }.lineageReport rivalFiles daos logic =
        rivalPlan.lineageReport rivalFiles daos logic := by
  have reordered : rivalPlan.statements.Perm ["second.yaml", "first.yaml", "first.yaml"] := by decide
  exact ⟨reordered, Plan.reports_reordered rivalFiles rivalPlan reordered⟩

end TableAccess
