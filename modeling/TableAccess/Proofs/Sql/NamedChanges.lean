import TableAccess.Proofs.Sql.Rule
import TableAccess.Sql.Outline

/-! A list of named queries in front of a change. The grammar reads the change as the body of a query,
by the same rules that read it as a statement of its own. But a body that is a statement has an empty
scope, and the kind of the whole is that of a query: whatever is changed, the outline is a selection
that has the named queries and nothing else. -/
namespace TableAccess.Sql

variable {g : Grammar} {s : Setting} {tokens rest : List Lexeme} {body : Body}

/-- The statement that a body is, where it changes rows. -/
def Body.change? : Body → Option Statement
  | .insertion i => some (.insertion i)
  | .update u => some (.update u)
  | .deletion d => some (.deletion d)
  | _ => none

namespace Rule

theorem tableBody_reads (given : tableBody.Gives s tokens body rest) : body.change? = none := by
  rw [tableBody, gives_next.bind, gives_next.bind, gives_next.bind] at given
  split at given
  · obtain ⟨schema, _, _, given⟩ := gives_bind.mp given
    obtain ⟨name, _, rfl⟩ := gives_map.mp given
    rfl
  · obtain ⟨name, _, rfl⟩ := gives_map.mp given
    rfl

/-- A body without set operators changes nothing. -/
theorem plainBody_reads (given : (plainBody g).Gives s tokens body rest) :
    body.change? = none := by
  rw [plainBody, gives_dialect.bind, gives_peekWord.bind] at given
  split at given
  · obtain ⟨select, _, rfl⟩ := gives_map.mp given
    rfl
  · obtain ⟨enclosed, _, _, given⟩ := gives_bind.mp given
    split at given
    · obtain ⟨query, _, _, given⟩ := gives_bind.mp given
      obtain ⟨_, _, rfl⟩ := gives_map.mp given
      rfl
    · obtain ⟨keyword, _, _, given⟩ := gives_bind.mp given
      split at given
      · exact tableBody_reads given
      · obtain ⟨rows, _, rfl⟩ := gives_map.mp given
        rfl
      · obtain ⟨_, _, _, given⟩ := gives_bind.mp given
        exact absurd given not_gives_fail

theorem setOperations_reads {rank budget : Nat} {left : Body} (plain : left.change? = none)
    (given : (setOperations g rank budget left).Gives s tokens body rest) : body.change? = none := by
  induction budget generalizing left tokens with
  | zero =>
    rw [(gives_pure.unique.mp given).1]
    exact plain
  | succ budget ih =>
    rw [setOperations, gives_peekWord.bind] at given
    split at given
    · rw [(gives_pure.unique.mp given).1]
      exact plain
    · split at given
      · rw [(gives_pure.unique.mp given).1]
        exact plain
      · rw [gives_next.bind] at given
        obtain ⟨quantifier, _, _, given⟩ := gives_bind.mp given
        obtain ⟨right, _, _, given⟩ := gives_bind.mp given
        exact ih rfl given

theorem body_reads {rank : Nat} (given : (Rule.body g rank).Gives s tokens body rest) :
    body.change? = none := by
  obtain ⟨first, _, plain, given⟩ := gives_bind.mp given
  rw [gives_get.bind] at given
  exact setOperations_reads (plainBody_reads plain) given

/-- A body that changes rows is read as the statement it would be by itself. -/
theorem changeBody_statement {change : Statement}
    (given : (changeBody g).Gives s tokens (some body) rest) (changes : body.change? = some change) :
    (statement g).Gives { s with depth := s.depth + 1 } tokens change rest := by
  refine gives_deeper.mpr ⟨s.depth, rfl, ?_⟩
  rw [gives_dialect.bind, gives_peek.bind, (gives_peekAt 1).bind]
  obtain ⟨keyword, between, opened, later⟩ := gives_bind.mp given
  clear given
  rcases gives_oneOf? opened with ⟨rfl, rfl⟩ | ⟨listed, rfl, rfl⟩
  · cases (gives_pure.unique.mp later).1
  · simp only [List.mem_cons, List.not_mem_nil, or_false] at listed
    rcases listed with word | word | word | word <;> simp only [word] at later ⊢
    all_goals
      obtain ⟨given, read, same⟩ := gives_map.mp later
      obtain rfl := Option.some.inj same
    case inr.inr.inr => cases changes
    all_goals
      obtain rfl := Option.some.inj changes
      rw [gives_next.bind]
      exact gives_map.mpr ⟨given, read, rfl⟩

/-- A query that opens with named queries has some, and nothing behind a body that changes rows. -/
theorem query_named {q : Query} (opens : (front tokens).token.keyword = "WITH")
    (bodies : ∀ {s tokens body rest}, (g (.body 0)).Gives s tokens body rest → Body.change? body = none)
    (given : (query g).Gives s tokens q rest) :
    q.ctes ≠ [] ∧ (q.body.change? ≠ none → q.order = []) := by
  obtain ⟨depth, _, given⟩ := gives_deeper.mp given
  rw [(gives_word? opens).bind] at given
  simp only [if_true] at given
  obtain ⟨isRecursive, _, _, given⟩ := gives_bind.mp given
  obtain ⟨ctes, _, listed, given⟩ := gives_bind.mp given
  have some_ := ne_nil_of_commaList listed
  obtain ⟨change, _, _, given⟩ := gives_bind.mp given
  split at given
  · rw [(gives_pure.unique.mp given).1]
    exact ⟨some_, fun _ => rfl⟩
  · obtain ⟨body, _, read, given⟩ := gives_bind.mp given
    obtain ⟨order, _, _, given⟩ := gives_bind.mp given
    obtain ⟨limits, _, _, given⟩ := gives_bind.mp given
    obtain ⟨options, _, _, given⟩ := gives_bind.mp given
    obtain ⟨fetched, _, _, given⟩ := gives_bind.mp given
    rw [gives_get.bind] at given
    obtain ⟨purpose, _, _, given⟩ := gives_bind.mp given
    obtain ⟨format, _, _, given⟩ := gives_bind.mp given
    rw [(gives_pure.unique.mp given).1]
    exact ⟨some_, fun changes => absurd (bodies read) changes⟩

/-- A statement that opens with named queries is a query. -/
theorem statement_named {st : Statement} (opens : (front tokens).token.keyword = "WITH")
    (given : (statement g).Gives s tokens st rest) :
    ∃ q s', st = .query q ∧ (g .query).Gives s' tokens q rest := by
  obtain ⟨depth, _, given⟩ := gives_deeper.mp given
  rw [gives_dialect.bind, gives_peek.bind, (gives_peekAt 1).bind] at given
  simp only [opens] at given
  obtain ⟨q, read, rfl⟩ := gives_map.mp given
  exact ⟨q, _, rfl, read⟩

theorem statementsWithin_first {budget : Nat} {first : Statement} {others : List Statement}
    (word : (front tokens).token.keyword ≠ "")
    (given : (statementsWithin g budget).Gives s tokens (first :: others) rest) :
    ∃ between, (g .statement).Gives s tokens first between := by
  cases budget with
  | zero => cases (gives_pure.unique.mp given).1
  | succ budget =>
    have noSeparator : (front tokens).token ≠ .symbol ";" := fun same => word (by rw [same]; rfl)
    have nothing : (Rule.given (symbol? ";") (pure ())).Gives s tokens none tokens := by
      rw [Rule.given, (gives_symbol?_other noSeparator).bind]
      rfl
    rw [statementsWithin, (gives_many_none nothing).bind, gives_peek.bind] at given
    split at given
    · cases (gives_pure.unique.mp given).1
    · obtain ⟨read, between, found, given⟩ := gives_bind.mp given
      rw [gives_peek.bind] at given
      split at given
      · obtain ⟨_, _, same⟩ := gives_map.mp given
        obtain ⟨rfl, _⟩ := List.cons.inj same
        exact ⟨between, found⟩
      · split at given
        · obtain ⟨same, _⟩ := gives_pure.unique.mp given
          obtain ⟨rfl, _⟩ := List.cons.inj same
          exact ⟨between, found⟩
        · obtain ⟨_, _, _, given⟩ := gives_bind.mp given
          exact absurd given not_gives_fail

end Rule

namespace Grammar
open Rule

theorem within_body {n rank : Nat} (given : (within n (.body rank)).Gives s tokens body rest) :
    body.change? = none := by
  cases n with
  | zero => exact absurd given not_gives_fail
  | succ n => exact body_reads given

theorem within_query {n : Nat} {q : Query} (opens : (front tokens).token.keyword = "WITH")
    (given : (within n .query).Gives s tokens q rest) :
    q.ctes ≠ [] ∧ (q.body.change? ≠ none → q.order = []) := by
  cases n with
  | zero => exact absurd given not_gives_fail
  | succ n => exact query_named opens within_body given

theorem within_statement {n : Nat} {st : Statement} (opens : (front tokens).token.keyword = "WITH")
    (given : (within n .statement).Gives s tokens st rest) :
    ∃ q, st = .query q ∧ q.ctes ≠ [] ∧ (q.body.change? ≠ none → q.order = []) := by
  cases n with
  | zero => exact absurd given not_gives_fail
  | succ n =>
    obtain ⟨q, _, rfl, read⟩ := statement_named opens given
    exact ⟨q, rfl, within_query opens read⟩

end Grammar

/-- What is left of a query whose body changes rows. -/
theorem Query.scope_change {q : Query} (named : q.ctes ≠ []) (changes : q.body.change? ≠ none)
    (unordered : q.order = []) : q.scope = { Scope.empty with ctes := Cte.scopes q.ctes } := by
  obtain ⟨isRecursive, ctes, body, orderShape, order, limitShape, limits, suffix⟩ := q
  obtain rfl : order = [] := unordered
  have nothing : body.scope = Scope.empty := by
    cases body <;> first | rfl | exact absurd rfl changes
  have kept : (Cte.scopes ctes).isEmpty = false := by
    cases ctes with
    | nil => exact absurd rfl named
    | cons c rest =>
      obtain ⟨name, columns, materialized, query, source⟩ := c
      rfl
  simp [Query.scope, nothing, kept, Scope.readBesideOutputs, Expr.nodesOf, Scope.empty]

/-- The keyword that a text opens with. -/
def firstKeyword (d : Dialect) (text : String) : Option String :=
  (lexemes d text).toOption.map fun tokens => (Rule.front tokens).token.keyword

variable {d : Dialect} {text : String} {first : Statement} {others : List Statement}

/-- A text that opens with named queries is a query with named queries. -/
theorem statements_named (opens : firstKeyword d text = some "WITH")
    (parsed : statements d text = .ok (first :: others)) :
    ∃ q, first = .query q ∧ q.ctes ≠ [] ∧ (q.body.change? ≠ none → q.order = []) := by
  obtain ⟨tokens, rest, n, budget, read, run⟩ := exists_of_statements parsed
  have opens : (Rule.front tokens).token.keyword = "WITH" := by
    simpa [firstKeyword, read, Except.toOption] using opens
  obtain ⟨between, found⟩ := Rule.statementsWithin_first (by rw [opens]; decide) run
  exact Grammar.within_statement opens found

theorem Body.kind_change {change : Statement} (changes : body.change? = some change) :
    change.outline.kind ≠ .select := by
  cases body <;> cases changes <;> (intro same; cases same)

/-- **Behind named queries a change is lost.** Whatever the dialect, the named queries and the change
are, the statement is read as a selection of the named queries alone, without the kind of the change,
its target, its columns and all that it reads. -/
theorem named_change_hidden (opens : firstKeyword d text = some "WITH")
    (parsed : statements d text = .ok (first :: others)) :
    ∃ q, first = .query q ∧ q.ctes ≠ [] ∧ ∀ change, q.body.change? = some change →
      readStatement d text = .ok (.select { Scope.empty with ctes := Cte.scopes q.ctes }) ∧
        change.outline.kind ≠ .select := by
  obtain ⟨q, rfl, named, unordered⟩ := statements_named opens parsed
  refine ⟨q, rfl, named, fun change changes => ⟨?_, Body.kind_change changes⟩⟩
  have some_ : q.body.change? ≠ none := by simp [changes]
  rw [readStatement, parsed]
  exact congrArg (fun scope => Except.ok (TableAccess.Statement.select scope))
    (Query.scope_change named some_ (unordered some_))

theorem named_change_hidden_deletion : ∃ first others,
    firstKeyword .postgresql "WITH o AS (SELECT id FROM u) DELETE FROM t" = some "WITH" ∧
    statements .postgresql "WITH o AS (SELECT id FROM u) DELETE FROM t" = .ok (first :: others) ∧
    ∃ q, first = .query q ∧ q.ctes ≠ [] ∧ ∀ change, q.body.change? = some change →
      readStatement .postgresql "WITH o AS (SELECT id FROM u) DELETE FROM t" =
        .ok (.select { Scope.empty with ctes := Cte.scopes q.ctes }) ∧
        change.outline.kind ≠ .select := by
  obtain ⟨opens, one⟩ : firstKeyword .postgresql "WITH o AS (SELECT id FROM u) DELETE FROM t" =
        some "WITH" ∧
      (statements .postgresql "WITH o AS (SELECT id FROM u) DELETE FROM t").toOption.map
        List.length = some 1 := by decide +kernel
  cases parsed : statements .postgresql "WITH o AS (SELECT id FROM u) DELETE FROM t" with
  | error e => simp [parsed, Except.toOption] at one
  | ok all =>
    cases all with
    | nil => simp [parsed, Except.toOption] at one
    | cons first others => exact ⟨first, others, opens, rfl, named_change_hidden opens parsed⟩

/-- The same deletion is one by itself and none behind named queries. -/
theorem deletion_read_as_selection :
    (readStatement .postgresql "DELETE FROM orders WHERE user_id IN (SELECT id FROM old)").toOption.map
        Statement.kind = some .delete ∧
      (readStatement .postgresql
        ("WITH old AS (SELECT id FROM users) " ++
          "DELETE FROM orders WHERE user_id IN (SELECT id FROM old)")).toOption.map
        Statement.kind = some .select := by
  decide +kernel

end TableAccess.Sql
