import TableAccess.Sql.Grammar.Statement

/-! What rules give. A rule gives a result and leaves tokens, or it fails; what a rule of several
steps gives is what its steps give one after the other. One fact for each small rule says what it gives
on any tokens, so facts about larger rules never look at how a rule runs. -/
namespace TableAccess.Sql

/-- Whether a rule gives a result and leaves some tokens. -/
def Rule.Gives {α : Type} (rule : Rule α) (setting : Setting) (tokens : List Lexeme) (result : α)
    (rest : List Lexeme) : Prop :=
  rule setting tokens = .ok (result, rest)

namespace Rule
variable {α β γ : Type} {rule : Rule α} {next' : α → Rule β} {s : Setting}
  {tokens between rest : List Lexeme} {a a' : α} {b : β}

/-- A rule gives one result. -/
theorem Gives.unique (given : rule.Gives s tokens a between) :
    rule.Gives s tokens a' rest ↔ a' = a ∧ rest = between := by
  simp only [Gives] at given ⊢
  rw [given]
  simp [eq_comm]

theorem gives_pure : (pure a : Rule α).Gives s tokens a tokens := rfl

theorem not_gives_fail {error : SyntaxError} : ¬ (fail error : Rule α).Gives s tokens a rest := by
  intro given
  cases given

theorem gives_bind : (rule >>= next').Gives s tokens b rest ↔
    ∃ a between, rule.Gives s tokens a between ∧ (next' a).Gives s between b rest := by
  show (rule s tokens >>= fun (a, between) => next' a s between) = _ ↔ _
  cases run : rule s tokens with
  | error e => simp [Gives, run, bind, Except.bind]
  | ok given =>
    obtain ⟨a, between⟩ := given
    simp [Gives, run, bind, Except.bind, and_assoc]

/-- A step whose result is known is taken. -/
theorem Gives.bind (given : rule.Gives s tokens a between) :
    (rule >>= next').Gives s tokens b rest ↔ (next' a).Gives s between b rest := by
  rw [gives_bind]
  constructor
  · rintro ⟨a', between', given', later⟩
    obtain ⟨rfl, rfl⟩ := given.unique.mp given'
    exact later
  · exact fun later => ⟨a, between, given, later⟩

/-- A last step whose result is put into something. -/
theorem gives_map {f : α → β} : (rule >>= fun a => pure (f a)).Gives s tokens b rest ↔
    ∃ a, rule.Gives s tokens a rest ∧ f a = b := by
  rw [gives_bind]
  constructor
  · rintro ⟨a, between, given, last⟩
    obtain ⟨rfl, rfl⟩ := gives_pure.unique.mp last
    exact ⟨a, given, rfl⟩
  · rintro ⟨a, given, rfl⟩
    exact ⟨a, rest, given, gives_pure⟩

/-- The token in front. -/
def front (tokens : List Lexeme) : Lexeme := tokens.getD 0 .finish

theorem gives_get : (get : Rule (List Lexeme)).Gives s tokens tokens tokens := rfl

theorem gives_dialect : dialect.Gives s tokens s.dialect tokens := rfl

theorem gives_peek : peek.Gives s tokens (front tokens) tokens := rfl

theorem gives_peekAt (n : Nat) : (peekAt n).Gives s tokens (tokens.getD n .finish) tokens := rfl

theorem gives_next : next.Gives s tokens (front tokens) tokens.tail := by cases tokens <;> rfl

theorem gives_peekWord : peekWord.Gives s tokens (front tokens).token.keyword tokens := rfl

theorem gives_word? {word : String} (seen : (front tokens).token.keyword = word) :
    (word? word).Gives s tokens true tokens.tail := by
  rw [word?, gives_peekWord.bind, if_pos (beq_iff_eq.mpr seen), gives_next.bind]
  rfl

theorem gives_symbol?_other {spelling : String} (other : (front tokens).token ≠ .symbol spelling) :
    (symbol? spelling).Gives s tokens false tokens := by
  have unseen : (seesSymbol spelling).Gives s tokens false tokens := by
    rw [seesSymbol, gives_peek.bind, beq_eq_false_iff_ne.mpr other]
    rfl
  rw [symbol?, unseen.bind]
  rfl

theorem gives_oneOf? {words : List String} {taken : Option String}
    (given : (oneOf? words).Gives s tokens taken rest) :
    (taken = none ∧ rest = tokens) ∨
      ((front tokens).token.keyword ∈ words ∧ taken = some (front tokens).token.keyword ∧
        rest = tokens.tail) := by
  rw [oneOf?, gives_peekWord.bind] at given
  split at given
  · next listed =>
    rw [gives_next.bind, gives_pure.unique] at given
    exact .inr ⟨by simpa using (Bool.and_eq_true_iff.mp listed).2, given⟩
  · exact .inl (gives_pure.unique.mp given)

theorem gives_deeper : (deeper rule).Gives s tokens a rest ↔
    ∃ depth, s.depth = depth + 1 ∧ rule.Gives { s with depth } tokens a rest := by
  cases deep : s.depth with
  | zero => simp [deeper, Gives, deep]
  | succ depth => simp [deeper, Gives, deep]

/-- Nothing is repeated where the first round gives nothing. -/
theorem gives_many_none {rule : Rule (Option α)} (given : rule.Gives s tokens none tokens) :
    (many rule).Gives s tokens [] tokens := by
  rw [many, gives_get.bind, repeatWithin, given.bind]
  rfl

/-- A list has an item. -/
theorem ne_nil_of_commaList {items : List α} (given : (commaList rule).Gives s tokens items rest) :
    items ≠ [] := by
  rw [commaList, gives_get.bind, listWithin, gives_bind] at given
  obtain ⟨first, _, _, given⟩ := given
  obtain ⟨more, _, _, given⟩ := gives_bind.mp given
  split at given
  · obtain ⟨others, _, rfl⟩ := gives_map.mp given
    exact List.cons_ne_nil _ _
  · rw [(gives_pure.unique.mp given).1]
    exact List.cons_ne_nil _ _

/-! Rules run forwards: each step that is known is put before what is known of the rest. -/

/-- What the first step gives is known, and what is behind it. -/
theorem Gives.step (given : rule.Gives s tokens a between) (later : (next' a).Gives s between b rest) :
    (rule >>= next').Gives s tokens b rest := given.bind.mpr later

/-- A branch that is not taken: its place is held by what stands for its absence. -/
theorem Gives.skip {condition : Rule Bool} {taken : Bool → Rule β} {absent : γ} {join : γ → Rule β}
    (unmet : condition.Gives s tokens false tokens) (later : (join absent).Gives s tokens b rest) :
    (condition >>= fun met => if met = true then taken met else pure absent >>= join).Gives s tokens b rest :=
  unmet.step later

/-- A branch that gives nothing more than its absence. -/
theorem Gives.either {condition : Prop} [Decidable condition] {rule : Rule γ} {absent : γ} {join : γ → Rule β}
    (given : rule.Gives s tokens absent tokens) (later : (join absent).Gives s tokens b rest) :
    (if condition then rule >>= join else pure absent >>= join).Gives s tokens b rest := by
  split
  · exact given.step later
  · exact later

/-- A branch of which nothing more is made than of its absence. -/
theorem Gives.optionally {condition : Prop} [Decidable condition] {f : α → γ} {absent : γ} {join : γ → Rule β}
    (given : rule.Gives s tokens a tokens) (same : f a = absent)
    (later : (join absent).Gives s tokens b rest) :
    (if condition then rule >>= fun a => pure (f a) >>= join else pure absent >>= join).Gives s tokens b rest := by
  subst same
  split
  · exact given.step later
  · exact later

theorem gives_seesWord {word : String} : (seesWord word).Gives s tokens
    ((front tokens).token.keyword == word) tokens := rfl

theorem gives_seesSymbol {spelling : String} : (seesSymbol spelling).Gives s tokens
    ((front tokens).token == .symbol spelling) tokens := rfl

theorem gives_allows {test : Dialect → Bool} : (allows test).Gives s tokens (test s.dialect) tokens := rfl

theorem gives_word?_other {word : String} (other : (front tokens).token.keyword ≠ word) :
    (word? word).Gives s tokens false tokens := by
  rw [word?, gives_peekWord.bind, if_neg (by simpa using other)]
  rfl

theorem gives_word {word : String} (seen : (front tokens).token.keyword = word) :
    (Rule.word word).Gives s tokens () tokens.tail := by
  rw [Rule.word, (gives_word? seen).bind]
  rfl

theorem gives_words?_other {word : String} {more : List String}
    (other : (front tokens).token.keyword ≠ word) : (words? (word :: more)).Gives s tokens false tokens := by
  rw [words?, gives_get.bind, if_neg]
  · rfl
  · cases tokens with
    | nil => simp
    | cons t rest => simp [show t.token.keyword ≠ word from other]

theorem gives_oneOf?_other {words : List String} (other : (front tokens).token.keyword ∉ words) :
    (oneOf? words).Gives s tokens none tokens := by
  rw [oneOf?, gives_peekWord.bind, if_neg (by simp [other])]
  rfl

theorem gives_symbol? {spelling : String} (seen : (front tokens).token = .symbol spelling) :
    (symbol? spelling).Gives s tokens true tokens.tail := by
  rw [symbol?, gives_seesSymbol.bind, if_pos (beq_iff_eq.mpr seen), gives_next.bind]
  rfl

theorem gives_andThen_unmet {first : Bool} {second : Rule Bool} (unmet : second.Gives s tokens false tokens) :
    (andThen first second).Gives s tokens false tokens := by
  cases first
  · exact gives_pure
  · exact unmet

theorem gives_given_unmet {condition : Rule Bool} (unmet : condition.Gives s tokens false tokens) :
    (given condition rule).Gives s tokens none tokens := unmet.step gives_pure

theorem gives_givenList_unmet {condition : Rule Bool} {rule : Rule (List α)}
    (unmet : condition.Gives s tokens false tokens) :
    (givenList condition rule).Gives s tokens [] tokens := unmet.step gives_pure

theorem gives_givenList_met {condition : Rule Bool} {rule : Rule (List α)} {items : List α}
    (met : condition.Gives s tokens true between) (listed : rule.Gives s between items rest) :
    (givenList condition rule).Gives s tokens items rest := met.step listed

theorem Gives.deeper {depth : Nat} (deep : s.depth = depth + 1)
    (given : rule.Gives { s with depth } tokens a rest) : (deeper rule).Gives s tokens a rest :=
  gives_deeper.mpr ⟨depth, deep, given⟩

/-- Whether a rule fails in a way that another rule can mend. -/
def Fails (rule : Rule α) (s : Setting) (tokens : List Lexeme) : Prop :=
  ∃ error, error ≠ .nestsTooDeep ∧ rule s tokens = .error error

theorem fails_expected {what : String} : (expected what : Rule α).Fails s tokens :=
  ⟨.expected what (front tokens), SyntaxError.noConfusion, rfl⟩

theorem Fails.first (failed : rule.Fails s tokens) : (rule >>= next').Fails s tokens := by
  obtain ⟨error, mendable, run⟩ := failed
  refine ⟨error, mendable, ?_⟩
  show (rule s tokens >>= fun (a, between) => next' a s between) = _
  rw [run]
  rfl

theorem Gives.fails (given : rule.Gives s tokens a between) (failed : (next' a).Fails s between) :
    (rule >>= next').Fails s tokens := by
  obtain ⟨error, mendable, run⟩ := failed
  refine ⟨error, mendable, ?_⟩
  show (rule s tokens >>= fun (a, between) => next' a s between) = _
  rw [given]
  exact run

theorem Fails.attempt (failed : rule.Fails s tokens) : (attempt rule).Gives s tokens none tokens := by
  obtain ⟨error, mendable, run⟩ := failed
  rw [Gives, Rule.attempt, run]
  cases error <;> first | rfl | exact absurd rfl mendable

theorem Gives.attempt (given : rule.Gives s tokens a rest) :
    (attempt rule).Gives s tokens (some a) rest := by
  rw [Gives, Rule.attempt, given]

theorem Gives.outcome (given : rule.Gives s tokens a rest) :
    (outcome rule).Gives s tokens (.ok a) rest := by
  rw [Gives, Rule.outcome, given]

theorem Fails.outcome (failed : rule.Fails s tokens) :
    ∃ error, (outcome rule).Gives s tokens (.error error) tokens := by
  obtain ⟨error, mendable, run⟩ := failed
  exact ⟨error, by rw [Gives, Rule.outcome, run]⟩

theorem fails_symbol {spelling : String} (other : (front tokens).token ≠ .symbol spelling) :
    (symbol spelling).Fails s tokens := by
  refine Gives.fails (gives_symbol?_other other) ?_
  exact fails_expected

theorem fails_parenthesised (other : (front tokens).token ≠ .symbol "(") :
    (parenthesised rule).Fails s tokens := (fails_symbol other).first

end Rule

variable {d : Dialect} {text : String} {tokens : List Lexeme} {all : List Statement}

/-- What a text says is what its tokens say. Places count in messages only. -/
theorem toOption_statements : (statements d text).toOption =
    (lexemes d text).toOption.bind fun tokens => (parse d tokens).toOption := by
  rw [statements, lexemes]
  cases placedTokens d text with
  | error e => rfl
  | ok placed =>
    show _ = (parse d (lexemesFrom 0 placed)).toOption
    dsimp only
    split
    · next failed => rw [failed]; rfl
    · next parsed => rw [parsed]; rfl

/-- Statements are read by one rule, within some budgets. -/
theorem exists_of_parse (parsed : parse d tokens = .ok all) :
    ∃ rest n budget, (Rule.statementsWithin (Grammar.within n) budget).Gives
      ⟨d, nestingLimit, .ordinary⟩ tokens all rest := by
  let n := 4 * tokens.length + 8 * nestingLimit
  let rule := Rule.statementsWithin (Grammar.within n) (tokens.length + 1)
  have same : parse d tokens =
      (rule ⟨d, nestingLimit, .ordinary⟩ tokens >>= fun read => pure read.1) := rfl
  cases run : rule ⟨d, nestingLimit, .ordinary⟩ tokens with
  | error e =>
    rw [same, run] at parsed
    cases parsed
  | ok read =>
    rw [same, run] at parsed
    obtain rfl : read.1 = all := Except.ok.inj parsed
    exact ⟨read.2, n, tokens.length + 1, run⟩

/-- Statements are read from the tokens of a text. -/
theorem exists_of_statements (parsed : statements d text = .ok all) :
    ∃ tokens rest n budget, lexemes d text = .ok tokens ∧
      (Rule.statementsWithin (Grammar.within n) budget).Gives ⟨d, nestingLimit, .ordinary⟩ tokens all
        rest := by
  have parsed : (statements d text).toOption = some all := by rw [parsed]; rfl
  rw [toOption_statements] at parsed
  cases read : lexemes d text with
  | error e =>
    rw [read] at parsed
    cases parsed
  | ok tokens =>
    rw [read] at parsed
    change (parse d tokens).toOption = some all at parsed
    cases run : parse d tokens with
    | error e =>
      rw [run] at parsed
      cases parsed
    | ok found =>
      rw [run] at parsed
      obtain ⟨rest, n, budget, given⟩ := exists_of_parse (run.trans (congrArg _ (Option.some.inj parsed)))
      exact ⟨tokens, rest, n, budget, rfl, given⟩

end TableAccess.Sql
