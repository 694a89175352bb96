import TableAccess.Proofs.Sql.Rule

/-! What is read of a word with nothing behind it. A rule that meets a word tries what the word could open or what
could go on behind it, and each of these asks for a further token. So where a comma, a set operator, the word of
the sources or the end of the text follows, a word in a select list is a column, and behind the word of the
sources it is a table. -/
namespace TableAccess.Sql

/-- Words behind a column or a table of a plain selection. -/
def stopWords : List String := ["FROM", "UNION", "INTERSECT", "EXCEPT"]

/-- Whether the column or table in front ends here. -/
inductive Stops (tokens : List Lexeme) : Prop
  | finish (ended : (Rule.front tokens).token = .finish)
  | comma (seen : (Rule.front tokens).token = .symbol ",")
  | word (seen : (Rule.front tokens).token.keyword ∈ stopWords)

theorem exists_of_keyword_ne {t : Token} (spelled : t.keyword ≠ "") : ∃ value, t = .word value none := by
  cases t with
  | word value quote =>
    cases quote with
    | none => exact ⟨value, rfl⟩
    | some q => exact absurd rfl spelled
  | _ => exact absurd rfl spelled

namespace Stops
open Rule
variable {s : Setting} {tokens : List Lexeme} {g : Grammar}

theorem keyword_mem (stops : Stops tokens) : (front tokens).token.keyword ∈ "" :: stopWords := by
  rcases stops with stop | stop | stop
  · rw [stop]; decide
  · rw [stop]; decide
  · exact List.mem_cons_of_mem _ stop

theorem token_ne (stops : Stops tokens) (spelling : String) (other : spelling ≠ ",") :
    (front tokens).token ≠ .symbol spelling := by
  intro same
  rcases stops with stop | stop | stop
  · rw [same] at stop; cases stop
  · rw [same] at stop; exact other (Token.symbol.inj stop)
  · rw [same] at stop; revert stop; exact (by decide : ("" : String) ∉ stopWords)

theorem word? (stops : Stops tokens) (word : String) (other : word ∉ "" :: stopWords) :
    (word? word).Gives s tokens false tokens :=
  gives_word?_other fun same => other (same ▸ stops.keyword_mem)

theorem words? (stops : Stops tokens) (word : String) (more : List String)
    (other : word ∉ "" :: stopWords) : (words? (word :: more)).Gives s tokens false tokens :=
  gives_words?_other fun same => other (same ▸ stops.keyword_mem)

theorem oneOf? (stops : Stops tokens) (words : List String)
    (other : ∀ word ∈ "" :: stopWords, word ∉ words) : (oneOf? words).Gives s tokens none tokens :=
  gives_oneOf?_other (other _ stops.keyword_mem)

theorem symbol? (stops : Stops tokens) (spelling : String) (other : spelling ≠ ",") :
    (symbol? spelling).Gives s tokens false tokens :=
  gives_symbol?_other (stops.token_ne spelling other)

theorem seesSymbol (stops : Stops tokens) (spelling : String) (other : spelling ≠ ",") :
    (seesSymbol spelling).Gives s tokens false tokens := by
  have unseen : (Rule.seesSymbol spelling).Gives s tokens ((front tokens).token == .symbol spelling) tokens :=
    gives_seesSymbol
  rwa [beq_eq_false_iff_ne.mpr (stops.token_ne spelling other)] at unseen

/-- Only a word could stand for a name, and none of those that may. -/
theorem optionalAlias {test : String → Bool} (stops : Stops tokens)
    (other : ∀ word ∈ stopWords, test word = false) : (optionalAlias test).Gives s tokens none tokens := by
  refine (stops.word? "AS" (by decide)).step (gives_peek.step ?_)
  rcases stops with stop | stop | stop
  · rw [stop]; exact gives_pure
  · rw [stop]; exact gives_pure
  · obtain ⟨value, token⟩ := exists_of_keyword_ne fun none => absurd (none ▸ stop) (by decide)
    have refused := other _ stop
    rw [token] at refused ⊢
    dsimp only
    rw [refused]
    exact gives_pure

theorem itemAlias (stops : Stops tokens) : (itemAlias).Gives s tokens none tokens := by
  refine gives_dialect.step (stops.optionalAlias ?_)
  cases s.dialect <;> decide

theorem tableAlias (stops : Stops tokens) : (tableAlias g).Gives s tokens none tokens := by
  have unnamed : ∀ word ∈ stopWords, s.dialect.namesTable word = false := by
    cases s.dialect <;> decide
  exact gives_dialect.step (gives_seesWord.step ((stops.optionalAlias unnamed).step gives_pure))

theorem rankAhead (stops : Stops tokens) : (rankAhead).Gives s tokens 0 tokens := by
  refine Gives.step (a := s) rfl (gives_peek.step ?_)
  rcases stops with stop | stop | stop
  · rw [stop]; exact gives_pure
  · rw [stop]
    cases s.dialect <;> exact gives_pure
  · obtain ⟨value, token⟩ := exists_of_keyword_ne fun none => absurd (none ▸ stop) (by decide)
    rw [token] at stop ⊢
    refine (gives_peekAt 1).step ?_
    dsimp only
    generalize (Token.word value none).keyword = keyword at stop ⊢
    simp only [stopWords, List.mem_cons, List.not_mem_nil, or_false] at stop
    rcases stop with rfl | rfl | rfl | rfl <;> exact gives_pure

end Stops

/-- Words that are expressions, or open one of their own whatever follows. -/
def wordsOfExpressions : List String :=
  ["TRUE", "FALSE", "NULL", "CURRENT_CATALOG", "CURRENT_USER", "SESSION_USER", "USER",
    "CURRENT_TIMESTAMP", "CURRENT_TIME", "CURRENT_DATE", "LOCALTIME", "LOCALTIMESTAMP", "CASE", "EXISTS",
    "TRIM", "INTERVAL", "NOT", "STRUCT", "CIRCLE", "BOX", "PATH", "LINE", "LSEG", "POINT", "POLYGON"]

/-- Whether a built-in type that starts with the token in front is none, ends with that token, or goes on with
one that is missing. -/
inductive EndsType (rule : Rule (Option (DataType × Bool))) (s : Setting) (tokens : List Lexeme) : Prop
  | other (given : rule.Gives s tokens none tokens)
  | whole {text : String} (given : rule.Gives s tokens (some (Rule.ordinaryType text, false)) tokens.tail)
  | fails (failed : rule.Fails s tokens)

namespace EndsType
open Rule
variable {α : Type} {s : Setting} {t : Lexeme} {tokens : List Lexeme} {a : α} {rule : Rule DataType}

theorem behind {rule : Rule α} {later : α → Rule (Option (DataType × Bool))}
    (given : rule.Gives s tokens a tokens) (ends : EndsType (later a) s tokens) :
    EndsType (rule >>= later) s tokens := by
  cases ends with
  | other last => exact .other (given.step last)
  | whole last => exact .whole (given.step last)
  | fails failed => exact .fails (given.fails failed)

theorem allowed {condition : Prop} [Decidable condition] {rule : Rule (Option (DataType × Bool))}
    (ends : EndsType rule s tokens) : EndsType (if condition then rule else pure none) s tokens := by
  split
  · exact ends
  · exact .other gives_pure

theorem word (given : ∃ text, rule.Gives s tokens (ordinaryType text) tokens) :
    EndsType (next >>= fun _ => rule >>= fun type => pure (some (type, false))) s (t :: tokens) := by
  obtain ⟨_, given⟩ := given
  exact .whole (gives_next.step (given.step gives_pure))

theorem stuck (failed : rule.Fails s tokens) :
    EndsType (next >>= fun _ => rule >>= fun type => pure (some (type, false))) s (t :: tokens) :=
  .fails (gives_next.fails failed.first)

end EndsType

namespace Stops
open Rule
variable {s : Setting} {t : Lexeme} {tokens : List Lexeme} {g : Grammar}

/-! What follows the words of a type is missing. -/

theorem precision? (stops : Stops tokens) : (precision?).Gives s tokens none tokens :=
  (stops.symbol? "(" (by decide)).step gives_pure

theorem lengthText (stops : Stops tokens) : (lengthText).Gives s tokens "" tokens :=
  stops.precision?.step gives_pure

theorem precisionScale (stops : Stops tokens) : (precisionScale).Gives s tokens "" tokens :=
  (stops.symbol? "(" (by decide)).step gives_pure

theorem characterLength (stops : Stops tokens) : (characterLength).Gives s tokens "" tokens :=
  (stops.symbol? "(" (by decide)).step gives_pure

theorem binaryLength (stops : Stops tokens) : (binaryLength).Gives s tokens "" tokens :=
  (stops.symbol? "(" (by decide)).step gives_pure

theorem zoneWords (stops : Stops tokens) : (zoneWords).Gives s tokens "" tokens :=
  (stops.word? "WITH" (by decide)).step ((stops.word? "WITHOUT" (by decide)).step gives_pure)

theorem integerType (stops : Stops tokens) (text : String) :
    (integerType text).Gives s tokens (ordinaryType (text ++ "")) tokens := by
  refine stops.lengthText.step (gives_dialect.step ((stops.word? "UNSIGNED" (by decide)).step ?_))
  cases s.dialect with
  | generic | mysql => exact (stops.word? "SIGNED" (by decide)).step gives_pure
  | _ => exact gives_pure

theorem fails_enumValues (stops : Stops tokens) : (enumValues).Fails s tokens :=
  (fails_symbol (stops.token_ne "(" (by decide))).first

theorem detailed {detail : Rule String} (given : detail.Gives s tokens "" tokens) (f : String → String) :
    ∃ type, (do return ordinaryType (f (← detail))).Gives s tokens (ordinaryType type) tokens :=
  ⟨_, given.step gives_pure⟩

theorem unsigned (stops : Stops tokens) {detail : Rule String} (given : detail.Gives s tokens "" tokens)
    (text : String) :
    ∃ type, (do
      let detail ← detail
      let sign ← Rule.word? "UNSIGNED"
      return ordinaryType (text ++ detail ++ wordsIf sign " UNSIGNED")).Gives s tokens
        (ordinaryType type) tokens :=
  ⟨_, given.step ((stops.word? "UNSIGNED" (by decide)).step gives_pure)⟩

theorem doublePrecision (stops : Stops tokens) :
    (do if ← Rule.word? "PRECISION" then return " PRECISION" else Rule.precisionScale).Gives s tokens "" tokens :=
  (stops.word? "PRECISION" (by decide)).step stops.precisionScale

theorem characters (stops : Stops tokens) (text : String) :
    ∃ type, (do
      if ← Rule.word? "VARYING" then return ordinaryType (text ++ " VARYING" ++ (← Rule.characterLength))
      else if ← Rule.words? ["LARGE", "OBJECT"] then
        return ordinaryType (text ++ " LARGE OBJECT" ++ (← Rule.lengthText))
      else return ordinaryType (text ++ (← Rule.characterLength))).Gives s tokens (ordinaryType type) tokens := by
  refine ⟨text ++ "", (stops.word? "VARYING" (by decide)).step ((stops.words? "LARGE" ["OBJECT"] (by decide)).step ?_)⟩
  exact stops.characterLength.step gives_pure

theorem bits (stops : Stops tokens) :
    ∃ type, (do
      let varying ← Rule.word? "VARYING"
      return ordinaryType ("BIT" ++ wordsIf varying " VARYING" ++ (← Rule.lengthText))).Gives s tokens
        (ordinaryType type) tokens :=
  ⟨_, (stops.word? "VARYING" (by decide)).step (stops.lengthText.step gives_pure)⟩

theorem time (stops : Stops tokens) (text : String) :
    ∃ type, (do
      let length ← Rule.lengthText
      return ordinaryType (text ++ length ++ (← Rule.zoneWords))).Gives s tokens (ordinaryType type) tokens :=
  ⟨_, stops.lengthText.step (stops.zoneWords.step gives_pure)⟩

theorem sign (stops : Stops tokens) (text : String) :
    ∃ type, (do
      let integer ← Rule.word? "INTEGER"
      return ordinaryType (text ++ wordsIf integer " INTEGER")).Gives s tokens (ordinaryType type) tokens :=
  ⟨_, (stops.word? "INTEGER" (by decide)).step gives_pure⟩

theorem fails_enumType (stops : Stops tokens) (text : String) :
    (do return ordinaryType (text ++ (← enumValues))).Fails s tokens :=
  stops.fails_enumValues.first

theorem endsType_array (stops : Stops tokens) {later : Unit → Rule (Option (DataType × Bool))} :
    EndsType (next >>= fun _ => symbol "<" >>= later) s (t :: tokens) :=
  .fails (gives_next.fails (fails_symbol (stops.token_ne "<" (by decide))).first)

/-- A word that could be a type is not taken for one with more to it. -/
theorem builtInType (stops : Stops tokens) {keyword : String} (free : keyword ∉ wordsOfExpressions) :
    EndsType (builtInType g keyword) s (t :: tokens) := by
  refine .behind gives_dialect ?_
  dsimp only
  split
  -- what stands behind the word tells the families of types apart
  all_goals with_reducible first
    | exact .other gives_pure
    | exact .word ⟨_, gives_pure⟩
    | exact .word ⟨_, stops.integerType _⟩
    | exact .word (detailed stops.lengthText _)
    | exact .word (detailed stops.characterLength _)
    | exact .word (detailed stops.binaryLength _)
    | exact .word (detailed stops.precisionScale _)
    | exact .word (stops.time _)
    | exact .word (stops.sign _)
    | exact .word stops.bits
    | exact .word (stops.unsigned stops.precisionScale _)
    | exact .word (stops.unsigned gives_pure _)
    | exact .word (stops.unsigned stops.doublePrecision _)
    | exact .stuck (stops.fails_enumType _)
    | exact stops.endsType_array
    | exact .allowed (.word ⟨_, gives_pure⟩)
    | exact absurd (by decide) free
    | exact .word (stops.characters _)
    | exact .word ⟨_, (stops.symbol? "(" (by decide)).step gives_pure⟩

end Stops

/-- The token that an identifier is. -/
def Ident.token (i : Ident) : Token := .word i.value i.quote

namespace Rule
open Stops
variable {s : Setting} {t : Lexeme} {tokens : List Lexeme} {g g' g'' : Grammar} {i : Ident} {d : Dialect} {depth : Nat}

theorem gives_ident (named : t.token = i.token) : ident.Gives s (t :: tokens) i tokens := by
  have seen : identOf (front (t :: tokens)).token = some i := congrArg identOf named
  refine gives_peek.step ?_
  rw [seen]
  exact gives_next.step gives_pure

theorem gives_name (named : t.token = i.token) (stops : Stops tokens) :
    name.Gives s (t :: tokens) [i] tokens := by
  refine gives_get.step ?_
  rw [nameParts]
  refine gives_allows.step (gives_seesSymbol.step ?_)
  exact (gives_ident named).step ((stops.symbol? "." (by decide)).step gives_pure)

theorem gives_typeModifiers (stops : Stops tokens) : (typeModifiers).Gives s tokens [] tokens :=
  (stops.symbol? "(" (by decide)).step gives_pure

theorem gives_arrayBrackets (stops : Stops tokens) : (arrayBrackets).Gives s tokens none tokens :=
  gives_allows.step ((gives_andThen_unmet (stops.symbol? "[" (by decide))).step gives_pure)

theorem fails_value (stops : Stops tokens) : (value).Fails s tokens := by
  refine gives_dialect.fails (gives_peek.fails ?_)
  rcases stops with stop | stop | stop
  · rw [stop]; exact fails_expected
  · rw [stop]; exact fails_expected
  · obtain ⟨value, token⟩ := exists_of_keyword_ne fun none => absurd (none ▸ stop) (by decide)
    rw [token] at stop ⊢
    dsimp only
    generalize (Token.word value none).keyword = keyword at stop ⊢
    simp only [stopWords, List.mem_cons, List.not_mem_nil, or_false] at stop
    rcases stop with rfl | rfl | rfl | rfl <;> exact fails_expected

/-- Brackets would make another type of a word, and none follow. -/
theorem dataType_cases (named : t.token = i.token) (stops : Stops tokens)
    (free : t.token.keyword ∉ wordsOfExpressions) : (dataType g).Fails s (t :: tokens) ∨
      ∃ type, type.kind ≠ .interval ∧ (dataType g).Gives s (t :: tokens) (type, false) tokens := by
  have seen : (front (t :: tokens)).token = .word i.value i.quote := named
  have unbracketed : (many arrayBrackets).Gives s tokens [] tokens := gives_many_none (gives_arrayBrackets stops)
  cases stops.builtInType (g := g) (s := s) (t := t) free with
  | fails failed =>
    refine .inl (gives_peek.fails ?_)
    rw [seen]
    rw [named] at failed
    exact failed.first
  | @whole text given =>
    refine .inr ⟨ordinaryType text, TypeKind.noConfusion, gives_peek.step ?_⟩
    rw [seen]
    rw [named] at given
    exact given.step (gives_pure.step (unbracketed.step gives_pure))
  | other given =>
    let text := Name.text [i] ++ wordsIf false ("(" ++ commas [] ++ ")")
    refine .inr ⟨⟨text, .custom⟩, TypeKind.noConfusion, gives_peek.step ?_⟩
    rw [seen]
    rw [named] at given
    refine given.step ((gives_name named stops).step ((gives_typeModifiers stops).step ?_))
    exact gives_pure.step (unbracketed.step gives_pure)

/-- A column is no type that a literal could follow: what is behind it is no value. -/
theorem fails_typedLiteral {operand : OperandRule} (known : g .dataType = dataType g') (named : t.token = i.token)
    (stops : Stops tokens) (free : t.token.keyword ∉ wordsOfExpressions) :
    (typedLiteral g operand).Fails s (t :: tokens) := by
  rcases dataType_cases (g := g') (s := s) named stops free with failed | ⟨type, kind, given⟩
  · rw [← known] at failed
    exact failed.first.first
  · rw [← known] at given
    refine Gives.fails (given.step gives_pure) ?_
    obtain ⟨text, found⟩ := type
    cases found with
    | interval => exact absurd rfl kind
    | custom => exact fails_expected
    | ordinary => exact (fails_value stops).first

/-- Whether a word is left alone: nothing comes of it, or a failure that can be mended. -/
inductive LeavesAlone (rule : Rule (Option Expr)) (s : Setting) (tokens : List Lexeme) : Prop
  | none (given : rule.Gives s tokens .none tokens)
  | fails (failed : rule.Fails s tokens)

namespace LeavesAlone
variable {rule : Rule Expr}

theorem behind {α : Type} {rule : Rule α} {a : α} {later : α → Rule (Option Expr)}
    (given : rule.Gives s tokens a tokens) (left : LeavesAlone (later a) s tokens) :
    LeavesAlone (rule >>= later) s tokens := by
  cases left with
  | none last => exact .none (given.step last)
  | fails failed => exact .fails (given.fails failed)

theorem unenclosed (stops : Stops tokens) : LeavesAlone (do return some (← parenthesised rule)) s tokens :=
  .fails (fails_parenthesised (stops.token_ne "(" (by decide))).first

theorem unmet {condition : Prop} [Decidable condition] {rule other : Rule (Option Expr)} (unmet : ¬ condition)
    (left : LeavesAlone other s tokens) : LeavesAlone (if condition then rule else other) s tokens := by
  rwa [if_neg unmet]

theorem allowed {condition : Prop} [Decidable condition] {rule : Rule (Option Expr)}
    (left : LeavesAlone rule s tokens) : LeavesAlone (if condition then rule else pure .none) s tokens := by
  split
  · exact left
  · exact .none gives_pure

end LeavesAlone

/-- A word that is no expression of its own opens none where none of its parts follows. -/
theorem specialWord_leavesAlone {keyword : String} (operand : OperandRule) (w : Ident) (stops : Stops tokens)
    (free : keyword ∉ wordsOfExpressions) :
    LeavesAlone (specialWord g operand w keyword) ⟨d, depth, .ordinary⟩ tokens := by
  have read : (read : Rule Setting).Gives ⟨d, depth, .ordinary⟩ tokens ⟨d, depth, .ordinary⟩ tokens := rfl
  refine .behind read (.behind gives_peek ?_)
  have nothing : LeavesAlone (pure none) ⟨d, depth, .ordinary⟩ tokens := .none gives_pure
  have unlisted : (columnSearch).Fails ⟨d, depth, .ordinary⟩ tokens := by
    refine Fails.first (Gives.fails (stops.symbol? "(" (by decide)) ?_)
    exact fails_expected
  have unmarked (mark : String) (apart : mark ≠ ",") :
      ¬ ((front tokens).token == .symbol mark) = true := by simpa using stops.token_ne mark apart
  have unbraced : ¬ (d.hasStructures && (front tokens).token == .symbol "\x7b") = true :=
    fun both => unmarked "\x7b" (by decide) (Bool.and_eq_true_iff.mp both).2
  dsimp only
  split
  all_goals first
    | with_reducible exact nothing
    | exact absurd (by decide) free
    | with_reducible exact .unmet (unmarked "(" (by decide)) nothing
    | with_reducible exact .unmet (unmarked "[" (by decide)) (.unmet (unmarked "(" (by decide)) nothing)
    | with_reducible exact .unmet unbraced nothing
    | with_reducible exact .allowed (.fails unlisted.first)
    | exact .unenclosed stops
    | exact .allowed (.unenclosed stops)
    | exact .unmet (by decide) nothing

theorem gives_plainWord (stops : Stops tokens) (w : Ident) : (plainWord g w).Gives s tokens (.name w) tokens := by
  refine gives_peek.step ?_
  rcases stops with stop | stop | stop
  · rw [stop]; exact gives_pure
  · rw [stop]; exact gives_pure
  · obtain ⟨value, token⟩ := exists_of_keyword_ne fun none => absurd (none ▸ stop) (by decide)
    rw [token]; exact gives_pure

theorem not_reserved {d : Dialect} {keyword : String} (free : keyword ∉ wordsOfExpressions) :
    d.reservesWord keyword = false := by
  simp only [wordsOfExpressions, List.mem_cons, List.not_mem_nil, or_false, not_or] at free
  simp [Dialect.reservesWord, free]

theorem gives_wordOperand {operand : OperandRule} {w : Ident} {keyword : String} (stops : Stops tokens)
    (free : keyword ∉ wordsOfExpressions) :
    (wordOperand g operand w keyword).Gives ⟨d, depth, .ordinary⟩ tokens (.name w) tokens := by
  cases specialWord_leavesAlone (g := g) operand w stops free with
  | none given => exact given.outcome.step (gives_plainWord stops w)
  | fails failed =>
    obtain ⟨error, given⟩ := failed.outcome
    refine given.step (gives_dialect.step ?_)
    rw [not_reserved free]
    exact (gives_plainWord stops w).outcome.step gives_pure

/-- A word with nothing behind it is an operand, and a name. -/
theorem gives_operand (known : g .dataType = dataType g') (named : t.token = i.token) (stops : Stops tokens)
    (free : t.token.keyword ∉ wordsOfExpressions) :
    (operand g).Gives ⟨d, depth, .ordinary⟩ (t :: tokens) (.name i) tokens := by
  have seen : (front (t :: tokens)).token = .word i.value i.quote := named
  refine gives_get.step ?_
  rw [operandWithin]
  refine gives_dialect.step ((fails_typedLiteral known named stops free).attempt.step (gives_peek.step ?_))
  rw [named] at free
  rw [seen]
  exact gives_next.step (gives_wordOperand stops free)

theorem gives_seesOuterMark (stops : Stops tokens) : (seesOuterMark).Gives s tokens false tokens := by
  refine gives_allows.step ?_
  split
  · refine gives_get.step ?_
    have unseen : (((tokens.take 3).map (·.token)) == [.symbol "(", .symbol "+", .symbol ")"]) = false := by
      refine beq_eq_false_iff_ne.mpr fun same => ?_
      cases tokens with
      | nil => cases same
      | cons t rest => exact stops.token_ne "(" (by decide) (List.cons.inj same).1
    rw [unseen]
    exact gives_pure
  · exact gives_pure

/-- Nothing is taken from a value that nothing follows. -/
theorem gives_compound (stops : Stops tokens) (root : Expr) : (compound g root).Gives s tokens root tokens := by
  have unstepped (budget : Nat) : (chainWithin g (budget + 1)).Gives s tokens ([], .plain) tokens :=
    (stops.seesSymbol "." (by decide)).step ((stops.symbol? "[" (by decide)).step gives_pure)
  exact gives_get.step ((unstepped _).step ((gives_seesOuterMark stops).step gives_pure))

/-- A word with nothing behind it is an expression, and a name. -/
theorem gives_expression (known : g .dataType = dataType g') (named : t.token = i.token) (stops : Stops tokens)
    (free : t.token.keyword ∉ wordsOfExpressions) :
    (expression g 0).Gives ⟨d, depth + 1, .ordinary⟩ (t :: tokens) (.name i) tokens := by
  have continued (budget : Nat) : (continuations g 0 (budget + 1) (.name i)).Gives ⟨d, depth, .ordinary⟩ tokens
      (.name i) tokens := stops.rankAhead.step ((stops.seesSymbol "." (by decide)).step gives_pure)
  refine .deeper rfl ((gives_operand known named stops free).step ?_)
  exact (gives_compound stops _).step (gives_get.step (continued _))

theorem gives_exprOrWildcard (named : t.token = i.token) (stops : Stops tokens) {e : Expr} {rest : List Lexeme}
    (given : g.expr.Gives s (t :: tokens) e rest) : (exprOrWildcard g).Gives s (t :: tokens) e rest := by
  have seen : (front (t :: tokens)).token = .word i.value i.quote := named
  have single : (front (t :: tokens)).token ≠ .symbol "*" := by
    rw [seen]
    exact Token.noConfusion
  refine (gives_symbol?_other single).step (gives_peek.step ((gives_peekAt 1).step ?_))
  have second : (t :: tokens).getD 1 .finish = front tokens := rfl
  rw [seen, second]
  rcases stops with stop | stop | stop
  · rw [stop]; exact given
  · rw [stop]; exact given
  · obtain ⟨value, token⟩ := exists_of_keyword_ne fun none => absurd (none ▸ stop) (by decide)
    rw [token]; exact given

/-- A column alone is an item of a select list. -/
theorem gives_selectItem (read : g.expr = expression g' 0) (known : g' .dataType = dataType g'')
    (named : t.token = i.token) (stops : Stops tokens) (free : t.token.keyword ∉ wordsOfExpressions)
    (other : t.token.keyword ≠ "FROM") :
    (selectItem g).Gives ⟨d, depth + 1, .ordinary⟩ (t :: tokens) ⟨.name i, none⟩ tokens := by
  have given : g.expr.Gives ⟨d, depth + 1, .ordinary⟩ (t :: tokens) (.name i) tokens := by
    rw [read]
    exact gives_expression known named stops free
  refine (gives_exprOrWildcard named stops given).step ?_
  have taken : ¬ (i.quote.isNone && capitals i.value == "FROM") = true := by
    intro same
    obtain ⟨unquoted, same⟩ := Bool.and_eq_true_iff.mp same
    rw [named, Ident.token, Option.isNone_iff_eq_none.mp unquoted] at other
    exact other (beq_iff_eq.mp same)
  dsimp only
  rw [if_neg taken]
  exact stops.itemAlias.step gives_pure

end Rule

namespace Rule
open Stops
variable {s : Setting} {t : Lexeme} {tokens : List Lexeme} {g g' g'' : Grammar} {i : Ident} {d : Dialect}
  {depth : Nat}

theorem gives_many_indexHint (stops : Stops tokens) : (many indexHint).Gives s tokens [] tokens :=
  gives_many_none ((stops.oneOf? _ (by decide)).step gives_pure)

theorem gives_sample (stops : Stops tokens) : (sample g).Gives s tokens none tokens :=
  (stops.oneOf? _ (by decide)).step gives_pure

theorem gives_turned (stops : Stops tokens) (source : Relation) : (turned g source).Gives s tokens source tokens := by
  refine gives_get.step ?_
  rw [turnedWithin]
  exact (stops.oneOf? _ (by decide)).step gives_pure

/-- A table alone is a source of rows. -/
theorem gives_plainTable (named : t.token = i.token) (stops : Stops tokens) :
    (plainTable g).Gives s (t :: tokens) (.table [i] "" none "") tokens := by
  refine gives_dialect.step ((gives_name named stops).step ?_)
  refine .skip (gives_andThen_unmet (stops.word? "PARTITION" (by decide))) ?_
  refine (gives_andThen_unmet (stops.words? "FOR" _ (by decide))).step (gives_pure.step ?_)
  refine .skip (stops.symbol? "(" (by decide)) ?_
  refine (stops.words? "WITH" _ (by decide)).step (stops.tableAlias.step ?_)
  refine .optionally (gives_many_indexHint stops).attempt rfl ?_
  have unhinted : ¬ ((front tokens).token.keyword == "WITH" && (tokens.getD 1 .finish).token == .symbol "(") = true :=
    fun both => absurd (beq_iff_eq.mp (Bool.and_eq_true_iff.mp both).1 ▸ stops.keyword_mem) (by decide)
  refine gives_peekWord.step ((gives_peekAt 1).step ?_)
  rw [if_neg unhinted]
  refine gives_pure.step ((gives_sample stops).step ((gives_turned stops _).step ?_))
  exact (gives_andThen_unmet (stops.word? "MATCH_RECOGNIZE" (by decide))).step gives_pure

/-- A table alone is a source of rows wherever one may stand. -/
theorem gives_relation (named : t.token = i.token) (stops : Stops tokens)
    (free : t.token.keyword ∉ ["LATERAL", "TABLE", "UNNEST"]) :
    (relation g).Gives s (t :: tokens) (.table [i] "" none "") tokens := by
  have seen : (front (t :: tokens)).token = .word i.value i.quote := named
  have unopened : (((t :: tokens).getD 1 .finish).token == .symbol "(") = false :=
    beq_eq_false_iff_ne.mpr (stops.token_ne "(" (by decide))
  have other {word : String} (listed : word ∈ ["LATERAL", "TABLE", "UNNEST"]) :
      (word? word).Gives s (t :: tokens) false (t :: tokens) := gives_word?_other fun same => free (same ▸ listed)
  have enclosed : (front (t :: tokens)).token ≠ .symbol "(" := by
    rw [seen]
    exact Token.noConfusion
  refine gives_dialect.step ((gives_peekAt 1).step ?_)
  rw [unopened]
  refine (other (by decide)).step ((other (by decide)).step ((gives_symbol?_other enclosed).step ?_))
  rw [Bool.and_false]
  refine Gives.step (a := false) gives_pure ((gives_andThen_unmet (other (by decide))).step ?_)
  exact gives_peekWord.step (gives_plainTable named stops)

theorem gives_join (stops : Stops tokens) : (join g).Gives s tokens none tokens := by
  refine (stops.word? "GLOBAL" (by decide)).step ((stops.word? "CROSS" (by decide)).step ?_)
  refine (stops.word? "OUTER" (by decide)).step ?_
  refine (stops.word? "ASOF" (by decide)).step ((stops.word? "NATURAL" (by decide)).step ?_)
  have alone : (joinWords false).Gives s tokens none tokens := by
    refine gives_peekWord.step ?_
    have listed := stops.keyword_mem
    generalize (front tokens).token.keyword = keyword at listed ⊢
    simp only [stopWords, List.mem_cons, List.not_mem_nil, or_false] at listed
    rcases listed with rfl | rfl | rfl | rfl | rfl <;> exact gives_pure
  exact alone.step gives_pure

theorem gives_joinedTable (read : g .relation = relation g') (named : t.token = i.token) (stops : Stops tokens)
    (free : t.token.keyword ∉ ["LATERAL", "TABLE", "UNNEST"]) :
    (joinedTable g).Gives s (t :: tokens) ⟨.table [i] "" none "", []⟩ tokens := by
  have given : (g .relation).Gives s (t :: tokens) (.table [i] "" none "") tokens := by
    rw [read]
    exact gives_relation named stops free
  exact given.step ((gives_many_none (gives_join stops)).step gives_pure)

end Rule

end TableAccess.Sql
