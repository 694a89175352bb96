import TableAccess.Sql.Lexer
import TableAccess.Sql.Syntax

/-! The machinery of the grammar. A rule reads tokens from the front of a list and
either gives a result with the tokens that are left, or says what it expected; a rule
that fails changes nothing, so trying another one needs no bookkeeping. How deeply
statements, queries and expressions nest is limited, and the limit is not a failure
that another rule could mend. -/
namespace TableAccess.Sql

/-- Why tokens are no sequence of statements. -/
inductive SyntaxError where
  /-- Something else stands where the rule expected this. -/
  | expected (what : String) (found : Lexeme)
  /-- A rule that is met has a condition that is not. -/
  | refused (reason : String) (number : Option Nat)
  /-- A token ranks as an operator here without being one. -/
  | noOperator (found : Lexeme)
  | nestsTooDeep
deriving DecidableEq, Repr

/-- The wording of a syntax error, with the place of the token that it is about. -/
def SyntaxError.message (placeOf : Nat → Option Position) : SyntaxError → String
  | .expected what found =>
    "Expected: " ++ what ++ ", found: " ++ found.token.shown
      ++ Position.suffix (found.number.bind placeOf)
  | .refused reason number => reason ++ Position.suffix (number.bind placeOf)
  | .noOperator found =>
    "No infix parser for token " ++ found.token.described
      ++ Position.suffix (found.number.bind placeOf)
  | .nestsTooDeep => "recursion limit exceeded"

/-- What surrounds an expression, where that changes its reading. -/
inductive Surrounding where
  | ordinary
  /-- A condition that ties the levels of a hierarchy. -/
  | hierarchy
  /-- The options of a column that is being declared. -/
  | columnOptions
deriving DecidableEq, Repr

/-- What a rule knows beside the tokens: the dialect, how much deeper statements,
queries and expressions may nest, and the surrounding. -/
structure Setting where
  dialect : Dialect
  depth : Nat
  surrounding : Surrounding

/-- A rule of the grammar. -/
abbrev Rule := ReaderT Setting (StateT (List Lexeme) (Except SyntaxError))

namespace Rule

variable {α β : Type}

/-- The dialect that is being read. -/
def dialect : Rule Dialect := do return (← read).dialect

/-- Whether the dialect allows something. -/
def allows (test : Dialect → Bool) : Rule Bool := do return test (← read).dialect

/-- A second condition, tried only where the first one holds. -/
def andThen (first : Bool) (second : Rule Bool) : Rule Bool :=
  if first then second else return false

/-- Fail. -/
def fail (error : SyntaxError) : Rule α := throw error

/-- The token after `n` others. -/
def peekAt (n : Nat) : Rule Lexeme := do return (← get).getD n .finish

/-- The next token. -/
def peek : Rule Lexeme := peekAt 0

/-- Take the next token. -/
def next : Rule Lexeme := do
  match ← get with
  | [] => return Lexeme.finish
  | lexeme :: rest => do
    set rest
    return lexeme

/-- Fail at the next token. -/
def expected (what : String) : Rule α := do fail (.expected what (← peek))

/-- Fail for a reason, at the next token. -/
def refuse (reason : String) : Rule α := do fail (.refused reason (← peek).number)

/-- The keyword that comes next, empty if none does. -/
def peekWord : Rule String := do return (← peek).token.keyword

/-- Whether this keyword comes next. -/
def seesWord (word : String) : Rule Bool := do return (← peekWord) == word

/-- Whether this symbol comes next. -/
def seesSymbol (spelling : String) : Rule Bool := do
  return (← peek).token == .symbol spelling

/-- Take this keyword, if it comes next. -/
def word? (word : String) : Rule Bool := do
  if (← peekWord) == word then
    let _ ← next
    return true
  else return false

/-- Take these keywords, if all of them come next. -/
def words? (words : List String) : Rule Bool := do
  let ahead := (← get).take words.length
  if ahead.map (·.token.keyword) == words then
    set ((← get).drop words.length)
    return true
  else return false

/-- Take the keyword that comes next, if it is one of these. -/
def oneOf? (words : List String) : Rule (Option String) := do
  let word ← peekWord
  if word != "" && words.contains word then
    let _ ← next
    return some word
  else return none

/-- Take this symbol, if it comes next. -/
def symbol? (spelling : String) : Rule Bool := do
  if ← seesSymbol spelling then
    let _ ← next
    return true
  else return false

/-- Take these symbols, if all of them come next. -/
def symbols? (spellings : List String) : Rule Bool := do
  let ahead := (← get).take spellings.length
  if ahead.map (·.token) == spellings.map Token.symbol then
    set ((← get).drop spellings.length)
    return true
  else return false

/-- Take this keyword. -/
def word (word : String) : Rule Unit := do
  if !(← word? word) then expected word

/-- Take these keywords one after the other. -/
def words : List String → Rule Unit
  | [] => return ()
  | w :: rest => do
    word w
    words rest

/-- Take one of these keywords. -/
def oneOf (words : List String) : Rule String := do
  match ← oneOf? words with
  | some word => return word
  | none => expected ("one of " ++ String.intercalate " or " words)

/-- Take this symbol. -/
def symbol (spelling : String) : Rule Unit := do
  if !(← symbol? spelling) then expected spelling

/-- Try a rule. A failure leaves the tokens as they were; too deep a nesting fails
the whole text. -/
def attempt (rule : Rule α) : Rule (Option α) := fun setting tokens =>
  match rule setting tokens with
  | .ok (result, rest) => .ok (some result, rest)
  | .error .nestsTooDeep => .error .nestsTooDeep
  | .error _ => .ok (none, tokens)

/-- Try a rule and keep its failure, with the tokens as they were. -/
def outcome (rule : Rule α) : Rule (Except SyntaxError α) := fun setting tokens =>
  match rule setting tokens with
  | .ok (result, rest) => .ok (.ok result, rest)
  | .error error => .ok (.error error, tokens)

/-- Read one level deeper. -/
def deeper (rule : Rule α) : Rule α := fun setting tokens =>
  match setting.depth with
  | 0 => .error .nestsTooDeep
  | depth + 1 => rule { setting with depth } tokens

/-- Read in another surrounding. -/
def inside (surrounding : Surrounding) (rule : Rule α) : Rule α := fun setting =>
  rule { setting with surrounding }

/-- Repeat a rule until it gives nothing. Every repetition that gives a result takes
a token, so one step per token suffices. -/
def repeatWithin (rule : Rule (Option α)) : Nat → Rule (List α)
  | 0 => return []
  | steps + 1 => do
    match ← rule with
    | none => return []
    | some result => return result :: (← repeatWithin rule steps)

/-- Repeat a rule until it gives nothing. -/
def many (rule : Rule (Option α)) : Rule (List α) := do
  repeatWithin rule ((← get).length + 1)

/-- One item, and more for as long as `more` allows. -/
def listWithin (item : Rule α) (more : Rule Bool) : Nat → Rule (List α)
  | 0 => return []
  | steps + 1 => do
    let first ← item
    if ← more then return first :: (← listWithin item more steps)
    else return [first]

/-- Items between commas, at least one. -/
def commaList (item : Rule α) : Rule (List α) := do
  listWithin item (symbol? ",") ((← get).length + 1)

/-- Items between commas, where a comma may also stand after the last one: a token that
cannot start an item ends the list. -/
def commaListUntil (ends : Token → Bool) (item : Rule α) : Rule (List α) := do
  let more := do
    if ← symbol? "," then
      let token := (← peek).token
      return !(ends token || token == .finish
        || [")", ";", "]", "\x7d"].any (token == .symbol ·))
    else return false
  listWithin item more ((← get).length + 1)

/-- Items between commas, or none where the closing symbol comes next. -/
def commaListBefore (closing : String) (item : Rule α) : Rule (List α) := do
  if ← seesSymbol closing then return [] else commaList item

/-- A rule between parentheses. -/
def parenthesised (rule : Rule α) : Rule α := do
  symbol "("
  let result ← rule
  symbol ")"
  return result

/-- A rule, if a condition holds. -/
def given (condition : Rule Bool) (rule : Rule α) : Rule (Option α) := do
  if ← condition then return some (← rule) else return none

/-- A list, if a condition holds. -/
def givenList (condition : Rule Bool) (rule : Rule (List α)) : Rule (List α) := do
  if ← condition then rule else return []

end Rule

/-- The rules that may contain each other. -/
inductive Nonterminal where
  | expression (rank : Nat)
  | query
  | body (rank : Nat)
  | statement
  | dataType
  | relation
  | joinedTable
  | insertion
  | update
  | deletion
  | merge
deriving DecidableEq, Repr

/-- The kinds of data types that matter where a literal may follow the type. -/
inductive TypeKind where
  | ordinary
  | interval
  | custom
deriving DecidableEq, Repr

/-- A data type in its written form. Nothing looks inside it. -/
structure DataType where
  text : String
  kind : TypeKind
deriving DecidableEq, Repr

/-- What each rule gives. A data type also says whether it took a closing bracket that
belongs to the type around it. -/
abbrev Nonterminal.Result : Nonterminal → Type
  | .expression _ => Expr
  | .query => Query
  | .body _ => Body
  | .statement => Statement
  | .dataType => DataType × Bool
  | .relation => Relation
  | .joinedTable => JoinedTable
  | .insertion => Insertion
  | .update => Update
  | .deletion => Deletion
  | .merge => Unit

/-- The rules that may contain each other, as far as they are known: rules are written
over a grammar for what they contain, and the whole grammar is tied together last. -/
abbrev Grammar := (n : Nonterminal) → Rule n.Result

namespace Grammar

/-- A whole expression. -/
def expr (g : Grammar) : Rule Expr := g (.expression 0)

/-- Expressions between commas. -/
def exprs (g : Grammar) : Rule (List Expr) := Rule.commaList g.expr

/-- A data type that stands alone. -/
def type (g : Grammar) : Rule DataType := do
  let (result, leftBracket) ← g .dataType
  if leftBracket then
    Rule.refuse ("unmatched > after parsing data type " ++ result.text)
  return result

end Grammar

end TableAccess.Sql
