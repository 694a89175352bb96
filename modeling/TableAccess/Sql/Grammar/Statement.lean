import TableAccess.Sql.Grammar.Change
import TableAccess.Sql.Grammar.Definition

/-! Statements. Those that read or change rows and those that declare tables have rules
of their own; of the many others only the ones with a short rule are read word by word,
and the rest are taken up to the separator, because nothing depends on what they say. -/
namespace TableAccess.Sql

/-- Words that open statements without a rule of their own. -/
def Dialect.opensOther (d : Dialect) (word : String) : Bool :=
  ["KILL", "FLUSH", "ANALYZE", "CASE", "IF", "WHILE", "RAISE", "MSCK", "CACHE", "DISCARD",
    "DECLARE", "FETCH", "UNCACHE", "ALTER", "COPY", "OPEN", "CLOSE", "SHOW", "USE", "GRANT",
    "DENY", "REVOKE", "SAVEPOINT", "RELEASE", "RAISERROR", "ASSERT", "DEALLOCATE", "EXECUTE",
    "EXEC", "PREPARE", "UNLOAD", "RENAME", "PRINT", "RETURN", "EXPORT", "VACUUM", "RESET",
    "ATTACH"].contains word
  || (d == .generic && ["DETACH", "INSTALL", "LOAD", "OPTIMIZE", "COMMENT"].contains word)
  || (d == .postgresql && ["LISTEN", "UNLISTEN", "NOTIFY", "COMMENT"].contains word)

namespace Rule

/-- Everything up to the next separator. -/
def skipStatement : Rule Unit := do
  set ((← get).dropWhile fun lexeme => lexeme.token != .symbol ";")

/-! Statements about objects of the database. -/

/-- A definition of a view, after the word `VIEW`. -/
def viewDefinition (g : Grammar) : Rule Unit := do
  let _ ← words? ["IF", "NOT", "EXISTS"]
  let _ ← name
  let _ ← words? ["IF", "NOT", "EXISTS"]
  let _ ← columnList true false ident
  if ← word? "WITH" then enclosedOptions g
  word "AS"
  let _ ← g .query
  if ← words? ["WITH", "NO", "SCHEMA"] then word "BINDING"

/-- A definition of an index, after the word `INDEX`. -/
def indexDefinition (g : Grammar) : Rule Unit := do
  let _ ← word? "CONCURRENTLY"
  let unlessExists ← words? ["IF", "NOT", "EXISTS"]
  if unlessExists || !(← word? "ON") then
    let _ ← name
    indexMethod
    word "ON"
  let _ ← name
  indexMethod
  indexKeys g
  if ← word? "INCLUDE" then
    let _ ← columnList false false ident
  if ← word? "NULLS" then
    let _ ← word? "NOT"
    word "DISTINCT"
  let _ ← conditionAfter g "WHERE"
  indexOptions

/-- A definition of an object, after its first word. -/
def definition (g : Grammar) : Rule Statement := do
  let replaces ← words? ["OR", "REPLACE"]
  let _ ← words? ["OR", "ALTER"]
  let _ ← word? "LOCAL"
  let _ ← word? "GLOBAL"
  let _ ← word? "TRANSIENT"
  let _ ← oneOf? ["TEMP", "TEMPORARY"]
  if ← word? "TABLE" then return .createTable (← tableDefinition g)
  else
    let _ ← word? "MATERIALIZED"
    if ← word? "VIEW" then viewDefinition g
    else if (← oneOf? ["POLICY", "EXTERNAL", "FUNCTION", "DOMAIN", "TRIGGER", "PROCEDURE",
        "SECRET", "USER"]).isSome then skipStatement
    else if ← words? ["CONSTRAINT", "TRIGGER"] then skipStatement
    else if replaces then
      expected "[EXTERNAL] TABLE or [MATERIALIZED] VIEW or FUNCTION after CREATE OR REPLACE"
    else if ← word? "INDEX" then indexDefinition g
    else if ← words? ["UNIQUE", "INDEX"] then indexDefinition g
    else if ← words? ["VIRTUAL", "TABLE"] then skipStatement
    else if (← oneOf? ["EXTENSION", "SCHEMA", "DATABASE", "ROLE", "SEQUENCE", "TYPE", "SERVER",
        "CONNECTOR", "OPERATOR"]).isSome then skipStatement
    else expected "an object type after CREATE"
    return .other

/-- A removal of objects, after its first word. -/
def removal : Rule Unit := do
  let d ← dialect
  if d.declaresIndexes then
    let _ ← word? "TEMPORARY"
  if (← oneOf? ["FUNCTION", "POLICY", "CONNECTOR", "DOMAIN", "PROCEDURE", "SECRET", "TRIGGER",
      "EXTENSION", "OPERATOR"]).isSome then skipStatement
  else
    let plain ← oneOf? ["TABLE", "VIEW", "INDEX", "ROLE", "SCHEMA", "DATABASE", "SEQUENCE", "STAGE",
      "TYPE", "USER", "STREAM"]
    let isView ← andThen plain.isNone (words? ["MATERIALIZED", "VIEW"])
    if plain.isNone && !isView then
      expected ("CONNECTOR, DATABASE, EXTENSION, FUNCTION, INDEX, POLICY, PROCEDURE, ROLE, "
        ++ "SCHEMA, SECRET, SEQUENCE, STAGE, TABLE, TRIGGER, TYPE, VIEW, MATERIALIZED VIEW or USER "
        ++ "after DROP")
    let _ ← words? ["IF", "EXISTS"]
    let _ ← commaList name
    let start := (← peek).number
    let cascades ← word? "CASCADE"
    let restricts ← word? "RESTRICT"
    let purges ← word? "PURGE"
    if cascades && restricts then
      fail (.refused "Cannot specify both CASCADE and RESTRICT in DROP" start)
    if plain == some "ROLE" && (cascades || restricts || purges) then
      fail (.refused "Cannot specify CASCADE, RESTRICT, or PURGE in DROP ROLE" start)
    if ← word? "ON" then
      let _ ← name

/-- A removal of all rows of tables, after its first word. -/
def truncation (g : Grammar) : Rule Unit := do
  let d ← dialect
  let _ ← word? "TABLE"
  let _ ← commaList do
    let _ ← word? "ONLY"
    name
  if ← word? "PARTITION" then
    let _ ← parenthesised g.exprs
  if d.partitionsTables then
    if !(← words? ["RESTART", "IDENTITY"]) then
      let _ ← words? ["CONTINUE", "IDENTITY"]
    let _ ← oneOf? ["CASCADE", "RESTRICT"]

/-! Statements about the session. -/

/-- New values of variables, after the first word. -/
def variableSetting (g : Grammar) : Rule Unit := do
  let _ ← oneOf? ["SESSION", "LOCAL", "GLOBAL", "HIVEVAR"]
  if (← oneOf? ["ROLE", "NAMES", "TRANSACTION", "CHARACTERISTICS", "AUTHORIZATION"]).isSome then
    skipStatement
  else if ← words? ["TIME", "ZONE"] then
    let _ ← word? "TO"
    let _ ← g.expr
  else if ← seesSymbol "(" then skipStatement
  else
    let _ ← name
    if ← symbol? "=" then pure ()
    else if ← word? "TO" then pure ()
    else expected "equals sign or TO"
    let _ ← g.exprs

/-- The value of a setting of the database. -/
def pragmaValue : Rule Unit := do
  let _ ← value

/-- A setting of the database, after its first word. -/
def pragma : Rule Unit := do
  let _ ← name
  if ← symbol? "(" then
    pragmaValue
    symbol ")"
  else if ← symbol? "=" then pragmaValue

/-- The words of a transaction's start or end. -/
def transactionWords : Rule Unit := do
  let _ ← oneOf? ["TRANSACTION", "WORK", "TRAN"]

/-- How a transaction sees others, between commas that may be missing. -/
def transactionModes : Rule Unit := do
  let _ ← many do
    let mode ← if ← words? ["ISOLATION", "LEVEL"] then
        if ← words? ["READ", "UNCOMMITTED"] then pure true
        else if ← words? ["READ", "COMMITTED"] then pure true
        else if ← words? ["REPEATABLE", "READ"] then pure true
        else if ← word? "SERIALIZABLE" then pure true
        else if ← word? "SNAPSHOT" then pure true
        else expected "isolation level"
      else if ← words? ["READ", "ONLY"] then pure true
      else words? ["READ", "WRITE"]
    if mode then
      let _ ← symbol? ","
      return some ()
    else return none

/-- The start of a transaction, after its first word. -/
def transactionStart : Rule Unit := do
  if (← dialect) == .generic || (← dialect) == .sqlite || (← dialect) == .mssql then
    let _ ← oneOf? ["DEFERRED", "IMMEDIATE", "EXCLUSIVE", "TRY", "CATCH"]
  transactionWords
  transactionModes

/-- The end of a transaction, after its first word. -/
def transactionEnd : Rule Unit := do
  transactionWords
  if ← word? "AND" then
    let _ ← word? "NO"
    word "CHAIN"

/-- A plan of a statement or a description of a table, after its first word. -/
def explanation (g : Grammar) : Rule Statement := do
  let d ← dialect
  if d.hasBracketArrays && (← seesSymbol "(") then
    let _ ← parenthesised (commaList do
      let _ ← ident
      if !(← seesSymbol ",") && !(← seesSymbol ")") then
        let _ ← g.expr)
  else if ← words? ["QUERY", "PLAN"] then pure ()
  else if ← word? "ESTIMATE" then pure ()
  else
    let _ ← word? "ANALYZE"
    let _ ← word? "VERBOSE"
    if ← word? "FORMAT" then
      let _ ← symbol? "="
      let _ ← ident
  match ← attempt (g .statement) with
  | some .explanation => fail (.refused "Explain must be root of the plan" none)
  | some _ => return .explanation
  | none => do
    let _ ← oneOf? ["EXTENDED", "FORMATTED"]
    let _ ← name
    return .explanation

/-- A statement that takes no part in reading or changing rows. -/
def others (rule : Rule Unit) : Rule Statement := do
  let _ ← next
  rule
  return .other

/-- One statement. -/
def statement (g : Grammar) : Rule Statement := deeper do
  let d ← dialect
  let found ← peek
  let keyword := found.token.keyword
  let locks := ["LOCK", "UNLOCK"].contains keyword && (← peekAt 1).token.keyword == "TABLES"
  match keyword with
  | "SELECT" | "WITH" | "VALUES" | "FROM" => return .query (← g .query)
  | "INSERT" => do
    let _ ← next
    return .insertion (← g .insertion)
  | "REPLACE" => do
    let _ ← next
    return .insertion (← replacement g)
  | "UPDATE" => do
    let _ ← next
    return .update (← g .update)
  | "DELETE" => do
    let _ ← next
    return .deletion (← g .deletion)
  | "MERGE" => others (g .merge)
  | "CREATE" => do
    let _ ← next
    definition g
  | "EXPLAIN" | "DESCRIBE" | "DESC" => do
    let _ ← next
    explanation g
  | "DROP" => others removal
  | "TRUNCATE" => others (truncation g)
  | "SET" => others (variableSetting g)
  | "PRAGMA" => others pragma
  | "BEGIN" => others transactionStart
  | "START" => others do
    word "TRANSACTION"
    transactionModes
  | "END" => others transactionEnd
  | "COMMIT" => others transactionEnd
  | "ROLLBACK" => others do
    transactionEnd
    if ← word? "TO" then
      let _ ← word? "SAVEPOINT"
      let _ ← ident
  | "CALL" => others do
    let callee ← name
    if ← seesSymbol "(" then
      let _ ← callOf g callee false
  | _ =>
    if found.token == .symbol "(" then return .query (← g .query)
    else if d.opensOther keyword then others skipStatement
    else if d == .mysql && locks then others skipStatement
    else expected "an SQL statement"

/-- Statements, each followed by a separator or the end. A closing word also ends
them. -/
def statementsWithin (g : Grammar) : Nat → Rule (List Statement)
  | 0 => return []
  | budget + 1 => do
    let _ ← many (given (symbol? ";") (pure ()))
    let found ← peek
    if found.token == .finish then return []
    else
      let first ← g .statement
      let following ← peek
      if following.token == .symbol ";" then return first :: (← statementsWithin g budget)
      else if following.token == .finish || following.token.keyword == "END" then return [first]
      else expected "end of statement"

end Rule

/-- The grammar, tied together: a rule may call every rule, and the budget bounds how
deeply the calls nest. -/
def Grammar.within : Nat → Grammar
  | 0, _ => Rule.fail .nestsTooDeep
  | budget + 1, n =>
    let g := Grammar.within budget
    match n with
    | .expression rank => Rule.expression g rank
    | .query => Rule.query g
    | .body rank => Rule.body g rank
    | .statement => Rule.statement g
    | .dataType => Rule.dataType g
    | .relation => Rule.relation g
    | .joinedTable => Rule.joinedTable g
    | .insertion => Rule.insertion g
    | .update => Rule.update g
    | .deletion => Rule.deletion g
    | .merge => Rule.merge g

/-- How deeply statements, queries and expressions may nest. -/
def nestingLimit : Nat := 50

/-- The statements that tokens are. Between two rules that limit the nesting at most four
calls lead to each token taken, so the budget is never what ends a text. -/
def parse (d : Dialect) (tokens : List Lexeme) : Except SyntaxError (List Statement) := do
  let budget := 4 * tokens.length + 8 * nestingLimit
  let rule := Rule.statementsWithin (Grammar.within budget) (tokens.length + 1)
  let read ← rule ⟨d, nestingLimit, .ordinary⟩ tokens
  return read.1

/-- The statements of a text, or the message that says why there are none. -/
def statements (d : Dialect) (text : String) : Except String (List Statement) :=
  match placedTokens d text with
  | .error error => .error (error.fault.message ++ Position.suffix (some error.place))
  | .ok tokens =>
    match parse d (lexemesFrom 0 tokens) with
    | .error error => .error (error.message fun number => (tokens[number]?).map Lexer.Placed.place)
    | .ok statements => .ok statements

end TableAccess.Sql
