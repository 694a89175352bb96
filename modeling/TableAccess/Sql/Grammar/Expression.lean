import TableAccess.Sql.Grammar.Call

/-! Expressions, by operator precedence: an operand with the fields and elements taken
from it, then operators for as long as they bind tighter than what stands before. Many
words open a special syntax and are ordinary names elsewhere; such a word is first read
in its special sense, and as a name or a call where that fails. -/
namespace TableAccess.Sql

/-- The class of an operator symbol. -/
def Dialect.symbolStrength (d : Dialect) (spelling : String) : Option Dialect.Strength :=
  let general : Option Dialect.Strength :=
    if [":=", "=", "<", "<=", "<>", ">", ">=", "==", "~", "~*", "!~", "!~*", "~~", "~~*", "!~~",
      "!~~*", "<=>"].contains spelling then some .equality
    else if ["|", "&&", "?-", "##", "&<", "&>", "?-|", "&<|", "|&>", "<->", "<^", ">^", "?#", "?||",
      "~=", "|>>", "<<|"].contains spelling then some .pipe
    else if ["^", "#", ">>", "<<"].contains spelling then some .caret
    else if spelling == "&" then some .ampersand
    else if ["+", "-"].contains spelling then some .sum
    else if ["*", "/", "//", "%", "||"].contains spelling then some .product
    else if ["::", "!", "[", "^@"].contains spelling then some .doubleColon
    else if ["->", "->>", "#>", "#>>", "@>", "<@", "#-", "@?", "@@", "?", "?&", "?|"].contains
        spelling then some .other
    else if spelling == "." then some .period
    else none
  if d == .postgresql && ["!", "&&", "^@", "||", "#", ">>", "<<"].contains spelling then some .other
  else general

/-- The class of a word that is an operator whatever follows it. -/
def wordStrength : String → Option Dialect.Strength
  | "OR" => some .disjunction
  | "AND" => some .conjunction
  | "XOR" => some .xor
  | "IS" => some .test
  | "IN" | "BETWEEN" | "OVERLAPS" | "OPERATOR" => some .between
  | "LIKE" | "ILIKE" | "RLIKE" | "REGEXP" | "MATCH" | "SIMILAR" | "MEMBER" => some .like
  | "DIV" => some .product
  | _ => none

/-- The operator that a symbol stands for, in its usual spelling. -/
def Dialect.binaryOperator (d : Dialect) : Token → Option String
  | .operator spelling => some spelling
  | .symbol spelling =>
    if spelling == "==" then some "="
    else if spelling == "//" || spelling == "^@" then
      if spelling == "^@" && d == .postgresql || d == .generic then some spelling else none
    else if spelling == "<<" || spelling == ">>" then
      if d.hasShifts then some spelling else none
    else if spelling == "#" then if d == .postgresql then some spelling else none
    else if spelling == "&&" then
      if d.hasOverlapOperator then some spelling
      else if d.hasDoubleAmpersand then some "AND" else none
    else if ["!", "::", "[", "."].contains spelling then none
    else match d.symbolStrength spelling with
      | some _ => some spelling
      | none => none
  | token =>
    match token.keyword with
    | "AND" => some "AND"
    | "OR" => some "OR"
    | "XOR" => some "XOR"
    | "OVERLAPS" => some "OVERLAPS"
    | _ => none

/-- Operators that a quantifier may follow. -/
def comparisons : List String :=
  [">", "<", ">=", "<=", "=", "<>", "~", "~*", "!~", "!~*", "~~", "~~*", "!~~", "!~~*"]

/-- Words that are never names where an expression starts. -/
def Dialect.reservesWord (d : Dialect) (keyword : String) : Bool :=
  ["EXISTS", "STRUCT", "TRIM"].contains keyword
    || (keyword == "INTERVAL" && d != .postgresql)

namespace Rule

/-- How tightly what comes next binds to what stands before it; zero if it does not. -/
def rankAhead : Rule Nat := do
  let setting ← read
  let d := setting.dialect
  let declaring := setting.surrounding == .columnOptions
  let found ← peek
  match found.token with
  | .operator _ => return d.rank .other
  | .symbol spelling => return ((d.symbolStrength spelling).map d.rank).getD 0
  | .word _ none =>
    let second := (← peekAt 1).token.keyword
    match found.token.keyword with
    | "AT" =>
      if second == "TIME" && (← peekAt 2).token.keyword == "ZONE" then return d.rank .zone
      else return 0
    | "NOT" =>
      if ["IN", "BETWEEN"].contains second then return d.rank .between
      else if ["LIKE", "ILIKE", "RLIKE", "REGEXP", "MATCH", "SIMILAR", "MEMBER"].contains second
      then return d.rank .like
      else if second == "NULL" && !declaring then return d.rank .test
      else return 0
    | "NOTNULL" => if d.hasNotNullTest then return d.rank .test else return 0
    | "COLLATE" => if declaring then return 0 else return d.rank .collate
    | word => return ((wordStrength word).map d.rank).getD 0
  | _ => return 0

/-- Whether a nested query comes next. -/
def seesQuery : Rule Bool := do
  let word ← peekWord
  return word == "SELECT" || word == "WITH"

/-- A nested query, without parentheses. -/
def nestedQuery (g : Grammar) : Rule Expr := do return .subquery (← g .query)

/-! What may follow a value inside it. -/

/-- What a value after a period is a part of another value as, if it can stand there. -/
def partsAfterPeriod : Expr → Option (List Selector)
  | .name i => some [.field (.name i)]
  | .path parts => some (parts.map fun i => .field (.name i))
  | .literal text => some [.field (.literal text)]
  | .call callee braces parameters arguments nulls filter range within =>
    some [.field (.call callee braces parameters arguments nulls filter range within)]
  | .access root chain => some (.field root :: chain)
  | _ => none

/-- The identifiers of a root and what is taken from it, if they are nothing else. -/
def identsOf (root : Expr) (chain : List Selector) : Option Name := do
  let first ← match root with
    | .name i => some i
    | _ => none
  let rest ← chain.mapM fun
    | .field (.name i) => some i
    | _ => none
  return first :: rest

/-- A value with what is taken from it: a qualified name, a call of a qualified name, or a part. -/
def withParts (root : Expr) (chain : List Selector) : Expr :=
  if chain.isEmpty then root
  else match identsOf root chain with
    | some parts => .path parts
    | none =>
      match identsOf root chain.dropLast, chain.getLast? with
      | some parts, some (.field (.call callee braces parameters arguments nulls filter range within)) =>
        .call (parts ++ callee) braces parameters arguments nulls filter range within
      | _, _ => .access root chain

/-- An index, or a range of indices, after its opening bracket. -/
def subscript (g : Grammar) : Rule Selector := do
  let lower ← if ← symbol? ":" then pure none else do pure (some (← g.expr))
  if ← symbol? "]" then
    match lower with
    | some index => return .element index
    | none => return .slice none none none
  else
    if lower.isSome then symbol ":"
    if ← symbol? "]" then return .slice lower none none
    else
      let upper ← g.expr
      if ← symbol? "]" then return .slice lower (some upper) none
      else
        symbol ":"
        if ← symbol? "]" then return .slice lower (some upper) none
        else
          let stride ← g.expr
          symbol "]"
          return .slice lower (some upper) (some stride)

/-- What stands after a period. -/
def periodPart (g : Grammar) : Rule (List Selector) := do
  let d ← dialect
  match (← peek).token with
  | .text .single value => do
    let _ ← next
    return [.field (.name ⟨value, some '\''⟩)]
  | .parameter spelling => do
    let _ ← next
    return [.field (.name ⟨spelling, none⟩)]
  | _ => do
    let found ← attempt do
      match partsAfterPeriod (← g (.expression (d.rank .period))) with
      | some parts => return parts
      | none => expected "an identifier or value"
    match found with
    | some parts => return parts
    | none => return [.field (.name (← ident))]

/-- How what is taken from a value ends. -/
inductive ChainEnd where
  | plain
  | wildcard

/-- All that is taken from a value. -/
def chainWithin (g : Grammar) : Nat → Rule (List Selector × ChainEnd)
  | 0 => return ([], .plain)
  | budget + 1 => do
    if ← seesSymbol "." then
      if (← peekAt 1).token == .symbol "*" then
        if (← dialect) == .postgresql then
          let _ ← symbols? [".", "*"]
          return ([], .wildcard)
        else return ([], .plain)
      else
        symbol "."
        let parts ← periodPart g
        let (rest, finish) ← chainWithin g budget
        return (parts ++ rest, finish)
    else if ← symbol? "[" then
      let taken ← subscript g
      let (rest, finish) ← chainWithin g budget
      return (taken :: rest, finish)
    else return ([], .plain)

/-- Whether the mark of an outer join comes next. -/
def seesOuterMark : Rule Bool := do
  if ← allows Dialect.hasOuterJoinMark then
    return ((← get).take 3).map (·.token) == [.symbol "(", .symbol "+", .symbol ")"]
  else return false

/-- A value with everything taken from it. -/
def compound (g : Grammar) (root : Expr) : Rule Expr := do
  let (chain, finish) ← chainWithin g ((← get).length + 1)
  match finish with
  | .wildcard =>
    match identsOf root chain with
    | some parts => return .qualifiedWildcard parts ""
    | none => expected "an identifier or a '*' after '.'"
  | .plain =>
    if ← seesOuterMark then
      let mark ← peek
      let _ ← symbols? ["(", "+", ")"]
      match identsOf root chain with
      | some [single] => return .outerJoin (.name single)
      | some parts => return .outerJoin (.path parts)
      | none => fail (.expected "column identifier before (+)" mark)
    else return withParts root chain

/-! Words that open a special syntax. -/

/-- A case expression after its first word. -/
def caseBranches (g : Grammar) : Rule Expr := do
  let subject ← if ← word? "WHEN" then pure none else do
    let e ← g.expr
    word "WHEN"
    pure (some e)
  let branch : Rule Branch := do
    let condition ← g.expr
    word "THEN"
    return ⟨condition, ← g.expr⟩
  let branches ← listWithin branch (word? "WHEN") ((← get).length + 1)
  let otherwise ← given (word? "ELSE") g.expr
  word "END"
  return .case subject branches otherwise

/-- A conversion after its first word. -/
def cast (g : Grammar) (spelling : CastSpelling) : Rule Expr := parenthesised do
  let operand ← g.expr
  word "AS"
  let type ← g.type
  let format ← if ← word? "FORMAT" then do
      let text ← value
      let zone ← if ← words? ["AT", "TIME", "ZONE"] then do pure (" AT TIME ZONE " ++ (← value))
        else pure ""
      pure (some (text ++ zone))
    else pure none
  return .cast spelling operand type.text format

/-- A conversion in call form after its first word. -/
def convert (g : Grammar) (tries : Bool) : Rule Expr := parenthesised do
  if ← allows Dialect.convertsTypeFirst then
    let type ← g.type
    symbol ","
    let operand ← g.expr
    let styles ← givenList (symbol? ",") g.exprs
    return .convert tries operand (.typeFirst type.text) styles
  else
    let operand ← g.expr
    if ← word? "USING" then
      return .convert tries operand (.charset (← name)) []
    else
      symbol ","
      let type ← g.type
      if ← words? ["CHARACTER", "SET"] then
        return .convert tries operand (.typeWithCharset type.text (← name)) []
      else return .convert tries operand (.type type.text) []

/-- A test for rows after its first word. -/
def existence (g : Grammar) (negated : Bool) : Rule Expr := parenthesised do
  return .exists negated (← g .query)

/-- An extraction after its first word. -/
def extraction (g : Grammar) : Rule Expr := parenthesised do
  let part ← timePart
  let comma ← if ← word? "FROM" then pure false
    else if ← andThen (← allows Dialect.extractsAfterComma) (symbol? ",") then pure true
    else fail (.refused "Expected 'FROM' or ','" none)
  return .extract part comma (← g.expr)

/-- A rounding after its first word. -/
def rounding (g : Grammar) (word : String) : Rule Expr := parenthesised do
  let operand ← g.expr
  if ← word? "TO" then return .rounding word operand (" TO " ++ (← timePart))
  else if ← symbol? "," then
    match (← peek).token with
    | .number _ _ => return .rounding word operand (", " ++ (← value))
    | _ => do
      let _ ← value
      fail (.refused "Scale field can only be of number type" none)
  else return .rounding word operand ""

/-- A position in a text after its first word. -/
def positionOf (g : Grammar) (callee : Ident) : Rule Expr := do
  let d ← dialect
  let found ← attempt (parenthesised do
    let sought ← g (.expression (d.rank .between))
    word "IN"
    return .position sought (← g.expr))
  match found with
  | some result => return result
  | none => callOf g [callee] false

/-- A part of a text after its first word. -/
def substring (g : Grammar) (short : Bool) : Rule Expr := parenthesised do
  let operand ← g.expr
  let commas ← symbol? ","
  let start ← given (do if commas then return true else word? "FROM") g.expr
  let length ← given (do if ← word? "FOR" then return true else symbol? ",") g.expr
  return .substring short commas operand start length

/-- A replacement in a text after its first word. -/
def overlay (g : Grammar) : Rule Expr := parenthesised do
  let operand ← g.expr
  word "PLACING"
  let what ← g.expr
  word "FROM"
  let start ← g.expr
  let length ← given (word? "FOR") g.expr
  return .overlay operand what start length

/-- A trimmed text after its first word. -/
def trimmed (g : Grammar) : Rule Expr := parenthesised do
  let side ← oneOf? ["BOTH", "LEADING", "TRAILING"]
  let first ← g.expr
  if ← word? "FROM" then return .trim side (← g.expr) (some first) []
  else if ← andThen (← allows Dialect.trimsAfterComma) (symbol? ",") then
    return .trim side first none (← g.exprs)
  else return .trim side first none []

/-- Elements between brackets, the opening one being read already. -/
def arrayElements (g : Grammar) (spelled : Bool) : Rule Expr := do
  let elements ← commaListBefore "]" g.expr
  symbol "]"
  return .array spelled elements

/-- A negation after its word. -/
def negation (g : Grammar) : Rule Expr := do
  let d ← dialect
  if ← word? "EXISTS" then existence g true
  else return .before "NOT" true (← g (.expression (d.rank .negation)))

/-- A search in columns after its first word. -/
def columnSearch : Rule Expr := do
  let columns ← columnList false false name
  word "AGAINST"
  parenthesised do
    let sought ← value
    let mode ← if ← words? ["IN", "NATURAL", "LANGUAGE", "MODE"] then do
        if ← words? ["WITH", "QUERY", "EXPANSION"] then
          pure " IN NATURAL LANGUAGE MODE WITH QUERY EXPANSION"
        else pure " IN NATURAL LANGUAGE MODE"
      else if ← words? ["IN", "BOOLEAN", "MODE"] then pure " IN BOOLEAN MODE"
      else if ← words? ["WITH", "QUERY", "EXPANSION"] then pure " WITH QUERY EXPANSION"
      else pure ""
    return .search columns (sought ++ mode)

/-- A structure after its first word. -/
def structLiteral (g : Grammar) : Rule Expr := do
  let (fields, left) ← structType g
  if left then refuse "unmatched > in STRUCT literal"
  let values ← parenthesised (commaList do
    let operand ← g.expr
    if ← word? "AS" then
      if fields.isEmpty then return .named operand (← ident)
      else refuse "Typed syntax does not allow AS"
    else return operand)
  return .struct fields values

/-- A map after its first word. -/
def mapLiteral (g : Grammar) : Rule Expr := do
  symbol "\x7b"
  let entries ← commaListBefore "\x7d" do
    let key ← g.expr
    symbol ":"
    return (⟨key, ← g.expr⟩ : Entry)
  symbol "\x7d"
  return .map entries

/-- A call of a query's rows as an array, after its word. -/
def arrayOfQuery (g : Grammar) (callee : Ident) : Rule Expr := parenthesised do
  let query ← g .query
  return .call [callee] false .absent (.query query) none none none []

/-- Reads an operand. It is given to the rule for intervals, whose value is one. -/
abbrev OperandRule := Rule Expr

/-- An interval after its word. -/
def interval (g : Grammar) (operand : OperandRule) : Rule Expr := do
  let amount ← if ← allows Dialect.intervalNeedsUnit then g.expr else operand
  return .interval amount (← optionalUnit)

/-- An expression that a word opens, the word being read already; nothing, if the word
opens none. -/
def specialWord (g : Grammar) (operand : OperandRule) (w : Ident) (keyword : String) :
    Rule (Option Expr) := do
  let setting ← read
  let d := setting.dialect
  let opens := (← peek).token
  let give := fun (rule : Rule Expr) => do return some (← rule)
  let when := fun (condition : Bool) (rule : Rule Expr) =>
    if condition then give rule else return none
  match keyword with
  | "TRUE" => when d.hasBooleans (return .literal "true")
  | "FALSE" => when d.hasBooleans (return .literal "false")
  | "NULL" => give (return .literal "NULL")
  | "CURRENT_CATALOG" | "CURRENT_USER" | "SESSION_USER" | "USER" =>
    when d.hasUserFunctions (return bareCall w)
  | "CURRENT_TIMESTAMP" | "CURRENT_TIME" | "CURRENT_DATE" | "LOCALTIME" | "LOCALTIMESTAMP" =>
    give (timeCall g w)
  | "CASE" => give (caseBranches g)
  | "CONVERT" => give (convert g false)
  | "TRY_CONVERT" => when d.hasTryConvert (convert g true)
  | "CAST" => give (cast g .cast)
  | "TRY_CAST" => give (cast g .tryCast)
  | "SAFE_CAST" => give (cast g .safeCast)
  | "EXISTS" => give (existence g false)
  | "EXTRACT" => give (extraction g)
  | "CEIL" => give (rounding g "CEIL")
  | "FLOOR" => give (rounding g "FLOOR")
  | "POSITION" => when (opens == .symbol "(") (positionOf g w)
  | "SUBSTR" => give (substring g true)
  | "SUBSTRING" => give (substring g false)
  | "OVERLAY" => give (overlay g)
  | "TRIM" => give (trimmed g)
  | "INTERVAL" => give (interval g operand)
  | "ARRAY" =>
    if opens == .symbol "[" then give do
      symbol "["
      arrayElements g true
    else when (opens == .symbol "(") (arrayOfQuery g w)
  | "NOT" => give (negation g)
  | "MATCH" => when d.hasFullTextSearch columnSearch
  | "STRUCT" => when d.hasStructures (structLiteral g)
  | "PRIOR" => when (setting.surrounding == .hierarchy) do
    return .prior (← g (.expression (d.rank .sum)))
  | "MAP" => when (d.hasStructures && opens == .symbol "\x7b") (mapLiteral g)
  | "CIRCLE" | "BOX" | "PATH" | "LINE" | "LSEG" | "POINT" | "POLYGON" =>
    when d.hasGeometry do return .typed (keyword ++ " " ++ quoted '\'' (← string))
  | _ => return none

/-- A word that opens no special syntax: a call, a string with a character set, or a
name. -/
def plainWord (g : Grammar) (w : Ident) : Rule Expr := do
  let introduces := w.value.startsWith "_"
  let introduced := fun (form : TextForm) (content : String) => do
    let _ ← next
    return Expr.introduced w (.literal (literalText form content))
  match (← peek).token with
  | .symbol "(" =>
    if ← seesOuterMark then return .name w else callOf g [w] false
  | .text .single content => if introduces then introduced .single content else return .name w
  | .text .double content => if introduces then introduced .double content else return .name w
  | .text .hex content => if introduces then introduced .hex content else return .name w
  | _ => return .name w

/-- An operand that starts with a word, which is read already. -/
def wordOperand (g : Grammar) (operand : OperandRule) (w : Ident) (keyword : String) :
    Rule Expr := do
  match ← outcome (specialWord g operand w keyword) with
  | .ok (some result) => return result
  | .ok none => plainWord g w
  | .error error =>
    if (← dialect).reservesWord keyword then fail error
    else match ← outcome (plainWord g w) with
      | .ok result => return result
      | .error _ => fail error

/-- A literal after its type. -/
def typedLiteral (g : Grammar) (operand : OperandRule) : Rule Expr := do
  let type ← g.type
  match type.kind with
  | .interval => interval g operand
  | .custom => expected "dummy"
  | .ordinary => return .typed (type.text ++ " " ++ (← value))

/-- What stands in parentheses: a nested query, one expression, or several. -/
def inParentheses (g : Grammar) : Rule Expr := parenthesised do
  if ← seesQuery then nestedQuery g
  else
    match ← g.exprs with
    | [only] => return .nested only
    | several => return .tuple several

/-- What stands in braces: a call, a literal with its type, or a dictionary. -/
def inBraces (g : Grammar) : Rule Expr := do
  let brace ← peek
  symbol "\x7b"
  let called ← attempt do
    word "FN"
    callOf g (← name) true
  let typed ← match called with
    | some result => pure (some result)
    | none => attempt do
      let found ← peek
      let type := match found.token.shown with
        | "d" => some "d"
        | "t" => some "t"
        | "ts" => some "ts"
        | _ => none
      match type with
      | some spelling => do
        let _ ← next
        return Expr.typed ("\x7b" ++ spelling ++ " " ++ (← value) ++ "\x7d")
      | none => expected "ODBC datetime keyword (t, d, or ts)"
  match typed with
  | some result => do
    symbol "\x7d"
    return result
  | none =>
    if ← allows Dialect.hasStructures then
      let members ← commaListBefore "\x7d" do
        let key ← ident
        symbol ":"
        return (⟨key, ← g.expr⟩ : Member)
      symbol "\x7d"
      return .dictionary members
    else fail (.expected "an expression" brace)

/-- An operand without what is taken from it. The operand of an interval is one
again, which the budget bounds: each takes a word. -/
def operandWithin (g : Grammar) : Nat → Rule Expr
  | 0 => expected "an expression"
  | budget + 1 => do
    let d ← dialect
    let nested := operandWithin g budget
    match ← attempt (typedLiteral g nested) with
    | some result => return result
    | none => do
    let found ← peek
    let unary := fun (operator : String) (strength : Dialect.Strength) (spaced : Bool) => do
      let _ ← next
      return Expr.before operator spaced (← g (.expression (d.rank strength)))
    match found.token with
    | .word content quote => do
      let _ ← next
      wordOperand g nested ⟨content, quote⟩ found.token.keyword
    | .symbol "[" => do
      symbol "["
      arrayElements g false
    | .symbol "-" => unary "-" .product false
    | .symbol "+" => unary "+" .product false
    | .symbol "~" => unary "~" .sum false
    | .symbol "(" => inParentheses g
    | .symbol "\x7b" => inBraces g
    | .symbol ":" => return .literal (← value)
    | .symbol "@" =>
      if d == .postgresql then unary "@" .sum false else return .literal (← value)
    | .symbol spelling =>
      if d == .postgresql && ["!!", "|/", "||/"].contains spelling then unary spelling .sum false
      else if d.hasGeometry && ["#", "@-@", "@@", "?-", "?|"].contains spelling then
        unary spelling .sum true
      else expected "an expression"
    | .text .escaped _ => do
      if d.hasEscapeStrings then return .literal (← value) else expected "an expression"
    | .text _ _ => return .literal (← value)
    | .dollarText _ _ => return .literal (← value)
    | .number _ _ => return .literal (← value)
    | .parameter _ => return .literal (← value)
    | _ => expected "an expression"

/-- An operand without what is taken from it. -/
def operand (g : Grammar) : Rule Expr := do operandWithin g ((← get).length + 1)

/-! What may follow an operand. -/

/-- The list, query or array after `IN`. -/
def membership (g : Grammar) (left : Expr) (negated : Bool) : Rule Expr := do
  if ← word? "UNNEST" then
    return .inUnnest left negated (← parenthesised g.expr)
  else parenthesised do
    match ← attempt (g .query) with
    | some query => return .inSubquery left negated query
    | none =>
      let items ← if ← allows Dialect.allowsEmptyInList then commaListBefore ")" g.expr
        else g.exprs
      return .inList left negated items

/-- The character that escapes a wildcard in a pattern. -/
def escapeCharacter : Rule (Option String) := given (word? "ESCAPE") value

/-- The pattern after a matching operator. -/
def pattern (g : Grammar) (left : Expr) (operator : LikeOperator) (negated : Bool) :
    Rule Expr := do
  let d ← dialect
  let any ← match operator with
    | .like => word? "ANY"
    | .ilike => word? "ANY"
    | _ => pure false
  let right ← g (.expression (d.rank .like))
  let escape ← match operator with
    | .rlike => pure none
    | .regexp => pure none
    | _ => escapeCharacter
  return .like left negated operator any right escape

/-- The bounds of a range. -/
def range (g : Grammar) (left : Expr) (negated : Bool) : Rule Expr := do
  let d ← dialect
  let low ← g (.expression (d.rank .between))
  word "AND"
  let high ← g (.expression (d.rank .between))
  return .between left negated low high

/-- What may follow `IS`. -/
def tested (g : Grammar) (left : Expr) : Rule Expr := do
  let test := fun (text : String) => Expr.test left ("IS " ++ text)
  let simple := [["NULL"], ["NOT", "NULL"], ["TRUE"], ["NOT", "TRUE"], ["FALSE"],
    ["NOT", "FALSE"], ["UNKNOWN"], ["NOT", "UNKNOWN"]]
  let ahead := (← get).map (·.token.keyword)
  match simple.find? (fun keywords => ahead.take keywords.length == keywords) with
  | some keywords => do
    let _ ← words? keywords
    return test (String.intercalate " " keywords)
  | none =>
    if ← words? ["DISTINCT", "FROM"] then
      return .distinctFrom left false (← g.expr)
    else if ← words? ["NOT", "DISTINCT", "FROM"] then
      return .distinctFrom left true (← g.expr)
    else
      let negated ← word? "NOT"
      let form ← oneOf? ["NFC", "NFD", "NFKC", "NFKD"]
      if ← word? "NORMALIZED" then
        return test (wordsIf negated "NOT "
          ++ (match form with
            | some f => f ++ " "
            | none => "") ++ "NORMALIZED")
      else expected "[NOT] NULL | TRUE | FALSE | DISTINCT | [form] NORMALIZED FROM after IS"

/-- The right side of an operator, or a quantified one. -/
def rightSide (g : Grammar) (left : Expr) (operator : String) (rank : Nat)
    (number : Option Nat) : Rule Expr := do
  match ← oneOf? ["ANY", "ALL", "SOME"] with
  | none => return .binary left operator (← g (.expression rank))
  | some keyword => do
    let quantifier : Quantifier := match keyword with
      | "ALL" => .all
      | "ANY" => .any
      | _ => .some
    if !(← seesSymbol "(") then expected "("
    let queryAhead := ["SELECT", "WITH"].contains (← peekAt 1).token.keyword
    let right ← if queryAhead then g (.expression rank)
      else parenthesised (g (.expression rank))
    if !comparisons.contains operator then
      fail (.refused ("Expected one of [=, >, <, =>, =<, !=, ~, ~*, !~, !~*, ~~, ~~*, !~~, !~~*] "
        ++ "as comparison operator, found: " ++ operator) number)
    let bare := match right with
      | .subquery _ => true
      | _ => false
    return .quantified left operator quantifier (!bare) right

/-- An operator written with its schema, after its word. -/
def namedOperator : Rule String := do
  symbol "("
  let part : Rule String := do return (← next).token.shown
  let parts ← listWithin part (symbol? ".") ((← get).length + 1)
  symbol ")"
  return "OPERATOR(" ++ String.intercalate "." parts ++ ")"

/-- One more operator behind an expression, which ranks as given. -/
def continuation (g : Grammar) (left : Expr) (rank : Nat) : Rule Expr := do
  let d ← dialect
  let found ← peek
  let keyword := found.token.keyword
  let own : Option String := match d, keyword with
    | .mysql, "DIV" => some "DIV"
    | .sqlite, "REGEXP" => some "REGEXP"
    | .sqlite, "MATCH" => some "MATCH"
    | _, _ => none
  match own, d.binaryOperator found.token with
  | some operator, _ => do
    let _ ← next
    return .binary left operator (← g.expr)
  | none, some operator => do
    let _ ← next
    rightSide g left operator rank found.number
  | none, none => do
    let _ ← next
    match found.token with
    | .symbol "::" => return .cast .doubleColon left (← g.type).text none
    | .symbol "!" =>
      if d == .postgresql then return .behind left "!"
      else fail (.noOperator found)
    | _ =>
      match keyword with
      | "OPERATOR" =>
        if d.hasNamedOperators then rightSide g left (← namedOperator) rank found.number
        else fail (.noOperator found)
      | "IS" => tested g left
      | "AT" => do
        words ["TIME", "ZONE"]
        return .atTimeZone left (← g (.expression rank))
      | "COLLATE" => return .collate left (← name)
      | "NOTNULL" => return .test left "IS NOT NULL"
      | "MEMBER" =>
        if ← word? "OF" then return .memberOf left (← parenthesised g.expr)
        else expected "OF after MEMBER"
      | _ =>
        if !(["NOT", "IN", "BETWEEN", "LIKE", "ILIKE", "SIMILAR", "REGEXP", "RLIKE"].contains
            keyword) then fail (.noOperator found)
        let negated := keyword == "NOT"
        let operatorToken ← if negated then peek else pure found
        let operator := operatorToken.token.keyword
        if negated then
          let _ ← oneOf? ["NULL", "IN", "BETWEEN", "LIKE", "ILIKE", "SIMILAR", "REGEXP", "RLIKE"]
        match operator with
        | "REGEXP" => pattern g left .regexp negated
        | "RLIKE" => pattern g left .rlike negated
        | "NULL" => return .test left "IS NOT NULL"
        | "IN" => membership g left negated
        | "BETWEEN" => range g left negated
        | "LIKE" => pattern g left .like negated
        | "ILIKE" => pattern g left .ilike negated
        | "SIMILAR" => do
          if ← word? "TO" then pattern g left .similarTo negated
          else fail (.expected "IN or BETWEEN after NOT" operatorToken)
        | _ => expected "IN or BETWEEN after NOT"

/-- Operators for as long as they bind tighter than `rank`. Each takes a token. -/
def continuations (g : Grammar) (rank : Nat) : Nat → Expr → Rule Expr
  | 0, left => return left
  | budget + 1, left => do
    let ahead ← rankAhead
    if ahead ≤ rank || (← seesSymbol ".") then return left
    else continuations g rank budget (← continuation g left ahead)

/-- An expression whose operators all bind tighter than `rank`. -/
def expression (g : Grammar) (rank : Nat) : Rule Expr := deeper do
  let first ← operand g
  let whole ← compound g first
  continuations g rank ((← get).length + 1) whole

end Rule
end TableAccess.Sql
