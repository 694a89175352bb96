import TableAccess.Sql.Grammar.Expression

/-! Sources of rows and their joins. A parenthesis may open a nested query or a group of
joined tables; it is first read as a query. What a source says about sampling, hints,
columns of a document or rows turned into columns is kept as text. -/
namespace TableAccess.Sql
/-- The name that a source already has. -/
def Relation.aliasOf : Relation → Option Alias
  | .table _ _ aliasName _ => aliasName
  | .derived _ _ aliasName => aliasName
  | .nested _ aliasName => aliasName
  | .unnest _ _ aliasName _ => aliasName
  | .tableFunction _ aliasName => aliasName
  | .other _ aliasName => aliasName

/-- A source under a name. -/
def Relation.withAlias (aliasName : Option Alias) : Relation → Relation
  | .table name before _ after => .table name before aliasName after
  | .derived isLateral query _ => .derived isLateral query aliasName
  | .nested joined _ => .nested joined aliasName
  | .unnest arrays ordinality _ offset => .unnest arrays ordinality aliasName offset
  | .tableFunction call _ => .tableFunction call aliasName
  | .other text _ => .other text aliasName

namespace Rule

/-- What ties a join together, with the condition where it is one. -/
def joinTie (g : Grammar) (natural : Bool) : Rule (JoinTie × Option Expr) := do
  if natural then return (.natural, none)
  else if ← word? "ON" then return (.on, some (← g.expr))
  else if ← word? "USING" then return (.shared (← columnList false false name), none)
  else return (.free, none)

/-- The kind of an ordinary join with its words, if one comes next. -/
def joinWords (natural : Bool) : Rule (Option String) := do
  match ← peekWord with
  | "INNER" => do
    words ["INNER", "JOIN"]
    return some "INNER JOIN"
  | "JOIN" => do
    word "JOIN"
    return some "JOIN"
  | "LEFT" => sided "LEFT"
  | "RIGHT" => sided "RIGHT"
  | "ANTI" => do
    words ["ANTI", "JOIN"]
    return some "ANTI JOIN"
  | "SEMI" => do
    words ["SEMI", "JOIN"]
    return some "SEMI JOIN"
  | "FULL" => do
    word "FULL"
    let _ ← word? "OUTER"
    word "JOIN"
    return some "FULL JOIN"
  | "OUTER" => expected "LEFT, RIGHT, or FULL"
  | "STRAIGHT_JOIN" => do
    word "STRAIGHT_JOIN"
    return some "STRAIGHT_JOIN"
  | _ => if natural then expected "a join type after NATURAL" else return none
where
  /-- A join that keeps the rows of one side. -/
  sided (side : String) : Rule (Option String) := do
    word side
    match ← oneOf? ["OUTER", "SEMI", "ANTI", "JOIN"] with
    | some "JOIN" => return some (side ++ " JOIN")
    | some kind => do
      word "JOIN"
      return some (side ++ " " ++ kind ++ " JOIN")
    | none => fail (.refused ("expected OUTER, SEMI, ANTI or JOIN after " ++ side) none)

/-- A further join, if one comes next. -/
def join (g : Grammar) : Rule (Option Join) := do
  let isGlobal ← word? "GLOBAL"
  let spell := fun (text : String) => wordsIf isGlobal "GLOBAL " ++ text
  if ← word? "CROSS" then
    if ← word? "JOIN" then
      let relation ← g .relation
      let (tie, condition) ← if ← allows Dialect.crossJoinsOn then joinTie g false
        else pure (.free, none)
      return some ⟨spell "CROSS JOIN", relation, none, tie, condition⟩
    else if ← word? "APPLY" then
      return some ⟨spell "CROSS APPLY", ← g .relation, none, .free, none⟩
    else expected "JOIN or APPLY after CROSS"
  else if ← word? "OUTER" then
    word "APPLY"
    return some ⟨spell "OUTER APPLY", ← g .relation, none, .free, none⟩
  else if ← word? "ASOF" then
    word "JOIN"
    let relation ← g .relation
    word "MATCH_CONDITION"
    let matching ← parenthesised g.expr
    let (tie, condition) ← joinTie g false
    return some ⟨spell "ASOF JOIN", relation, some matching, tie, condition⟩
  else
    let natural ← word? "NATURAL"
    match ← joinWords natural with
    | none => return none
    | some kind => do
      let relation ← g .relation
      let (tie, condition) ← joinTie g natural
      return some ⟨spell kind, relation, none, tie, condition⟩

/-- A source with the joins that follow it. -/
def joinedTable (g : Grammar) : Rule JoinedTable := do
  let relation ← g .relation
  return ⟨relation, ← many (join g)⟩

/-- A nested query as a source, after its opening parenthesis. -/
def derivedTable (g : Grammar) (isLateral : Bool) : Rule Relation := do
  let query ← g .query
  symbol ")"
  return .derived isLateral query (← tableAlias g)

/-- Arguments of a call as a source, after their opening parenthesis. -/
def sourceArguments (g : Grammar) : Rule (List Expr) := do
  let arguments ← commaListBefore ")" (argument g)
  symbol ")"
  return arguments

/-- A call in a list of calls, with an alias. -/
def aliasedCall (g : Grammar) : Rule String := do
  let callee ← name
  let call ← callOf g callee false
  let aliasName ← if ← word? "AS" then do pure (some (← ident)) else do
    let d ← dialect
    optionalAlias fun w => d.namesItem w && w != "FOR"
  return call.text ++ (match aliasName with
    | some a => " AS " ++ a.text
    | none => "")

/-- An expression with an alias. -/
def aliasedExpr (g : Grammar) : Rule String := do
  let e ← g.expr
  let aliasName ← given (word? "AS") ident
  return e.text ++ (match aliasName with
    | some a => " AS " ++ a.text
    | none => "")

/-- Rows turned into columns. -/
def pivot (g : Grammar) (source : Relation) : Rule Relation := do
  let d ← dialect
  symbol "("
  let calls ← commaList (aliasedCall g)
  word "FOR"
  let column := g (.expression (d.rank .between))
  let columns ← if ← seesSymbol "(" then columnList false false column else do pure [← column]
  word "IN"
  symbol "("
  let values ← if ← word? "ANY" then do
      let keys ← givenList (words? ["ORDER", "BY"]) (sortKeys g)
      pure ("ANY" ++ (if keys.isEmpty then "" else " ORDER BY " ++ commas (Expr.texts keys)))
    else if ← seesQuery then do pure (← g .query).text
    else do pure (commas (← commaList (aliasedExpr g)))
  symbol ")"
  let default ← if ← words? ["DEFAULT", "ON", "NULL"] then do
      pure (" DEFAULT ON NULL (" ++ (← parenthesised g.expr).text ++ ")")
    else pure ""
  symbol ")"
  let columnText := match columns with
    | [only] => only.text
    | several => "(" ++ commas (Expr.texts several) ++ ")"
  return .other (source.text ++ " PIVOT(" ++ commas calls ++ " FOR " ++ columnText ++ " IN ("
    ++ values ++ ")" ++ default ++ ")") (← tableAlias g)

/-- Columns turned into rows. -/
def unpivot (g : Grammar) (source : Relation) : Rule Relation := do
  let nulls ← if ← words? ["INCLUDE", "NULLS"] then pure " INCLUDE NULLS"
    else if ← words? ["EXCLUDE", "NULLS"] then pure " EXCLUDE NULLS"
    else pure ""
  symbol "("
  let amount ← g.expr
  word "FOR"
  let column ← ident
  word "IN"
  let columns ← columnList false false (aliasedExpr g)
  symbol ")"
  return .other (source.text ++ " UNPIVOT" ++ nulls ++ "(" ++ amount.text ++ " FOR " ++ column.text
    ++ " IN (" ++ commas columns ++ "))") (← tableAlias g)

/-- Rows and columns exchanged, as often as asked for. -/
def turnedWithin (g : Grammar) : Nat → Relation → Rule Relation
  | 0, source => return source
  | budget + 1, source => do
    match ← oneOf? ["PIVOT", "UNPIVOT"] with
    | some "PIVOT" => turnedWithin g budget (← pivot g source)
    | some _ => turnedWithin g budget (← unpivot g source)
    | none => return source

/-- Rows and columns exchanged, as often as asked for. -/
def turned (g : Grammar) (source : Relation) : Rule Relation := do
  turnedWithin g ((← get).length + 1) source

/-- Tokens up to the parenthesis that closes what is open. -/
def skipBalanced : Nat → Nat → Rule Unit
  | 0, _ => return ()
  | budget + 1, depth => do
    match (← peek).token with
    | .finish => return ()
    | .symbol "(" => do
      let _ ← next
      skipBalanced budget (depth + 1)
    | .symbol ")" =>
      if depth == 0 then return ()
      else
        let _ ← next
        skipBalanced budget (depth - 1)
    | _ => do
      let _ ← next
      skipBalanced budget depth

/-- Patterns of rows recognised in a source. -/
def recognised (g : Grammar) (source : Relation) : Rule Relation := do
  symbol "("
  let _ ← givenList (words? ["PARTITION", "BY"]) g.exprs
  let _ ← givenList (words? ["ORDER", "BY"]) (sortKeys g)
  if ← word? "MEASURES" then
    let _ ← commaList do
      let _ ← g.expr
      let _ ← word? "AS"
      ident
  if ← words? ["ONE", "ROW", "PER", "MATCH"] then pure ()
  else if ← words? ["ALL", "ROWS", "PER", "MATCH"] then
    if ← words? ["SHOW", "EMPTY", "MATCHES"] then pure ()
    else if ← words? ["OMIT", "EMPTY", "MATCHES"] then pure ()
    else
      let _ ← words? ["WITH", "UNMATCHED", "ROWS"]
  if ← words? ["AFTER", "MATCH", "SKIP"] then
    if ← words? ["PAST", "LAST", "ROW"] then pure ()
    else if ← words? ["TO", "NEXT", "ROW"] then pure ()
    else if ← words? ["TO", "FIRST"] then let _ ← ident
    else if ← words? ["TO", "LAST"] then let _ ← ident
    else expected "after match skip option"
  word "PATTERN"
  symbol "("
  skipBalanced ((← get).length + 1) 0
  symbol ")"
  word "DEFINE"
  let _ ← commaList do
    let _ ← ident
    word "AS"
    g.expr
  symbol ")"
  return .other (source.text ++ " MATCH_RECOGNIZE") (← tableAlias g)

/-- A sample of a table, after its words. -/
def sample (g : Grammar) : Rule (Option String) := do
  match ← oneOf? ["TABLESAMPLE", "SAMPLE"] with
  | none => return none
  | some modifier => do
    let method ← oneOf? ["BERNOULLI", "ROW", "SYSTEM", "BLOCK"]
    let enclosed ← symbol? "("
    let amount ← if ← andThen enclosed (word? "BUCKET") then do
        let bucket ← number
        words ["OUT", "OF"]
        let total ← number
        let key ← given (word? "ON") g.expr
        pure ("BUCKET " ++ bucket ++ " OUT OF " ++ total ++ (match key with
          | some e => " ON " ++ e.text
          | none => ""))
      else do
        let count ← match ← attempt g.expr with
          | some e => pure e.text
          | none => string
        let unit ← oneOf? ["ROWS", "PERCENT"]
        pure (count ++ afterBlank (unit.getD ""))
    if enclosed then symbol ")"
    let seed ← match ← oneOf? ["REPEATABLE", "SEED"] with
      | some keyword => do pure (" " ++ keyword ++ " (" ++ (← parenthesised number) ++ ")")
      | none => pure ""
    let offset ← if ← word? "OFFSET" then do pure (" OFFSET " ++ (← g.expr).text) else pure ""
    return some (modifier ++ afterBlank (method.getD "") ++ " "
      ++ (if enclosed then "(" ++ amount ++ ")" else amount) ++ seed ++ offset)

/-- One suggestion of indexes. -/
def indexHint : Rule (Option String) := do
  match ← oneOf? ["USE", "IGNORE", "FORCE"] with
  | none => return none
  | some advice => do
    let kind ← match ← oneOf? ["INDEX", "KEY"] with
      | some kind => pure kind
      | none => expected "expected to match INDEX/KEY keyword"
    let purpose ← if ← word? "FOR" then
        if ← word? "JOIN" then pure "FOR JOIN "
        else if ← words? ["ORDER", "BY"] then pure "FOR ORDER BY "
        else if ← words? ["GROUP", "BY"] then pure "FOR GROUP BY "
        else expected "expected to match FOR/ORDER BY/GROUP BY table hint in for clause"
      else pure ""
    symbol "("
    let indexes ← commaListBefore ")" ident
    symbol ")"
    return some (advice ++ " " ++ kind ++ " " ++ purpose ++ "("
      ++ commas (indexes.map Ident.text) ++ ")")

/-- A plain table, or a call of a function that gives rows. -/
def plainTable (g : Grammar) : Rule Relation := do
  let d ← dialect
  let tableName ← name
  let partitions ← if ← andThen d.selectsPartitions (word? "PARTITION") then do
      pure ("PARTITION (" ++ commas ((← parenthesised idents).map Ident.text) ++ ")")
    else pure ""
  let versioned ← andThen d.readsVersions (words? ["FOR", "SYSTEM_TIME", "AS", "OF"])
  let version ← if versioned then do
      pure (" FOR SYSTEM_TIME AS OF " ++ (← g.expr).text)
    else pure ""
  let arguments ← if ← symbol? "(" then do
      pure ("(" ++ commas (Expr.texts (← sourceArguments g)) ++ ")")
    else pure ""
  let ordinality ← words? ["WITH", "ORDINALITY"]
  let aliasName ← tableAlias g
  let indexes ← if d.hintsIndexes then do
      pure ((← attempt (many indexHint)).getD [])
    else pure []
  let hints ← if (← peekWord) == "WITH" && (← peekAt 1).token == .symbol "(" then do
      word "WITH"
      pure (" WITH (" ++ commas (Expr.texts (← parenthesised g.exprs)) ++ ")")
    else pure ""
  let sampled ← sample g
  let before := partitions ++ arguments ++ wordsIf ordinality " WITH ORDINALITY"
  let after := String.join (indexes.map (" " ++ ·)) ++ hints ++ version
    ++ afterBlank (sampled.getD "")
  let table ← turned g (.table tableName before aliasName after)
  if ← andThen d.recognisesRows (word? "MATCH_RECOGNIZE") then recognised g table
  else return table

/-- A column of a document read as a table. -/
def documentColumn (g : Grammar) : Nat → Rule Unit
  | 0 => expected "identifier"
  | budget + 1 => do
    if ← word? "NESTED" then
      let _ ← word? "PATH"
      let _ ← value
      word "COLUMNS"
      let _ ← parenthesised (commaList (documentColumn g budget))
    else
      let _ ← ident
      if ← word? "FOR" then word "ORDINALITY"
      else
        let _ ← g.type
        let _ ← word? "EXISTS"
        word "PATH"
        let _ ← value
        let handling : Rule (Option Unit) := do
          if ← word? "NULL" then pure ()
          else if ← word? "ERROR" then pure ()
          else if ← word? "DEFAULT" then let _ ← value
          else return none
          word "ON"
          if ← word? "EMPTY" then return some ()
          else
            word "ERROR"
            return some ()
        let _ ← many handling

/-- A JSON document read as a table, after its opening parenthesis. -/
def jsonTable (g : Grammar) : Rule Relation := do
  let document ← g.expr
  symbol ","
  let _ ← value
  word "COLUMNS"
  symbol "("
  let _ ← commaList (documentColumn g ((← get).length + 1))
  symbol ")"
  symbol ")"
  return .other ("JSON_TABLE(" ++ document.text ++ ")") (← tableAlias g)

/-- A JSON document opened as a table, after its opening parenthesis. -/
def openedJson (g : Grammar) : Rule Relation := do
  let document ← g.expr
  let path ← if ← symbol? "," then do pure (", " ++ (← value)) else pure ""
  symbol ")"
  let columns ← if ← word? "WITH" then do
      let columns ← parenthesised (commaList do
        let column ← ident
        let type ← g.type
        let path ← match (← peek).token with
          | .text .single _ => do pure (" " ++ (← value))
          | _ => pure ""
        let asJson ← words? ["AS", "JSON"]
        return column.text ++ " " ++ type.text ++ path ++ wordsIf asJson " AS JSON")
      pure (" WITH (" ++ commas columns ++ ")")
    else pure ""
  return .other ("OPENJSON(" ++ document.text ++ path ++ ")" ++ columns) (← tableAlias g)

/-- An XML document read as a table, after its opening parenthesis. -/
def xmlTable (g : Grammar) : Rule Relation := do
  if ← word? "XMLNAMESPACES" then
    let _ ← parenthesised (commaList do
      let _ ← g.expr
      word "AS"
      ident)
    symbol ","
  let document ← g.expr
  if ← word? "PASSING" then
    let _ ← commaList do
      let _ ← words? ["BY", "VALUE"]
      let _ ← g.expr
      given (word? "AS") ident
  word "COLUMNS"
  let _ ← commaList do
    let _ ← ident
    if ← word? "FOR" then word "ORDINALITY"
    else
      let _ ← g.type
      let _ ← given (word? "PATH") g.expr
      let _ ← given (word? "DEFAULT") g.expr
      if ← words? ["NOT", "NULL"] then pure ()
      else let _ ← word? "NULL"
  symbol ")"
  return .other ("XMLTABLE(" ++ document.text ++ ")") (← tableAlias g)

/-- Arrays unfolded into rows, after their word. -/
def unnested (g : Grammar) : Rule Relation := do
  let d ← dialect
  let arrays ← parenthesised g.exprs
  let ordinality ← words? ["WITH", "ORDINALITY"]
  let aliasName ← tableAlias g
  let offset ← if ← words? ["WITH", "OFFSET"] then do
      match ← optionalAlias d.namesItem with
      | some i => pure (" WITH OFFSET AS " ++ i.text)
      | none => pure " WITH OFFSET"
    else pure ""
  return .unnest arrays ordinality aliasName offset

/-- Rows of expressions, after their word. -/
def valueRows (g : Grammar) (allowsEmpty : Bool) : Rule (Bool × List (List Expr)) := do
  let rows ← commaList do
    let spelled ← word? "ROW"
    symbol "("
    let cells ← if allowsEmpty then commaListBefore ")" g.exprs else do pure [← g.exprs]
    symbol ")"
    return (spelled, cells.flatten)
  return (rows.any Prod.fst, rows.map Prod.snd)

/-- The body that rows of expressions make. -/
def valuesBody (keyword : String) (rows : Bool × List (List Expr)) : Body :=
  .values keyword (wordsIf rows.1 "ROW") (rows.2.map List.length) rows.2.flatten

/-- What stands in parentheses as a source. -/
def enclosedSource (g : Grammar) : Rule Relation := do
  match ← attempt (derivedTable g false) with
  | some derived => turned g derived
  | none => do
    let joined ← g .joinedTable
    let isNested := match joined.relation with
      | .nested _ _ => true
      | _ => false
    if !joined.joins.isEmpty || isNested then
      symbol ")"
      return .nested joined (← tableAlias g)
    else if ← allows Dialect.parenthesisesSources then
      symbol ")"
      match ← tableAlias g, joined.relation.aliasOf with
      | some _, some inner => fail (.refused ("duplicate alias " ++ inner.text) none)
      | some outer, none => return joined.relation.withAlias (some outer)
      | none, _ => return joined.relation
    else expected "joined table"

/-- A source of rows without joins. -/
def relation (g : Grammar) : Rule Relation := do
  let d ← dialect
  let opening := (← peekAt 1).token == .symbol "("
  if ← word? "LATERAL" then
    if ← symbol? "(" then derivedTable g true
    else
      let callee ← name
      symbol "("
      let arguments ← sourceArguments g
      return .other ("LATERAL " ++ Name.text callee ++ "(" ++ commas (Expr.texts arguments) ++ ")")
        (← tableAlias g)
  else if ← word? "TABLE" then
    let call ← parenthesised g.expr
    return .tableFunction call (← tableAlias g)
  else if ← symbol? "(" then enclosedSource g
  else if ← andThen (d.hasValuesSource && opening) (word? "VALUES") then
    let body := valuesBody "VALUES" (← valueRows g false)
    return .derived false ⟨false, [], body, .unordered, [], .unlimited, [], ""⟩ (← tableAlias g)
  else if ← andThen d.unnests (word? "UNNEST") then unnested g
  else
    match opening, ← peekWord with
    | true, "JSON_TABLE" => do
      set ((← get).drop 2)
      jsonTable g
    | true, "OPENJSON" => do
      set ((← get).drop 2)
      openedJson g
    | true, "XMLTABLE" => do
      set ((← get).drop 2)
      xmlTable g
    | _, _ => plainTable g

end Rule
end TableAccess.Sql
