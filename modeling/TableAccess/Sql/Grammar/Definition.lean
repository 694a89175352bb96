import TableAccess.Sql.Grammar.Query

/-! Definitions of tables. Of the columns only the names are kept: their types, options
and constraints are read for their extent, as are the options of the table itself. -/
namespace TableAccess.Sql
namespace Rule

/-! Parts that several constraints share. -/

/-- When a constraint is checked. -/
def constraintTiming : Rule Unit := do
  let _ ← many do
    if ← words? ["NOT", "DEFERRABLE"] then return some ()
    else if ← word? "DEFERRABLE" then return some ()
    else if ← word? "INITIALLY" then
      if (← oneOf? ["DEFERRED", "IMMEDIATE"]).isSome then return some ()
      else expected "one of DEFERRED or IMMEDIATE"
    else if ← words? ["NOT", "ENFORCED"] then return some ()
    else given (word? "ENFORCED") (pure ())

/-- What happens to the rows that refer to a changed one. -/
def referentialAction : Rule Unit := do
  if ← word? "RESTRICT" then return ()
  else if ← word? "CASCADE" then return ()
  else if ← words? ["SET", "NULL"] then return ()
  else if ← words? ["NO", "ACTION"] then return ()
  else if ← words? ["SET", "DEFAULT"] then return ()
  else expected "one of RESTRICT, CASCADE, SET NULL, NO ACTION or SET DEFAULT"

/-- A reference to another table, after its word. -/
def reference : Rule Unit := do
  let _ ← name
  let _ ← columnList true false ident
  let _ ← many do
    if ← words? ["ON", "DELETE"] then return some (← referentialAction)
    else given (words? ["ON", "UPDATE"]) referentialAction
  constraintTiming

/-- A condition on the values of a row, after its word. -/
def check (g : Grammar) : Rule Unit := do
  let _ ← parenthesised (inside .ordinary g.expr)
  if !(← words? ["NOT", "ENFORCED"]) then
    let _ ← word? "ENFORCED"

/-- A string, where one follows. -/
def literalString : Rule Unit := do
  match (← peek).token with
  | .text .single _ => do
    let _ ← next
  | _ => expected "string"

/-- The kind of an index. -/
def indexMethod : Rule Unit := do
  if ← word? "USING" then
    let _ ← ident

/-- The keys of an index, in parentheses. -/
def indexKeys (g : Grammar) : Rule Unit := do
  let _ ← columnList false false do
    let _ ← g.expr
    if !(["ASC", "DESC", "NULLS", "WITH"].contains (← peekWord)) then
      let _ ← attempt ident
    direction

/-- The options of an index. -/
def indexOptions : Rule Unit := do
  let _ ← many do
    if ← word? "COMMENT" then return some (← literalString)
    else if ← seesWord "USING" then return some (← indexMethod)
    else return none

/-- The name, kind, keys and options of an index. -/
def indexBody (g : Grammar) : Rule Unit := do
  let _ ← attempt ident
  indexMethod
  indexKeys g
  indexOptions

/-! Constraints of a table. -/

/-- A constraint of a table, if one comes next. -/
def tableConstraint (g : Grammar) : Rule (Option Unit) := do
  let d ← dialect
  let constraintName ← given (word? "CONSTRAINT") ident
  let found ← peek
  let isNamed := constraintName.isSome
  match found.token.keyword with
  | "UNIQUE" => do
    let _ ← next
    if (← oneOf? ["KEY", "INDEX"]).isSome && !d.declaresIndexes then
      expected "\x60index_name\x60 or \x60(column_name [, ...])\x60"
    if ← word? "NULLS" then
      let _ ← word? "NOT"
      word "DISTINCT"
    indexBody g
    return some (← constraintTiming)
  | "PRIMARY" => do
    words ["PRIMARY", "KEY"]
    indexBody g
    return some (← constraintTiming)
  | "FOREIGN" => do
    words ["FOREIGN", "KEY"]
    let _ ← attempt ident
    let _ ← columnList false false ident
    word "REFERENCES"
    return some (← reference)
  | "CHECK" => do
    let _ ← next
    return some (← check g)
  | keyword =>
    if d.declaresIndexes && !isNamed && ["INDEX", "KEY"].contains keyword then
      let _ ← next
      if !(← seesWord "USING") then
        let _ ← attempt ident
      indexMethod
      indexKeys g
      return some (← indexOptions)
    else if d.declaresIndexes && ["FULLTEXT", "SPATIAL"].contains keyword then
      if isNamed then expected "FULLTEXT or SPATIAL option without constraint name"
      let _ ← next
      let _ ← oneOf? ["KEY", "INDEX"]
      let _ ← attempt ident
      let _ ← columnList false false ident
      return some ()
    else if isNamed then expected "PRIMARY, UNIQUE, FOREIGN, or CHECK"
    else return none

/-! Columns of a table. -/

/-- An option of a sequence, if one comes next. -/
def sequenceOption : Rule (Option Unit) := do
  if ← word? "INCREMENT" then
    let _ ← word? "BY"
    return some (← amount)
  else if ← words? ["NO", "MINVALUE"] then return some ()
  else if ← words? ["NO", "MAXVALUE"] then return some ()
  else if ← words? ["NO", "CYCLE"] then return some ()
  else if ← word? "CYCLE" then return some ()
  else if ← word? "START" then
    let _ ← word? "WITH"
    return some (← amount)
  else if (← oneOf? ["MINVALUE", "MAXVALUE", "CACHE"]).isSome then return some (← amount)
  else return none
where
  /-- A number with a sign. -/
  amount : Rule Unit := do
    if !(← symbol? "-") then
      let _ ← symbol? "+"
    let _ ← number

/-- The options of a sequence in parentheses, where they follow. -/
def sequenceOptions : Rule Unit := do
  if ← symbol? "(" then
    let _ ← many sequenceOption
    symbol ")"

/-- Whether a computed column is stored. -/
def computedStorage : Rule Unit := do
  if !(← word? "STORED") then
    if ← allows Dialect.storesComputed then expected "STORED"
    else
      let _ ← word? "VIRTUAL"

/-- How the values of a column come about, after its word. -/
def generated (g : Grammar) : Rule (Option Unit) := do
  if ← words? ["ALWAYS", "AS", "IDENTITY"] then return some (← sequenceOptions)
  else if ← words? ["BY", "DEFAULT", "AS", "IDENTITY"] then return some (← sequenceOptions)
  else if ← words? ["ALWAYS", "AS"] then
    if ← seesSymbol "(" then
      let _ ← parenthesised (inside .ordinary g.expr)
      return some (← computedStorage)
    else return none
  else return none

/-- An option of a column that only some dialects have, if one comes next. -/
def particularOption (g : Grammar) : Rule (Option Unit) := do
  let d ← dialect
  let keyword ← peekWord
  if !d.hasColumnOption keyword then return none
  else match keyword with
    | "AUTO_INCREMENT" | "AUTOINCREMENT" | "ASC" | "DESC" => do
      let _ ← next
      return some ()
    | "MATERIALIZED" | "ALIAS" | "SRID" => do
      let _ ← next
      let _ ← g.expr
      return some ()
    | "ON" =>
      if ← andThen (d != .sqlite) (words? ["ON", "UPDATE"]) then
        let _ ← g.expr
        return some ()
      else if ← andThen (d != .mysql) (words? ["ON", "CONFLICT"]) then
        let _ ← oneOf ["ROLLBACK", "ABORT", "FAIL", "IGNORE", "REPLACE"]
        return some ()
      else return none
    | "AS" => do
      let _ ← next
      let _ ← parenthesised (inside .ordinary g.expr)
      let _ ← oneOf? ["STORED", "VIRTUAL"]
      return some ()
    | "IDENTITY" => do
      let _ ← next
      if ← symbol? "(" then
        let _ ← number
        symbol ","
        let _ ← number
        symbol ")"
      return some ()
    | _ => return none

/-- An option of a column, if one comes next. -/
def columnOption (g : Grammar) : Rule (Option Unit) := inside .columnOptions do
  if ← words? ["CHARACTER", "SET"] then
    let _ ← name
    return some ()
  else if ← word? "COLLATE" then
    let _ ← name
    return some ()
  else if ← words? ["NOT", "NULL"] then return some ()
  else if ← word? "COMMENT" then return some (← literalString)
  else if ← word? "NULL" then return some ()
  else if ← word? "DEFAULT" then
    let _ ← g.expr
    return some ()
  else if ← words? ["PRIMARY", "KEY"] then return some (← constraintTiming)
  else if ← word? "UNIQUE" then return some (← constraintTiming)
  else if ← word? "REFERENCES" then return some (← reference)
  else if ← word? "CHECK" then return some (← check g)
  else if ← word? "GENERATED" then generated g
  else particularOption g

/-- An option of a column, with a name where one is given. -/
def namedColumnOption (g : Grammar) : Rule (Option Unit) := do
  if ← word? "CONSTRAINT" then
    let _ ← ident
    match ← columnOption g with
    | some () => return some ()
    | none => expected "constraint details after CONSTRAINT <name>"
  else columnOption g

/-- Whether the type of a column is left out. -/
def omitsType : Rule Bool := do
  if ← allows Dialect.omitsColumnTypes then
    match (← peek).token with
    | .word _ _ =>
      return ["CONSTRAINT", "PRIMARY", "NOT", "UNIQUE", "CHECK", "DEFAULT", "COLLATE",
        "REFERENCES", "GENERATED", "AS"].contains (← peekWord)
    | _ => return true
  else return false

/-- A column with its type and options. -/
def columnDefinition (g : Grammar) : Rule Ident := do
  let column ← ident
  if !(← omitsType) then
    let _ ← g.type
  let _ ← many (namedColumnOption g)
  return column

/-- The columns and constraints of a table, after the opening parenthesis. -/
def columnsWithin (g : Grammar) : Nat → Rule (List Ident)
  | 0 => return []
  | budget + 1 => do
    let column ← match ← tableConstraint g with
      | some () => pure none
      | none => do
        match (← peek).token with
        | .word _ _ => do pure (some (← columnDefinition g))
        | _ => expected "column name or constraint definition"
    let comma ← symbol? ","
    let closes ← seesSymbol ")"
    if !comma && !closes then expected "',' or ')' after column definition"
    if closes && !comma then
      symbol ")"
      return column.toList
    else return column.toList ++ (← columnsWithin g budget)

/-- The columns of a table, where they are listed. -/
def tableColumns (g : Grammar) : Rule (List Ident) := do
  if ← symbol? "(" then
    if ← symbol? ")" then return [] else columnsWithin g ((← get).length + 1)
  else return []

/-! Options of a table. -/

/-- The words of a table option with a value, in the order in which they are tried. -/
def valuedOptions : List (List String) :=
  [["DEFAULT", "CHARSET"], ["CHARSET"], ["DEFAULT", "CHARACTER", "SET"], ["CHARACTER", "SET"],
    ["DEFAULT", "COLLATE"], ["COLLATE"], ["DATA", "DIRECTORY"], ["INDEX", "DIRECTORY"],
    ["KEY_BLOCK_SIZE"], ["ROW_FORMAT"], ["PACK_KEYS"], ["STATS_AUTO_RECALC"],
    ["STATS_PERSISTENT"], ["STATS_SAMPLE_PAGES"], ["DELAY_KEY_WRITE"], ["COMPRESSION"],
    ["ENCRYPTION"], ["MAX_ROWS"], ["MIN_ROWS"], ["AUTOEXTEND_SIZE"], ["AVG_ROW_LENGTH"],
    ["CHECKSUM"], ["CONNECTION"], ["ENGINE_ATTRIBUTE"], ["PASSWORD"],
    ["SECONDARY_ENGINE_ATTRIBUTE"], ["INSERT_METHOD"], ["AUTO_INCREMENT"]]

/-- Take the words of a table option with a value, if they come next. -/
def valuedOption : List (List String) → Rule Bool
  | [] => return false
  | option :: rest => do
    if ← words? option then return true else valuedOption rest

/-- An option of a table without parentheses, if one comes next. -/
def plainOption : Rule (Option Unit) := do
  let found ← if ← words? ["START", "TRANSACTION"] then pure true
    else if ← word? "COMMENT" then
      let _ ← symbol? "="
      literalString
      pure true
    else if ← word? "ENGINE" then
      let _ ← symbol? "="
      match (← peek).token with
      | .word _ _ => do
        let _ ← next
      | _ => expected "Token::Word"
      if ← seesSymbol "(" then
        let _ ← columnList false true ident
      pure true
    else if ← valuedOption valuedOptions then
      let _ ← symbol? "="
      match ← attempt value with
      | some _ => pure ()
      | none => do
        let _ ← ident
      pure true
    else pure false
  if found then
    let _ ← symbol? ","
    return some ()
  else return none

/-- Options in parentheses, after their word. -/
def enclosedOptions (g : Grammar) : Rule Unit := do
  let _ ← parenthesised (commaListBefore ")" g.expr)

/-- The options of a table. -/
def tableOptions (g : Grammar) : Rule Unit := do
  let d ← dialect
  if ← word? "INHERITS" then
    let _ ← columnList false false name
  let enclosed ← word? "WITH"
  if enclosed then enclosedOptions g
  if ← word? "TBLPROPERTIES" then enclosedOptions g
  if ← andThen d.partitionsTables (words? ["PARTITION", "BY"]) then
    let _ ← g.expr
  if d.hasAnalyticalClauses then
    let _ ← givenList (words? ["CLUSTER", "BY"]) g.exprs
    if ← word? "OPTIONS" then enclosedOptions g
  if !enclosed then
    let _ ← many plainOption
  if d.hasAnalyticalClauses then
    if ← words? ["PRIMARY", "KEY"] then
      let _ ← g.expr
    if ← words? ["ORDER", "BY"] then
      let _ ← g.expr
  if ← words? ["ON", "COMMIT"] then
    if ← words? ["DELETE", "ROWS"] then pure ()
    else if ← words? ["PRESERVE", "ROWS"] then pure ()
    else if ← word? "DROP" then pure ()
    else expected "Expecting DELETE ROWS, PRESERVE ROWS or DROP"
  let _ ← word? "STRICT"

/-- A definition of a table, after the word `TABLE`. -/
def tableDefinition (g : Grammar) : Rule TableDefinition := do
  let d ← dialect
  let _ ← words? ["IF", "NOT", "EXISTS"]
  let tableName ← name
  if ← words? ["ON", "CLUSTER"] then
    let _ ← ident
  if (← oneOf? ["LIKE", "ILIKE"]).isSome then
    let _ ← name
  if ← word? "CLONE" then
    let _ ← attempt name
  let columns ← tableColumns g
  let _ ← words? ["WITHOUT", "ROWID"]
  tableOptions g
  let filled ← word? "AS"
  let direct := !filled && d.fillsTablesDirectly && (← seesWord "SELECT")
  let query ← if filled || direct then do pure (some (← g .query)) else pure none
  return ⟨tableName, columns, query⟩

end Rule
end TableAccess.Sql
