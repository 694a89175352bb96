import TableAccess.Sql.Grammar.DataType

/-! Calls: arguments, the clauses among and after them, and windows. -/
namespace TableAccess.Sql
namespace Rule

/-- The words after a key to sort by. -/
def direction : Rule String := do
  let order ← oneOf? ["ASC", "DESC"]
  let nulls ← if ← words? ["NULLS", "FIRST"] then pure " NULLS FIRST"
    else if ← words? ["NULLS", "LAST"] then pure " NULLS LAST"
    else pure ""
  return afterBlank (order.getD "") ++ nulls

/-- How gaps between sorted values are filled. -/
def fill (g : Grammar) : Rule (Option Fill) := do
  if ← andThen (← allows Dialect.hasAnalyticalClauses) (words? ["WITH", "FILL"]) then
    let start ← given (word? "FROM") g.expr
    let finish ← given (word? "TO") g.expr
    let step ← given (word? "STEP") g.expr
    return some ⟨start, finish, step⟩
  else return none

/-- A key to sort by. -/
def sortKey (g : Grammar) : Rule Expr := do
  let key ← g.expr
  let way ← direction
  return .sorted key way (← fill g)

/-- Keys to sort by, between commas. -/
def sortKeys (g : Grammar) : Rule (List Expr) := commaList (sortKey g)

/-- The symbol or word between an argument's name and its value. -/
def argumentOperator : Rule String := do
  if ← word? "VALUE" then return "VALUE"
  else
    let d ← dialect
    let found ← peek
    match found.token with
    | .symbol spelling =>
      if d.namesArgumentWith spelling then
        let _ ← next
        return spelling
      else expected "argument operator"
    | _ => expected "argument operator"

/-- The parts of a wildcard's name after the first one. -/
def wildcardParts : Nat → Rule (Option Name)
  | 0 => return none
  | steps + 1 => do
    if ← symbol? "." then
      if ← symbol? "*" then return some []
      else
        let found ← peek
        match found.token with
        | .word value quote => do
          let _ ← next
          return (← wildcardParts steps).map (⟨value, quote⟩ :: ·)
        | .text .single value => do
          let _ ← next
          return (← wildcardParts steps).map (⟨value, some '\''⟩ :: ·)
        | .parameter spelling => do
          let _ ← next
          return (← wildcardParts steps).map (⟨spelling, none⟩ :: ·)
        | _ => expected "an identifier or a '*' after '.'"
    else return none

/-- An expression, or all columns, perhaps of one table. -/
def exprOrWildcard (g : Grammar) : Rule Expr := do
  if ← symbol? "*" then return .wildcard ""
  else
    let first ← peek
    let second ← peekAt 1
    let start := match first.token, second.token with
      | .word value quote, .symbol "." => some (⟨value, quote⟩ : Ident)
      | .text .single value, .symbol "." => some ⟨value, some '\''⟩
      | _, _ => none
    match start with
    | none => g.expr
    | some i => do
      let tokens ← get
      set (tokens.drop 1)
      match ← wildcardParts tokens.length with
      | some parts => return .qualifiedWildcard (i :: parts) ""
      | none => do
        set tokens
        g.expr

/-- An argument of a call. -/
def argument (g : Grammar) : Rule Expr := do
  let labelled : Rule Expr := do
    if ← allows Dialect.labelsArguments then
      let label ← g.expr
      let operator ← argumentOperator
      return .labelledArgument label operator (← exprOrWildcard g)
    else
      let i ← ident
      let operator ← argumentOperator
      return .namedArgument i operator (← exprOrWildcard g)
  match ← attempt labelled with
  | some result => return result
  | none => exprOrWildcard g

/-- Which nulls a JSON value keeps. -/
def jsonNulls : Rule (Option String) := do
  if ← words? ["ABSENT", "ON", "NULL"] then return some "ABSENT ON NULL"
  else if ← words? ["NULL", "ON", "NULL"] then return some "NULL ON NULL"
  else return none

/-- The type that a JSON value is given as. -/
def jsonType (g : Grammar) : Rule (Option String) := do
  if ← word? "RETURNING" then return some ("RETURNING " ++ (← g.type).text) else return none

/-- Whether repeated values count. -/
def duplicates : Rule (Option String) := do
  let start := (← peek).number
  let all ← word? "ALL"
  let distinct ← word? "DISTINCT"
  if all && distinct then fail (.refused "Cannot specify both ALL and DISTINCT" start)
  else if all then return some "ALL"
  else if distinct then return some "DISTINCT"
  else return none

/-- How nulls are treated. -/
def nullTreatment : Rule (Option String) := do
  match ← oneOf? ["RESPECT", "IGNORE"] with
  | some treatment => do
    word "NULLS"
    return some (treatment ++ " NULLS")
  | none => return none

/-- What happens when a joined list grows too long. -/
def overflow : Rule (Option ArgumentClause) := do
  if ← words? ["ON", "OVERFLOW"] then
    if ← word? "ERROR" then return some (.words "ON OVERFLOW ERROR")
    else
      word "TRUNCATE"
      let filler ← match (← peek).token with
        | .word _ _ => do
          if ["WITH", "WITHOUT"].contains (← peekWord) then pure none
          else expected "either filler, WITH, or WITHOUT in LISTAGG"
        | .text _ _ => do pure (some (Expr.literal (← value)))
        | _ => expected "either filler, WITH, or WITHOUT in LISTAGG"
      let counted ← word? "WITH"
      if !counted then
        if !(← word? "WITHOUT") then expected "either WITH or WITHOUT in LISTAGG"
      word "COUNT"
      return some (.overflow filler counted)
  else return none

/-- A clause without expressions. -/
def wordsClause (text : Option String) : List ArgumentClause := text.toList.map .words

/-- The arguments of a call in a list. -/
structure ArgumentList where
  duplicates : Option String
  items : List Expr
  clauses : List ArgumentClause

def ArgumentList.arguments (l : ArgumentList) : Arguments := .list l.duplicates l.items l.clauses

/-- What stands between the parentheses of a call, the first of them being read
already. -/
def argumentList (g : Grammar) : Rule ArgumentList := do
  let d ← dialect
  let early := wordsClause (← jsonNulls)
  let early := early ++ wordsClause (← jsonType g)
  if ← symbol? ")" then return ⟨none, [], early⟩
  else
    let repeated ← duplicates
    let arguments ← commaList (argument g)
    let nulls ← if d.hasNullsArgument then nullTreatment else pure none
    let order : List ArgumentClause ← if ← words? ["ORDER", "BY"] then do
        pure [.orderBy (← sortKeys g)]
      else pure []
    let limit : List ArgumentClause ← if ← word? "LIMIT" then do pure [.limit (← g.expr)]
      else pure []
    let bound : List ArgumentClause ← if ← andThen d.hasBoundArgument (word? "HAVING") then do
        let kind ← oneOf ["MIN", "MAX"]
        pure [.having kind (← g.expr)]
      else pure []
    let separator ← if ← andThen d.hasSeparatorArgument (word? "SEPARATOR") then do
        pure (some ("SEPARATOR " ++ (← value)))
      else pure none
    let overflow ← overflow
    let jsonNull ← jsonNulls
    let jsonReturn ← jsonType g
    symbol ")"
    return ⟨repeated, arguments, early ++ wordsClause nulls ++ order ++ limit ++ bound
      ++ wordsClause separator ++ overflow.toList ++ wordsClause jsonNull
      ++ wordsClause jsonReturn⟩

/-- The bound of a window frame. -/
def frameBound (g : Grammar) : Rule FrameBound := do
  if ← words? ["CURRENT", "ROW"] then return .currentRow
  else
    let rows ← if ← word? "UNBOUNDED" then pure none else do
      match (← peek).token with
      | .text .single _ => do
        let amount ← value
        pure (some (Expr.interval (.literal amount) (← optionalUnit)))
      | _ => pure (some (← g.expr))
    if ← word? "PRECEDING" then return .preceding rows
    else if ← word? "FOLLOWING" then return .following rows
    else expected "PRECEDING or FOLLOWING"

/-- The frame of a window. -/
def windowFrame (g : Grammar) : Rule WindowFrame := do
  match ← oneOf? ["ROWS", "RANGE", "GROUPS"] with
  | none => expected "ROWS, RANGE, GROUPS"
  | some unit =>
    if ← word? "BETWEEN" then
      let start ← frameBound g
      word "AND"
      let finish ← frameBound g
      return ⟨unit, start, some finish⟩
    else return ⟨unit, ← frameBound g, none⟩

/-- A window after its opening parenthesis, with the closing one. -/
def window (g : Grammar) : Rule Expr := do
  let found ← peek
  let base ← match found.token with
    | .word _ _ =>
      if ["PARTITION", "ORDER", "ROWS", "RANGE", "GROUPS"].contains found.token.keyword then
        pure none
      else attempt ident
    | _ => pure none
  let partition ← givenList (words? ["PARTITION", "BY"]) g.exprs
  let order ← givenList (words? ["ORDER", "BY"]) (sortKeys g)
  let frame ← if ← symbol? ")" then pure none else do
    let frame ← windowFrame g
    symbol ")"
    pure (some frame)
  return .window base partition order frame

/-- What a call ranges over. -/
def windowed (g : Grammar) : Rule (Option Expr) := do
  if ← word? "OVER" then
    if ← symbol? "(" then return some (← window g)
    else return some (.windowNamed (← ident))
  else return none

/-- Whether a clause among the arguments says how nulls are treated. -/
def treatsNulls : ArgumentClause → Bool
  | .words text => text == "IGNORE NULLS" || text == "RESPECT NULLS"
  | _ => false

/-- A call of a name, from its opening parenthesis on. -/
def callOf (g : Grammar) (callee : Name) (braces : Bool) : Rule Expr := do
  let d ← dialect
  symbol "("
  let first ← argumentList g
  let parametric ← if d.hasParametricCalls then symbol? "(" else pure false
  let second ← if parametric then argumentList g else pure first
  let within ← if ← words? ["WITHIN", "GROUP"] then do
      symbol "("
      words ["ORDER", "BY"]
      let keys ← sortKeys g
      symbol ")"
      pure keys
    else pure []
  let filter ← if ← andThen d.filtersCalls (word? "FILTER") then do
      if ← andThen (← symbol? "(") (word? "WHERE") then
        let condition ← g.expr
        symbol ")"
        pure (some condition)
      else pure none
    else pure none
  let nulls ← if second.clauses.any treatsNulls then pure none else nullTreatment
  let range ← windowed g
  let parameters := if parametric then first.arguments else .absent
  return .call callee braces parameters second.arguments nulls filter range within

/-- A call without parentheses. -/
def bareCall (callee : Ident) : Expr := .call [callee] false .absent .absent none none none []

/-- A call that names a time, with parentheses or without. -/
def timeCall (g : Grammar) (callee : Ident) : Rule Expr := do
  if ← symbol? "(" then
    let list ← argumentList g
    return .call [callee] false .absent list.arguments none none none []
  else return bareCall callee

end Rule
end TableAccess.Sql
