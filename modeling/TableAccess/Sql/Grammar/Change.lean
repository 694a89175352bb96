import TableAccess.Sql.Grammar.Query

/-! Statements that change rows: insertions with what they do on a conflict, updates,
deletions and merges. -/
namespace TableAccess.Sql
namespace Rule

/-- What happens to rows that break a constraint, before the target of a change. -/
def conflictWords : Rule String := do
  if ← words? ["OR", "REPLACE"] then return " OR REPLACE"
  else if ← words? ["OR", "ROLLBACK"] then return " OR ROLLBACK"
  else if ← words? ["OR", "ABORT"] then return " OR ABORT"
  else if ← words? ["OR", "FAIL"] then return " OR FAIL"
  else if ← words? ["OR", "IGNORE"] then return " OR IGNORE"
  else if ← word? "REPLACE" then return " OR REPLACE"
  else return ""

/-- New values for columns. -/
def assignments (g : Grammar) : Rule (List Assignment) := commaList do
  let target ← if ← seesSymbol "(" then do pure (.columns (← parenthesised (commaList name)))
    else do pure (.column (← name))
  symbol "="
  return ⟨target, ← g.expr⟩

/-- What an insertion does where a row exists already. -/
structure Upsert where
  shape : Option UpsertShape
  assignments : List Assignment
  condition : Option Expr

/-- What an insertion does where a row exists already, after the word `ON`. -/
def upsert (g : Grammar) : Rule Upsert := do
  if ← word? "CONFLICT" then
    let columns ← if ← words? ["ON", "CONSTRAINT"] then do
        let _ ← name
        pure none
      else given (seesSymbol "(") (columnList false false ident)
    word "DO"
    if ← word? "NOTHING" then return ⟨some (.nothing columns), [], none⟩
    else
      words ["UPDATE", "SET"]
      let values ← assignments g
      return ⟨some (.update columns), values, ← conditionAfter g "WHERE"⟩
  else
    words ["DUPLICATE", "KEY", "UPDATE"]
    return ⟨some .duplicateKey, ← assignments g, none⟩

/-- Where the rows of an insertion come from: a query, or values set one by one. -/
def insertedRows (g : Grammar) : Rule (Option Query × List Assignment) := do
  if ["FORMAT", "SETTINGS"].contains (← peekWord) then return (none, [])
  else if ← andThen (← allows Dialect.insertsWithSet) (word? "SET") then
    return (none, ← assignments g)
  else return (some (← g .query), [])

/-- Whether a nested selection in parentheses comes next. -/
def seesNestedSelect : Rule Bool := do
  return (← seesSymbol "(") && (← peekAt 1).token.keyword == "SELECT"

/-- An insertion after its first word, which is given. -/
def insertionAfter (g : Grammar) (verb : String) : Rule Insertion := do
  let d ← dialect
  let conflict ← conflictWords
  let priority ← if d.hasInsertModifiers then
      oneOf? ["LOW_PRIORITY", "DELAYED", "HIGH_PRIORITY"]
    else pure none
  let ignores ← if d.hasInsertModifiers then word? "IGNORE" else pure false
  let overwrites ← word? "OVERWRITE"
  let spelledInto ← word? "INTO"
  let _ ← word? "LOCAL"
  let spelledTable ← word? "TABLE"
  let table ← name
  let aliasName ← if d.aliasesTarget then given (word? "AS") ident else pure none
  let verbs := verb ++ conflict ++ afterBlank (priority.getD "") ++ wordsIf ignores " IGNORE"
    ++ wordsIf overwrites " OVERWRITE" ++ wordsIf spelledInto " INTO"
    ++ wordsIf spelledTable " TABLE"
  let (columns, source, assigned) ← if ← words? ["DEFAULT", "VALUES"] then pure ([], none, [])
    else do
      let columns ← if ← seesNestedSelect then pure [] else do
        let columns ← columnList true d.allowsEmptyRow ident
        if ← word? "PARTITION" then
          let _ ← parenthesised g.exprs
        pure columns
      let (source, assigned) ← insertedRows g
      pure (columns, source, assigned)
  let rowAlias ← if ← andThen d.hasInsertModifiers (word? "AS") then do
      let aliasName ← name
      let _ ← columnList true false ident
      pure (some aliasName)
    else pure none
  let upsert ← if ← word? "ON" then upsert g else pure ⟨none, [], none⟩
  return {
    words := verbs, table, aliasName, columns, source, assignments := assigned, rowAlias
    upsert := upsert.shape, upsertAssignments := upsert.assignments
    upsertCondition := upsert.condition, returning := ← returning g }

/-- An insertion after its first word. -/
def insertion (g : Grammar) : Rule Insertion := insertionAfter g "INSERT"

/-- An insertion that replaces rows, after its first word. -/
def replacement (g : Grammar) : Rule Insertion := do
  if ← allows Dialect.replaces then insertionAfter g "REPLACE"
  else refuse "Unsupported statement REPLACE"

/-- An update after its first word. The sources may stand before or after the new
values. -/
def update (g : Grammar) : Rule Update := do
  let conflict ← conflictWords
  let table ← g .joinedTable
  let early ← given (word? "FROM") (sources g)
  word "SET"
  let assigned ← assignments g
  let late ← if early.isNone then givenList (word? "FROM") (sources g) else pure []
  let condition ← conditionAfter g "WHERE"
  let returned ← returning g
  let limit ← conditionAfter g "LIMIT"
  return {
    words := "UPDATE" ++ conflict, table, sourcesFirst := early.isSome
    sources := early.getD late, assignments := assigned, condition, returning := returned, limit }

/-- A deletion after its first word. -/
def deletion (g : Grammar) : Rule Deletion := do
  let hasFrom ← word? "FROM"
  let needsFrom := !hasFrom && !(← allows Dialect.deletesWithoutFrom)
  let tables ← if needsFrom then do
      let tables ← commaList name
      word "FROM"
      pure tables
    else pure []
  let origins ← sources g
  let others ← given (word? "USING") (sources g)
  let condition ← conditionAfter g "WHERE"
  let returned ← returning g
  let order ← givenList (words? ["ORDER", "BY"]) (sortKeys g)
  let limit ← if ← word? "LIMIT" then limitCount g else pure none
  return {
    tables, hasFrom := hasFrom || needsFrom, sources := origins, hasOthers := others.isSome
    others := others.getD [], condition, returning := returned, order, limit }

/-- Which rows a clause of a merge is about. -/
inductive MergeCase where
  | matched | notMatched | notMatchedBySource | notMatchedByTarget
deriving DecidableEq

/-- The words of a merge case. -/
def MergeCase.words : MergeCase → String
  | .matched => "MATCHED"
  | .notMatched => "NOT MATCHED"
  | .notMatchedBySource => "NOT MATCHED BY SOURCE"
  | .notMatchedByTarget => "NOT MATCHED BY TARGET"

/-- Whether rows can be added in a merge case; in the others they can be changed and
removed. -/
def MergeCase.adds : MergeCase → Bool
  | .notMatched | .notMatchedByTarget => true
  | _ => false

/-- One clause of a merge. -/
def mergeClause (g : Grammar) : Rule Unit := do
  let d ← dialect
  let negated ← word? "NOT"
  word "MATCHED"
  let rows : MergeCase ← if !negated then pure .matched
    else if ← words? ["BY", "SOURCE"] then pure .notMatchedBySource
    else if ← words? ["BY", "TARGET"] then pure .notMatchedByTarget
    else pure .notMatched
  let _ ← conditionAfter g "AND"
  word "THEN"
  let allowed := fun (verb : String) (condition : Bool) => do
    if !condition then
      refuse (verb ++ " is not allowed in a " ++ rows.words ++ " merge clause")
  match ← oneOf? ["UPDATE", "INSERT", "DELETE"] with
  | some "UPDATE" => do
    allowed "UPDATE" (!rows.adds)
    word "SET"
    let _ ← assignments g
  | some "DELETE" => allowed "DELETE" (!rows.adds)
  | some _ => do
    allowed "INSERT" rows.adds
    let _ ← columnList true d.allowsEmptyRow ident
    if ← andThen (d == .generic) (word? "ROW") then pure ()
    else
      word "VALUES"
      let _ ← valueRows g d.allowsEmptyRow
  | none => refuse "expected UPDATE, DELETE or INSERT in merge clause"

/-- A merge after its first word. -/
def merge (g : Grammar) : Rule Unit := do
  let _ ← word? "INTO"
  let _ ← g .relation
  word "USING"
  let _ ← g .relation
  word "ON"
  let _ ← g.expr
  let _ ← many (given (word? "WHEN") (mergeClause g))
  if (← oneOf? ["OUTPUT", "RETURNING"]).isSome then
    let _ ← commaList (selectItem g)
    let _ ← into

end Rule
end TableAccess.Sql
