import TableAccess.Sql.Grammar.Core
import TableAccess.Sql.Render

/-! Names and aliases. Any word can be a name, so what decides is where it stands: a
word that may go on with the clause around it is no alias unless `AS` says so. -/
namespace TableAccess.Sql

/-- Words that end a source of rows rather than name it. -/
def wordsAfterTable : List String :=
  ["WITH", "EXPLAIN", "ANALYZE", "SELECT", "WHERE", "GROUP", "SORT", "HAVING", "ORDER", "PIVOT",
    "UNPIVOT", "TOP", "LATERAL", "VIEW", "LIMIT", "OFFSET", "FETCH", "UNION", "EXCEPT",
    "INTERSECT", "MINUS", "ON", "JOIN", "INNER", "CROSS", "FULL", "LEFT", "RIGHT", "NATURAL",
    "USING", "CLUSTER", "DISTRIBUTE", "GLOBAL", "ANTI", "SEMI", "RETURNING", "ASOF",
    "MATCH_CONDITION", "OUTER", "SET", "QUALIFY", "WINDOW", "END", "FOR", "PARTITION",
    "PREWHERE", "SETTINGS", "FORMAT", "START", "CONNECT", "MATCH_RECOGNIZE", "SAMPLE",
    "TABLESAMPLE", "FROM", "OPEN"]

/-- Words that end an item of a select list rather than name it. -/
def wordsAfterItem : List String :=
  ["WITH", "EXPLAIN", "ANALYZE", "SELECT", "WHERE", "GROUP", "SORT", "HAVING", "ORDER", "TOP",
    "LATERAL", "VIEW", "LIMIT", "OFFSET", "FETCH", "UNION", "EXCEPT", "EXCLUDE", "INTERSECT",
    "MINUS", "CLUSTER", "DISTRIBUTE", "RETURNING", "VALUES", "FROM", "INTO", "END"]

/-- Whether a word may name a source of rows without `AS`. -/
def Dialect.namesTable (d : Dialect) (word : String) : Bool :=
  !wordsAfterTable.contains word
    && !(d.reservesIndexHints && ["USE", "IGNORE", "FORCE", "STRAIGHT_JOIN"].contains word)

/-- Whether a word may name an item of a select list without `AS`. -/
def Dialect.namesItem (d : Dialect) (word : String) : Bool :=
  !wordsAfterItem.contains word
    && !(d.reservesBranches && ["IF", "ELSE"].contains word)

namespace Rule

/-- The identifier that a token can be. -/
def identOf : Token → Option Ident
  | .word value quote => some ⟨value, quote⟩
  | .text .single value => some ⟨value, some '\''⟩
  | .text .double value => some ⟨value, some '"'⟩
  | _ => none

/-- An identifier: any word, or a string. -/
def ident : Rule Ident := do
  match identOf (← peek).token with
  | some i => do
    let _ ← next
    return i
  | none => expected "identifier"

/-- Identifiers between commas. -/
def idents : Rule (List Ident) := commaList ident

/-- The parts of a name after its first `read` ones. -/
def nameParts : Nat → Nat → Rule Name
  | 0, _ => return []
  | steps + 1, readParts => do
    let omitted := readParts == 1 && (← allows Dialect.allowsDoublePeriod) && (← seesSymbol ".")
    let part ← if omitted then pure ⟨"", none⟩ else ident
    if ← symbol? "." then return part :: (← nameParts steps (readParts + 1))
    else return [part]

/-- A name in parts. -/
def name : Rule Name := do nameParts ((← get).length + 1) 0

/-- An identifier that names what stands before it: any word after `AS`, and without it
a word that the test allows or a string. -/
def optionalAlias (test : String → Bool) : Rule (Option Ident) := do
  let explicit ← word? "AS"
  let found ← peek
  let accepted := match found.token with
    | .word _ _ => explicit || test found.token.keyword
    | token => (identOf token).isSome
  if accepted then
    let _ ← next
    return identOf found.token
  else if explicit then expected "an identifier after AS"
  else return none

/-- An alias of an item of a select list. -/
def itemAlias : Rule (Option Ident) := do
  let d ← dialect
  optionalAlias d.namesItem

/-- The columns of an alias, each with a type where one is given. -/
def aliasColumns (g : Grammar) : Rule (List AliasColumn) := do
  if ← symbol? "(" then
    let columns ← commaList do
      let column ← ident
      let dataType ← attempt g.type
      return ⟨column, dataType.map DataType.text⟩
    symbol ")"
    return columns
  else return []

/-- An alias of a source of rows. -/
def tableAlias (g : Grammar) : Rule (Option Alias) := do
  let d ← dialect
  let explicit ← seesWord "AS"
  match ← optionalAlias d.namesTable with
  | some i => return some ⟨explicit, i, ← aliasColumns g⟩
  | none => return none

/-- Items in parentheses; where they are optional, nothing stands for none. -/
def columnList {α : Type} (optional allowsNone : Bool) (item : Rule α) : Rule (List α) := do
  if ← symbol? "(" then
    if ← andThen allowsNone (symbol? ")") then return []
    else
      let columns ← commaList item
      symbol ")"
      return columns
  else if optional then return []
  else expected "a list of columns in parentheses"

end Rule
end TableAccess.Sql
