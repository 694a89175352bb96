import TableAccess.Sql.Grammar.Relation

/-! Queries: named queries, bodies joined by set operators, and selections with their
clauses in the order in which they are written. Clauses in which no column is read are
kept as text. -/
namespace TableAccess.Sql
namespace Rule

/-- A condition after its keyword, where it follows. -/
def conditionAfter (g : Grammar) (keyword : String) : Rule (Option Expr) :=
  given (word? keyword) g.expr

/-! Items of a select list. -/

/-- Names in parentheses, or a single one. -/
def oneOrSeveral (item : Rule String) : Rule String := do
  if ← seesSymbol "(" then return "(" ++ commas (← parenthesised (commaList item)) ++ ")"
  else item

/-- An identifier under another name. -/
def renamedIdent : Rule String := do
  let before ← ident
  word "AS"
  let after ← ident
  return before.text ++ " AS " ++ after.text

/-- Words after a wildcard that leave out, replace or rename columns. -/
def wildcardOptions (g : Grammar) : Rule String := do
  if !(← allows Dialect.hasWildcardOptions) then return ""
  else
    let pattern ← if ← word? "ILIKE" then
        match (← peek).token with
        | .text .single content => do
          let _ ← next
          pure (" ILIKE " ++ quoted '\'' content)
        | _ => expected "ilike pattern"
      else pure ""
    let plain : Rule String := do return (← ident).text
    let excluded ← if ← andThen pattern.isEmpty (word? "EXCLUDE") then do
        pure (" EXCLUDE " ++ (← oneOrSeveral plain))
      else pure ""
    let excepted ← if ← word? "EXCEPT" then do
        if ← seesSymbol "(" then
          pure (" EXCEPT (" ++ commas (← columnList false false plain) ++ ")")
        else do pure (" EXCEPT (" ++ (← plain) ++ ")")
      else pure ""
    let replaced ← if ← word? "REPLACE" then do
        if !(← seesSymbol "(") then expected "( after REPLACE but"
        let items ← parenthesised (commaList do
          let value ← g.expr
          let spelled ← word? "AS"
          return value.text ++ wordsIf spelled " AS" ++ " " ++ (← plain))
        pure (" REPLACE (" ++ commas items ++ ")")
      else pure ""
    let renamed ← if ← word? "RENAME" then do pure (" RENAME " ++ (← oneOrSeveral renamedIdent))
      else pure ""
    return pattern ++ excluded ++ excepted ++ replaced ++ renamed

/-- One item of a select list. A word that opens the sources is no item; where the
dialect says so, an equation names its right side. -/
def selectItem (g : Grammar) : Rule SelectItem := do
  let value ← exprOrWildcard g
  let aliased := fun (_ : Unit) => do return (⟨value, ← itemAlias⟩ : SelectItem)
  match value with
  | .wildcard _ => return ⟨.wildcard (← wildcardOptions g), none⟩
  | .qualifiedWildcard parts _ => return ⟨.qualifiedWildcard parts (← wildcardOptions g), none⟩
  | .name i =>
    if i.quote.isNone && capitals i.value == "FROM" then
      refuse ("Expected an expression, found: " ++ i.value)
    else aliased ()
  | .binary (.name i) "=" right =>
    if ← allows Dialect.namesByEquation then return ⟨right, some i⟩ else aliased ()
  | _ => aliased ()

/-- The items of a select list. -/
def selectItems (g : Grammar) : Rule (List SelectItem) := do
  let d ← dialect
  if d.allowsEmptySelect && (← seesWord "FROM") then return []
  else if d.trailingSelectComma then
    commaListUntil (fun token => wordsAfterItem.contains token.keyword) (selectItem g)
  else commaList (selectItem g)

/-- The items that a changing statement gives back. -/
def returning (g : Grammar) : Rule (List SelectItem) :=
  givenList (word? "RETURNING") (commaList (selectItem g))

/-! Clauses of a selection. -/

/-- Which rows count as repeated, with the keys that tell. -/
def repetition (g : Grammar) : Rule (Repetition × List Expr) := do
  match ← duplicates with
  | some "DISTINCT" =>
    if ← word? "ON" then
      let keys ← parenthesised (commaListBefore ")" g.expr)
      return (.droppedOn, keys)
    else return (.dropped, [])
  | _ => return (.kept, [])

/-- How many rows a selection gives at most. -/
def top (g : Grammar) : Rule String := do
  if ← word? "TOP" then
    let count ← if ← seesSymbol "(" then do
        pure ("(" ++ (← parenthesised g.expr).text ++ ")")
      else wholeNumber
    let percent ← word? "PERCENT"
    let ties ← words? ["WITH", "TIES"]
    return " TOP " ++ count ++ wordsIf percent " PERCENT" ++ wordsIf ties " WITH TIES"
  else return ""

/-- The table that a selection fills. -/
def into : Rule String := do
  if ← word? "INTO" then
    let temporary := (← oneOf? ["TEMP", "TEMPORARY"]).isSome
    let unlogged ← word? "UNLOGGED"
    let spelled ← word? "TABLE"
    return " INTO" ++ wordsIf temporary " TEMPORARY" ++ wordsIf unlogged " UNLOGGED"
      ++ wordsIf spelled " TABLE" ++ " " ++ Name.text (← name)
  else return ""

/-- A view of the elements of each row, if one comes next. -/
def lateralView (g : Grammar) : Rule (Option String) := do
  if ← words? ["LATERAL", "VIEW"] then
    let outer ← word? "OUTER"
    let call ← g.expr
    let view ← name
    let columns ← commaList (optionalAlias fun w =>
      !(["WHERE", "GROUP", "CLUSTER", "HAVING", "LATERAL"].contains w))
    let names := columns.filterMap fun c => c.map Ident.text
    return some (" LATERAL VIEW" ++ wordsIf outer " OUTER" ++ " " ++ call.text ++ " "
      ++ Name.text view ++ wordsIf (!names.isEmpty) (" AS " ++ commas names))
  else return none

/-- One set of grouping keys. -/
def groupingSet (g : Grammar) (bareSingles : Bool) : Rule (List Expr) := do
  if bareSingles && !(← seesSymbol "(") then return [← g.expr]
  else parenthesised (commaListBefore ")" g.expr)

/-- Sets of grouping keys in parentheses. -/
def groupingSets (g : Grammar) (word : String) (bareSingles : Bool) : Rule Expr := do
  let sets ← parenthesised (commaList (groupingSet g bareSingles))
  return .sets word (word != "GROUPING SETS") sets

/-- A grouping key. -/
def groupingKey (g : Grammar) : Rule Expr := do
  if ← allows Dialect.hasGroupingSets then
    if ← words? ["GROUPING", "SETS"] then groupingSets g "GROUPING SETS" false
    else if ← word? "CUBE" then groupingSets g "CUBE" true
    else if ← word? "ROLLUP" then groupingSets g "ROLLUP" true
    else if ← symbols? ["(", ")"] then return .tuple []
    else g.expr
  else g.expr

/-- Words after the grouping keys that ask for further groups. -/
def groupModifiers (g : Grammar) : Rule String := do
  let plain ← if ← allows Dialect.hasGroupModifiers then
      many (given (word? "WITH") (oneOf ["ROLLUP", "CUBE", "TOTALS"]))
    else pure []
  let sets ← if ← words? ["GROUPING", "SETS"] then do
      pure (" " ++ (← groupingSets g "GROUPING SETS" true).text)
    else pure ""
  return String.join (plain.map (" WITH " ++ ·)) ++ sets

/-- How rows are grouped: whether by everything, the keys, and the words after them. -/
def grouping (g : Grammar) : Rule (Bool × List Expr × String) := do
  if ← words? ["GROUP", "BY"] then
    if ← word? "ALL" then return (true, [], ← groupModifiers g)
    else
      let keys ← commaList (groupingKey g)
      return (false, keys, ← groupModifiers g)
  else return (false, [], "")

/-- A window under a name. -/
def namedWindow (g : Grammar) : Rule Expr := do
  let windowName ← ident
  word "AS"
  if ← symbol? "(" then return .windowDefinition windowName (← window g)
  else if ← allows Dialect.windowsByName then
    return .windowDefinition windowName (.windowNamed (← ident))
  else expected "("

/-- Named windows. -/
def namedWindows (g : Grammar) : Rule (List Expr) :=
  givenList (word? "WINDOW") (commaList (namedWindow g))

/-- A walk along a hierarchy: its start, then what ties its levels. -/
def hierarchy (g : Grammar) : Rule (List Expr) := do
  let ties := do
    words ["CONNECT", "BY"]
    inside .hierarchy g.exprs
  let start := do
    words ["START", "WITH"]
    g.expr
  match ← allows Dialect.walksHierarchies, ← peekWord with
  | true, "CONNECT" => do
    let relationships ← ties
    return (← start) :: relationships
  | true, "START" => do
    let first ← start
    return first :: (← ties)
  | _, _ => return []

/-- A selection without clauses. -/
def bareSelect : Select := {
  fromFirst := false, hasSelect := true, repetition := .kept, distinctOn := [], top := ""
  items := [], into := "", tables := [], views := "", prewhere := none, condition := none
  groupsAll := false, group := [], groupModifiers := "", cluster := [], distribute := []
  sort := [], having := none, windows := [], qualify := none, windowsFirst := false
  hierarchy := [] }

/-- Sources of rows between commas. -/
def sources (g : Grammar) : Rule (List JoinedTable) := commaList (g .joinedTable)

/-- A selection from its first keyword on, the sources that stand before it being read. -/
def selectAfter (g : Grammar) (early : Option (List JoinedTable)) : Rule Select := do
  word "SELECT"
  let (repeated, distinctOn) ← repetition g
  let top ← top g
  let items ← selectItems g
  let into ← into
  let tables ← match early with
    | some tables => pure tables
    | none => givenList (word? "FROM") (sources g)
  let views ← many (lateralView g)
  let prewhere ← if ← allows Dialect.hasAnalyticalClauses then conditionAfter g "PREWHERE"
    else pure none
  let condition ← conditionAfter g "WHERE"
  let (groupsAll, group, groupModifiers) ← grouping g
  let cluster ← givenList (words? ["CLUSTER", "BY"]) g.exprs
  let distribute ← givenList (words? ["DISTRIBUTE", "BY"]) g.exprs
  let sort ← givenList (words? ["SORT", "BY"]) (sortKeys g)
  let having ← conditionAfter g "HAVING"
  let windowsBefore ← namedWindows g
  let qualify ← conditionAfter g "QUALIFY"
  let windowsAfter ← if windowsBefore.isEmpty && qualify.isSome then namedWindows g else pure []
  let hierarchy ← hierarchy g
  return { bareSelect with
    fromFirst := early.isSome, repetition := repeated, distinctOn, top, items, into, tables
    views := String.join views, prewhere, condition, groupsAll, group, groupModifiers, cluster
    distribute, sort, having, windows := windowsBefore ++ windowsAfter, qualify
    windowsFirst := !windowsBefore.isEmpty, hierarchy }

/-- A selection. Where the sources may stand first, they may also stand alone. -/
def select (g : Grammar) : Rule Select := do
  if ← andThen (← allows Dialect.selectsFromFirst) (word? "FROM") then
    let tables ← sources g
    if ← seesWord "SELECT" then selectAfter g (some tables)
    else return { bareSelect with fromFirst := true, hasSelect := false, tables }
  else selectAfter g none

/-! Bodies. -/

/-- A table as a body, after its word. The two tokens after the name's first part are
taken with it whether they belong to the name or not. -/
def tableBody : Rule Body := do
  let first ← next
  let second ← next
  let third ← next
  let wordOf := fun (lexeme : Lexeme) (what : String) => match lexeme.token with
    | .word value _ => pure value
    | _ => (fail (.expected what lexeme) : Rule String)
  if second.token == .symbol "." then
    let schema ← wordOf first "Schema name"
    return .table (some schema) (← wordOf third "Table name")
  else return .table none (← wordOf first "Table name")

/-- A body without set operators. -/
def plainBody (g : Grammar) : Rule Body := do
  let d ← dialect
  let opening ← peekWord
  if opening == "SELECT" || (opening == "FROM" && d.selectsFromFirst) then
    return .select (← select g)
  else if ← symbol? "(" then
    let query ← g .query
    symbol ")"
    return .query query
  else
    match ← oneOf? ["VALUES", "VALUE", "TABLE"] with
    | some "TABLE" => tableBody
    | some keyword => return valuesBody keyword (← valueRows g d.allowsEmptyRow)
    | none => expected "SELECT, VALUES, or a subquery in the query body"

/-- How tightly a set operator binds. -/
def setOperatorRank : String → Option Nat
  | "UNION" | "EXCEPT" | "MINUS" => some 10
  | "INTERSECT" => some 20
  | _ => none

/-- The words after a set operator. -/
def setQuantifier : Rule String := do
  if ← words? ["DISTINCT", "BY", "NAME"] then return " DISTINCT BY NAME"
  else if ← words? ["BY", "NAME"] then return " BY NAME"
  else if ← word? "ALL" then
    if ← words? ["BY", "NAME"] then return " ALL BY NAME" else return " ALL"
  else if ← word? "DISTINCT" then return " DISTINCT"
  else return ""

/-- Set operators for as long as they bind tighter than `rank`. Each takes a token. -/
def setOperations (g : Grammar) (rank : Nat) : Nat → Body → Rule Body
  | 0, left => return left
  | budget + 1, left => do
    let operator ← peekWord
    match setOperatorRank operator with
    | none => return left
    | some ahead =>
      if ahead ≤ rank then return left
      else
        let _ ← next
        let quantifier ← setQuantifier
        let right ← g (.body ahead)
        setOperations g rank budget (.operation left (operator ++ quantifier) right)

/-- A body whose set operators all bind tighter than `rank`. -/
def body (g : Grammar) (rank : Nat) : Rule Body := do
  let first ← plainBody g
  setOperations g rank ((← get).length + 1) first

/-! What stands around a body. -/

/-- One named query. -/
def cte (g : Grammar) : Rule Cte := do
  let cteName ← ident
  let columns ← if ← word? "AS" then pure [] else do
    let columns ← aliasColumns g
    word "AS"
    pure columns
  let materialized ← if ← allows Dialect.materialises then
      if ← word? "MATERIALIZED" then pure (some "MATERIALIZED")
      else if ← words? ["NOT", "MATERIALIZED"] then pure (some "NOT MATERIALIZED")
      else pure none
    else pure none
  let query ← parenthesised (g .query)
  let source ← given (word? "FROM") ident
  return ⟨cteName, columns, materialized, query, source⟩

/-- How gaps between ordered rows are filled. -/
def interpolation (g : Grammar) : Rule String := do
  if ← andThen (← allows Dialect.hasAnalyticalClauses) (word? "INTERPOLATE") then
    if ← symbol? "(" then
      let items ← commaListBefore ")" do
        let column ← ident
        let value ← given (word? "AS") g.expr
        return column.text ++ Expr.clause "AS" value
      symbol ")"
      return " INTERPOLATE (" ++ commas items ++ ")"
    else return " INTERPOLATE"
  else return ""

/-- The order of a query. -/
def ordering (g : Grammar) : Rule (OrderShape × List Expr) := do
  if ← words? ["ORDER", "BY"] then
    let keys ← sortKeys g
    return (.keys (← interpolation g), keys)
  else return (.unordered, [])

/-- Where the rows of a query start, after its word. -/
def offset (g : Grammar) : Rule (Expr × String) := do
  let count ← g.expr
  let unit ← oneOf? ["ROW", "ROWS"]
  return (count, afterBlank (unit.getD ""))

/-- How many rows there are, after the word: nothing stands for all of them. -/
def limitCount (g : Grammar) : Rule (Option Expr) := do
  if ← word? "ALL" then return none else return some (← g.expr)

/-- How many rows a query gives, and where they start. -/
def limit (g : Grammar) : Rule (LimitShape × List Expr) := do
  let d ← dialect
  let early ← given (word? "OFFSET") (offset g)
  let limited ← word? "LIMIT"
  let count ← if limited then limitCount g else pure none
  let comma ← if early.isNone && count.isSome && d.limitsWithComma then symbol? ","
    else pure false
  if comma then
    return (.comma, count.toList ++ [← g.expr])
  else
    let keys ← if limited && d.hasAnalyticalClauses then givenList (word? "BY") g.exprs
      else pure []
    let late ← if limited && early.isNone then given (word? "OFFSET") (offset g) else pure none
    let start := early.orElse fun _ => late
    if count.isSome || start.isSome || !keys.isEmpty then
      return (.rows count.isSome start.isSome ((start.map Prod.snd).getD ""),
        count.toList ++ (start.map Prod.fst).toList ++ keys)
    else return (.unlimited, [])

/-- Settings of one query. -/
def settings (g : Grammar) : Rule String := do
  if ← andThen (← allows Dialect.hasAnalyticalClauses) (word? "SETTINGS") then
    let items ← commaList do
      let key ← ident
      symbol "="
      return key.text ++ " = " ++ (← g.expr).text
    return " SETTINGS " ++ commas items
  else return ""

/-- How many rows are fetched. -/
def fetch : Rule String := do
  if ← word? "FETCH" then
    let _ ← oneOf? ["FIRST", "NEXT"]
    let count ← if (← oneOf? ["ROW", "ROWS"]).isSome then pure "" else do
      let count ← value
      let percent ← word? "PERCENT"
      let _ ← oneOf? ["ROW", "ROWS"]
      pure (" " ++ count ++ wordsIf percent " PERCENT")
    let only ← word? "ONLY"
    let ties ← if only then pure false else words? ["WITH", "TIES"]
    return " FETCH FIRST" ++ count ++ " ROWS " ++ (if ties then "WITH TIES" else "ONLY")
  else return ""

/-- A string in parentheses, where one follows. -/
def enclosedString (spelling : String) : Rule String := do
  if ← seesSymbol "(" then return spelling ++ "('" ++ (← parenthesised string) ++ "')"
  else return spelling

/-- The options of a result in another format, after a comma each. -/
def resultOptions (option : Rule String) : Rule String := do
  let options ← many (given (symbol? ",") option)
  return String.join (options.map (", " ++ ·))

/-- A result in XML, after its word. -/
def xmlResult : Rule String := do
  let mode ← match ← oneOf? ["RAW", "AUTO", "EXPLICIT", "PATH"] with
    | some "AUTO" => pure "AUTO"
    | some "EXPLICIT" => pure "EXPLICIT"
    | some mode => enclosedString mode
    | none => fail (.refused "Expected FOR XML [RAW | AUTO | EXPLICIT | PATH ]" none)
  let options ← resultOptions do
    match ← oneOf? ["ELEMENTS", "BINARY", "ROOT", "TYPE"] with
    | some "BINARY" => do
      word "BASE64"
      return "BINARY BASE64"
    | some "ROOT" => return "ROOT('" ++ (← parenthesised string) ++ "')"
    | some option => return option
    | none => return ""
  return " FOR XML " ++ mode ++ options

/-- A result in JSON, after its word. -/
def jsonResult : Rule String := do
  let mode ← match ← oneOf? ["AUTO", "PATH"] with
    | some mode => pure mode
    | none => fail (.refused "Expected FOR JSON [AUTO | PATH ]" none)
  let options ← resultOptions do
    match ← oneOf? ["INCLUDE_NULL_VALUES", "ROOT", "WITHOUT_ARRAY_WRAPPER"] with
    | some "ROOT" => return "ROOT('" ++ (← parenthesised string) ++ "')"
    | some option => return option
    | none => return ""
  return " FOR JSON " ++ mode ++ options

/-- A lock on rows, after its first word. -/
def lock : Rule String := do
  let kind ← oneOf ["UPDATE", "SHARE"]
  let table ← if ← word? "OF" then do pure (" OF " ++ Name.text (← name)) else pure ""
  let waiting ← if ← word? "NOWAIT" then pure " NOWAIT"
    else if ← words? ["SKIP", "LOCKED"] then pure " SKIP LOCKED"
    else pure ""
  return " FOR " ++ kind ++ table ++ waiting

/-- What a query is for: locks on its rows, or a result in another format, which comes
last. Each takes a token. -/
def purposes : Nat → Rule String
  | 0 => return ""
  | budget + 1 => do
    if ← word? "FOR" then
      match ← oneOf? ["XML", "JSON", "BROWSE"] with
      | some "XML" => xmlResult
      | some "JSON" => jsonResult
      | some _ => return " FOR BROWSE"
      | none => do
        let first ← lock
        return first ++ (← purposes budget)
    else return ""

/-- The format of the result. -/
def resultFormat : Rule String := do
  if ← andThen (← allows Dialect.hasAnalyticalClauses) (word? "FORMAT") then
    return " FORMAT " ++ (← ident).text
  else return ""

/-- A statement as a body, if its keyword comes next. -/
def changeBody (g : Grammar) : Rule (Option Body) := do
  match ← oneOf? ["INSERT", "UPDATE", "DELETE", "MERGE"] with
  | some "INSERT" => return some (.insertion (← g .insertion))
  | some "UPDATE" => return some (.update (← g .update))
  | some "DELETE" => return some (.deletion (← g .deletion))
  | some _ => do
    let _ ← g .merge
    return some .merge
  | none => return none

/-- A query with everything around its body. -/
def query (g : Grammar) : Rule Query := deeper do
  let named ← word? "WITH"
  let isRecursive ← if named then word? "RECURSIVE" else pure false
  let ctes ← if named then commaList (cte g) else pure []
  match ← changeBody g with
  | some body => return ⟨isRecursive, ctes, body, .unordered, [], .unlimited, [], ""⟩
  | none => do
    let body ← g (.body 0)
    let (orderShape, order) ← ordering g
    let (limitShape, limits) ← limit g
    let options ← settings g
    let fetched ← fetch
    let purpose ← purposes ((← get).length + 1)
    return ⟨isRecursive, ctes, body, orderShape, order, limitShape, limits,
      options ++ fetched ++ purpose ++ (← resultFormat)⟩

end Rule
end TableAccess.Sql
