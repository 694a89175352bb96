import TableAccess.Sql.Syntax
import TableAccess.Sql.Token

/-! The written form of a tree. Keywords are in capitals, lists are separated by a
comma and a blank, and every part stands on one line; comments and the layout of the
source are gone, while identifiers and literals keep their spelling. Call texts and the
names of unnamed output columns are written this way. -/
namespace TableAccess.Sql

/-- Join with a comma and a blank. -/
def commas (parts : List String) : String := String.intercalate ", " parts

/-- The words, if the condition holds. -/
def wordsIf (condition : Bool) (words : String) : String := if condition then words else ""

/-- A blank and the text, unless the text is empty. -/
def afterBlank (text : String) : String := if text.isEmpty then "" else " " ++ text

/-- Double the quotes of a content, except those that are doubled or escaped with a
backslash already: the content may have been written in either way. -/
def doubleQuotes (quote : Char) : Char → List Char → List Char
  | _, [] => []
  | previous, c :: rest =>
    if c == quote then
      if previous == '\\' then c :: doubleQuotes quote previous rest
      else match rest with
        | next :: more =>
          if next == quote then c :: next :: doubleQuotes quote c more
          else c :: c :: doubleQuotes quote c (next :: more)
        | [] => [c, c]
    else c :: doubleQuotes quote c rest
termination_by _ chars => chars.length

/-- A content between quotes. -/
def quoted (quote : Char) (content : String) : String :=
  String.ofList (quote :: doubleQuotes quote '\x00' content.toList ++ [quote])

/-- The character after a backslash that stands for this one in a string with escapes. -/
def escapedChar (c : Char) : List Char :=
  match c with
  | '\'' => ['\\', '\'']
  | '\\' => ['\\', '\\']
  | '\n' => ['\\', 'n']
  | '\t' => ['\\', 't']
  | '\r' => ['\\', 'r']
  | c => [c]

/-- Hexadecimal digits in capitals, filled up with zeros. -/
def paddedHex (width point : Nat) : String :=
  let digits := (Nat.toDigits 16 point).map Char.toUpper
  String.ofList (List.replicate (width - digits.length) '0' ++ digits)

/-- How a character is written in a string with code points. -/
def codePointChar (c : Char) : String :=
  if c == '\'' then "''"
  else if c == '\\' then "\\\\"
  else if c.toNat < 0x80 then c.toString
  else if c.toNat ≤ 0xffff then "\\" ++ paddedHex 4 c.toNat
  else "\\+" ++ paddedHex 6 c.toNat

/-- A string literal. -/
def literalText (form : TextForm) (value : String) : String :=
  match form with
  | .single => quoted '\'' value
  | .double => quoted '"' value
  | .escaped => "E'" ++ String.ofList (value.toList.flatMap escapedChar) ++ "'"
  | .unicode => "U&'" ++ String.join (value.toList.map codePointChar) ++ "'"
  | form => form.delimiters.1 ++ value ++ form.delimiters.2

/-- An identifier as it was quoted. -/
def Ident.text (i : Ident) : String :=
  match i.quote with
  | none => i.value
  | some '[' => "[" ++ i.value ++ "]"
  | some q => quoted q i.value

/-- A name in parts, separated by periods. -/
def Name.text (n : Name) : String := String.intercalate "." (n.map Ident.text)

/-- Names in a list. -/
def namesText (names : List Name) : String := commas (names.map Name.text)

/-- An alias with its columns. -/
def Alias.text (a : Alias) : String :=
  let column := fun (c : AliasColumn) => c.name.text ++ afterBlank (c.dataType.getD "")
  wordsIf a.explicit "AS " ++ a.name.text
    ++ wordsIf (!a.columns.isEmpty) (" (" ++ commas (a.columns.map column) ++ ")")

/-- A blank and the alias, where there is one. -/
def aliasText (aliasName : Option Alias) : String :=
  match aliasName with
  | none => ""
  | some a => " " ++ a.text

/-- The word of a pattern matching operator. -/
def LikeOperator.word : LikeOperator → String
  | .like => "LIKE"
  | .ilike => "ILIKE"
  | .similarTo => "SIMILAR TO"
  | .rlike => "RLIKE"
  | .regexp => "REGEXP"

/-- The word of a quantifier. -/
def Quantifier.word : Quantifier → String
  | .any => "ANY"
  | .some => "SOME"
  | .all => "ALL"

/-- Split a list into parts of the given sizes; what is left over is dropped. -/
def splitSizes {α : Type} : List Nat → List α → List (List α)
  | [], _ => []
  | size :: sizes, items => items.take size :: splitSizes sizes (items.drop size)

/-- One set among grouping sets. -/
def setText (bareSingles : Bool) (members : List String) : String :=
  match members with
  | [only] => if bareSingles then only else "(" ++ only ++ ")"
  | members => "(" ++ commas members ++ ")"

/-- A window, from the texts of its keys. -/
def windowText (base : Option Ident) (partition : List String) (order : List String)
    (frame : Option String) : String :=
  let parts := (base.map Ident.text).toList
    ++ (if partition.isEmpty then [] else ["PARTITION BY " ++ commas partition])
    ++ (if order.isEmpty then [] else ["ORDER BY " ++ commas order])
    ++ frame.toList
  "(" ++ String.intercalate " " parts ++ ")"

/-- A conversion of the text of a value. -/
def CastSpelling.write (spelling : CastSpelling) (operand type : String) (format : Option String) :
    String :=
  let called := fun (word : String) => word ++ "(" ++ operand ++ " AS " ++ type
    ++ (match format with
      | none => ""
      | some f => " FORMAT " ++ f) ++ ")"
  match spelling with
  | .cast => called "CAST"
  | .tryCast => called "TRY_CAST"
  | .safeCast => called "SAFE_CAST"
  | .doubleColon => operand ++ "::" ++ type

/-- What a conversion in call form makes of the text of its value. -/
def ConversionTarget.write (target : ConversionTarget) (operand : String) : String :=
  match target with
  | .charset name => operand ++ " USING " ++ Name.text name
  | .type text => operand ++ ", " ++ text
  | .typeWithCharset text name => operand ++ ", " ++ text ++ " CHARACTER SET " ++ Name.text name
  | .typeFirst text => text ++ ", " ++ operand

/-- How many rows a query gives, from the texts of its expressions. -/
def LimitShape.write (shape : LimitShape) (texts : List String) : String :=
  match shape with
  | .unlimited => ""
  | .rows hasCount hasOffset words =>
    let rest := if hasCount then texts.drop 1 else texts
    let keys := if hasOffset then rest.drop 1 else rest
    (if hasCount then " LIMIT " ++ texts.headD "" else "")
      ++ (if hasOffset then " OFFSET " ++ rest.headD "" ++ words else "")
      ++ (if keys.isEmpty then "" else " BY " ++ commas keys)
  | .comma => " LIMIT " ++ texts.headD "" ++ ", " ++ texts.getD 1 ""

/-- The order of a query, from the texts of its keys. -/
def OrderShape.write (shape : OrderShape) (keys : List String) : String :=
  match shape with
  | .unordered => ""
  | .keys interpolation => " ORDER BY " ++ commas keys ++ interpolation

/-- A named query, from its text. -/
def cteText (name : Ident) (columns : List AliasColumn) (materialized : Option String)
    (source : Option Ident) (query : String) : String :=
  Alias.text ⟨false, name, columns⟩ ++ " AS " ++ (match materialized with
    | none => ""
    | some m => m ++ " ") ++ "(" ++ query ++ ")"
    ++ (match source with
      | none => ""
      | some s => " FROM " ++ s.text)

/-- The column or columns that are written. -/
def Target.text : Target → String
  | .column name => Name.text name
  | .columns names => "(" ++ namesText names ++ ")"

/-- The list after a keyword, unless it is empty. -/
def clauseIf (keyword : String) (texts : List String) : String :=
  if texts.isEmpty then "" else " " ++ keyword ++ " " ++ commas texts

mutual

/-- The written form of an expression. -/
def Expr.text : Expr → String
  | .name i => i.text
  | .path parts => Name.text parts
  | .literal text => text
  | .typed text => text
  | .wildcard options => "*" ++ options
  | .qualifiedWildcard parts options => Name.text parts ++ ".*" ++ options
  | .access root chain => root.text ++ Selector.text chain
  | .nested inner => "(" ++ inner.text ++ ")"
  | .test operand words => operand.text ++ " " ++ words
  | .outerJoin column => column.text ++ " (+)"
  | .prior operand => "PRIOR " ++ operand.text
  | .before operator spaced operand => operator ++ wordsIf spaced " " ++ operand.text
  | .behind operand operator => operand.text ++ operator
  | .cast spelling operand type format => spelling.write operand.text type format
  | .extract part comma operand =>
    "EXTRACT(" ++ part ++ (if comma then ", " else " FROM ") ++ operand.text ++ ")"
  | .rounding word operand detail => word ++ "(" ++ operand.text ++ detail ++ ")"
  | .collate operand collation => operand.text ++ " COLLATE " ++ Name.text collation
  | .named value ident => value.text ++ " AS " ++ ident.text
  | .introduced charset value => charset.text ++ " " ++ value.text
  | .interval amount qualifier => "INTERVAL " ++ amount.text ++ qualifier
  | .distinctFrom left negated right =>
    left.text ++ " IS " ++ wordsIf negated "NOT " ++ "DISTINCT FROM " ++ right.text
  | .binary left operator right => left.text ++ " " ++ operator ++ " " ++ right.text
  | .quantified left operator quantifier parenthesised right =>
    left.text ++ " " ++ operator ++ " " ++ quantifier.word
      ++ (if parenthesised then "(" ++ right.text ++ ")" else right.text)
  | .like operand negated operator any pattern escape =>
    operand.text ++ " " ++ wordsIf negated "NOT " ++ operator.word ++ " " ++ wordsIf any "ANY "
      ++ pattern.text
      ++ (match escape with
        | none => ""
        | some e => " ESCAPE " ++ e)
  | .atTimeZone time zone => time.text ++ " AT TIME ZONE " ++ zone.text
  | .position sought searched => "POSITION(" ++ sought.text ++ " IN " ++ searched.text ++ ")"
  | .inList operand negated items =>
    operand.text ++ " " ++ wordsIf negated "NOT " ++ "IN (" ++ commas (Expr.texts items) ++ ")"
  | .inSubquery operand negated query =>
    operand.text ++ " " ++ wordsIf negated "NOT " ++ "IN (" ++ query.text ++ ")"
  | .inUnnest operand negated array =>
    operand.text ++ " " ++ wordsIf negated "NOT " ++ "IN UNNEST(" ++ array.text ++ ")"
  | .between operand negated low high =>
    operand.text ++ " " ++ wordsIf negated "NOT " ++ "BETWEEN " ++ low.text ++ " AND " ++ high.text
  | .convert tries operand target styles =>
    wordsIf tries "TRY_" ++ "CONVERT(" ++ target.write operand.text
      ++ String.join ((Expr.texts styles).map (", " ++ ·)) ++ ")"
  | .substring short commas whole start length =>
    "SUBSTR" ++ wordsIf (!short) "ING" ++ "(" ++ whole.text
      ++ Expr.after (if commas then ", " else " FROM ") start
      ++ Expr.after (if commas then ", " else " FOR ") length ++ ")"
  | .trim side whole what characters =>
    "TRIM(" ++ (match side with
      | none => ""
      | some s => s ++ " ")
      ++ (match what with
        | none => ""
        | some w => w.text ++ " FROM ")
      ++ whole.text ++ String.join ((Expr.texts characters).map (", " ++ ·)) ++ ")"
  | .overlay whole replacement start length =>
    "OVERLAY(" ++ whole.text ++ " PLACING " ++ replacement.text ++ " FROM " ++ start.text
      ++ Expr.after " FOR " length ++ ")"
  | .call callee braces parameters arguments nulls filter window within =>
    let keys := Expr.texts within
    let text := Name.text callee ++ parameters.text ++ arguments.text
      ++ (if keys.isEmpty then "" else " WITHIN GROUP (ORDER BY " ++ commas keys ++ ")")
      ++ (match filter with
        | none => ""
        | some condition => " FILTER (WHERE " ++ condition.text ++ ")")
      ++ afterBlank (nulls.getD "") ++ Expr.after " OVER " window
    if braces then "\x7bfn " ++ text ++ "\x7d" else text
  | .case operand branches otherwise =>
    "CASE" ++ Expr.after " " operand ++ String.join (Branch.texts branches)
      ++ Expr.after " ELSE " otherwise ++ " END"
  | .exists negated query => wordsIf negated "NOT " ++ "EXISTS (" ++ query.text ++ ")"
  | .subquery query => "(" ++ query.text ++ ")"
  | .sets word bareSingles sets =>
    word ++ " (" ++ commas ((Expr.textsOfSets sets).map (setText bareSingles)) ++ ")"
  | .tuple items => "(" ++ commas (Expr.texts items) ++ ")"
  | .struct fields values =>
    "STRUCT" ++ (if fields.isEmpty then "" else "<" ++ commas fields ++ ">")
      ++ "(" ++ commas (Expr.texts values) ++ ")"
  | .array spelled elements => wordsIf spelled "ARRAY" ++ "[" ++ commas (Expr.texts elements) ++ "]"
  | .dictionary members => "\x7b" ++ commas (Member.texts members) ++ "\x7d"
  | .map entries => "MAP \x7b" ++ commas (Entry.texts entries) ++ "\x7d"
  | .search columns against => "MATCH (" ++ namesText columns ++ ") AGAINST (" ++ against ++ ")"
  | .memberOf value array => value.text ++ " MEMBER OF(" ++ array.text ++ ")"
  | .namedArgument ident operator value => ident.text ++ " " ++ operator ++ " " ++ value.text
  | .labelledArgument label operator value => label.text ++ " " ++ operator ++ " " ++ value.text
  | .sorted key direction fill =>
    key.text ++ direction ++ (match fill with
      | none => ""
      | some f => f.text)
  | .window base partition order frame =>
    windowText base (Expr.texts partition) (Expr.texts order) (match frame with
      | none => none
      | some f => some f.text)
  | .windowNamed ident => ident.text
  | .windowDefinition ident window => ident.text ++ " AS " ++ window.text

/-- The written forms of several expressions. -/
def Expr.texts : List Expr → List String
  | [] => []
  | e :: rest => e.text :: Expr.texts rest

/-- The written forms of the members of several sets. -/
def Expr.textsOfSets : List (List Expr) → List (List String)
  | [] => []
  | members :: rest => Expr.texts members :: Expr.textsOfSets rest

/-- The written form of an expression after some words, where there is one. -/
def Expr.after (words : String) : Option Expr → String
  | none => ""
  | some e => words ++ e.text

/-- The written form of an expression after a keyword, where there is one. -/
def Expr.clause (keyword : String) : Option Expr → String
  | none => ""
  | some e => " " ++ keyword ++ " " ++ e.text

/-- The written form of what is taken from a value. -/
def Selector.text : List Selector → String
  | [] => ""
  | .field part :: rest => "." ++ part.text ++ Selector.text rest
  | .element index :: rest => "[" ++ index.text ++ "]" ++ Selector.text rest
  | .slice lower upper stride :: rest =>
    "[" ++ Expr.after "" lower ++ ":" ++ Expr.after "" upper ++ Expr.after ":" stride ++ "]"
      ++ Selector.text rest

/-- The written forms of the branches of a case expression, each with a blank in front. -/
def Branch.texts : List Branch → List String
  | [] => []
  | ⟨condition, result⟩ :: rest =>
    (" WHEN " ++ condition.text ++ " THEN " ++ result.text) :: Branch.texts rest

/-- The written forms of the members of a dictionary. -/
def Member.texts : List Member → List String
  | [] => []
  | ⟨key, value⟩ :: rest => (key.text ++ ": " ++ value.text) :: Member.texts rest

/-- The written forms of the entries of a map. -/
def Entry.texts : List Entry → List String
  | [] => []
  | ⟨key, value⟩ :: rest => (key.text ++ ": " ++ value.text) :: Entry.texts rest

/-- The written form of what stands between the parentheses of a call, with them. -/
def Arguments.text : Arguments → String
  | .absent => ""
  | .query query => "(" ++ query.text ++ ")"
  | .list duplicates items clauses =>
    let written := Expr.texts items
    let tail := ArgumentClause.texts clauses
    "(" ++ (match duplicates with
      | none => ""
      | some d => d ++ " ")
      ++ commas written ++ wordsIf (!tail.isEmpty && !written.isEmpty) " "
      ++ String.intercalate " " tail ++ ")"

/-- The written forms of the clauses among the arguments of a call. -/
def ArgumentClause.texts : List ArgumentClause → List String
  | [] => []
  | .orderBy keys :: rest => ("ORDER BY " ++ commas (Expr.texts keys)) :: ArgumentClause.texts rest
  | .limit count :: rest => ("LIMIT " ++ count.text) :: ArgumentClause.texts rest
  | .having kind bound :: rest =>
    ("HAVING " ++ kind ++ " " ++ bound.text) :: ArgumentClause.texts rest
  | .overflow filler counted :: rest =>
    ("ON OVERFLOW TRUNCATE" ++ Expr.after " " filler ++ (if counted then " WITH" else " WITHOUT")
      ++ " COUNT") :: ArgumentClause.texts rest
  | .words text :: rest => text :: ArgumentClause.texts rest

/-- How gaps between sorted values are filled, in words. -/
def Fill.text : Fill → String
  | ⟨start, finish, step⟩ =>
    " WITH FILL" ++ Expr.clause "FROM" start ++ Expr.clause "TO" finish ++ Expr.clause "STEP" step

/-- The written form of a window frame. -/
def WindowFrame.text : WindowFrame → String
  | ⟨unit, start, none⟩ => unit ++ " " ++ start.text
  | ⟨unit, start, some finish⟩ => unit ++ " BETWEEN " ++ start.text ++ " AND " ++ finish.text

/-- The written form of the bound of a window frame. -/
def FrameBound.text : FrameBound → String
  | .currentRow => "CURRENT ROW"
  | .preceding none => "UNBOUNDED PRECEDING"
  | .preceding (some rows) => rows.text ++ " PRECEDING"
  | .following none => "UNBOUNDED FOLLOWING"
  | .following (some rows) => rows.text ++ " FOLLOWING"

/-- The written form of a query. -/
def Query.text : Query → String
  | ⟨isRecursive, ctes, body, orderShape, order, limitShape, limits, suffix⟩ =>
    (match Cte.texts ctes with
      | [] => ""
      | texts => "WITH " ++ wordsIf isRecursive "RECURSIVE " ++ commas texts ++ " ")
      ++ body.text ++ orderShape.write (Expr.texts order) ++ limitShape.write (Expr.texts limits)
      ++ suffix

/-- The written forms of named queries. -/
def Cte.texts : List Cte → List String
  | [] => []
  | ⟨name, columns, materialized, query, source⟩ :: rest =>
    cteText name columns materialized source query.text :: Cte.texts rest

/-- The written form of a body. -/
def Body.text : Body → String
  | .select select => select.text
  | .query query => "(" ++ query.text ++ ")"
  | .operation left operator right => left.text ++ " " ++ operator ++ " " ++ right.text
  | .values keyword rowWord sizes cells =>
    let rows := (splitSizes sizes (Expr.texts cells)).map fun row =>
      rowWord ++ "(" ++ commas row ++ ")"
    keyword ++ " " ++ commas rows
  | .table none name => "TABLE " ++ name
  | .table (some schema) name => "TABLE " ++ schema ++ "." ++ name
  | .insertion insertion => insertion.text
  | .update update => update.text
  | .deletion deletion => deletion.text
  | .merge => "MERGE"

/-- The written form of a selection. -/
def Select.text : Select → String
  | ⟨fromFirst, hasSelect, repetition, distinctOn, top, items, into, tables, views, prewhere,
      condition, groupsAll, group, groupModifiers, cluster, distribute, sort, having, windows,
      qualify, windowsFirst, hierarchy⟩ =>
    let sources := commas (JoinedTable.texts tables)
    let head := (if fromFirst then "FROM " ++ sources ++ wordsIf hasSelect " SELECT" else "SELECT")
      ++ (match repetition with
        | .kept => ""
        | .dropped => " DISTINCT"
        | .droppedOn => " DISTINCT ON (" ++ commas (Expr.texts distinctOn) ++ ")")
    let windowText := clauseIf "WINDOW" (Expr.texts windows)
    let qualifyText := Expr.clause "QUALIFY" qualify
    head ++ top ++ afterBlank (commas (SelectItem.texts items)) ++ into
      ++ wordsIf (!fromFirst && !sources.isEmpty) (" FROM " ++ sources)
      ++ views ++ Expr.clause "PREWHERE" prewhere ++ Expr.clause "WHERE" condition
      ++ (if groupsAll then " GROUP BY ALL" ++ groupModifiers
        else match Expr.texts group with
          | [] => ""
          | texts => " GROUP BY " ++ commas texts ++ groupModifiers)
      ++ clauseIf "CLUSTER BY" (Expr.texts cluster)
      ++ clauseIf "DISTRIBUTE BY" (Expr.texts distribute)
      ++ clauseIf "SORT BY" (Expr.texts sort) ++ Expr.clause "HAVING" having
      ++ (if windowsFirst then windowText ++ qualifyText else qualifyText ++ windowText)
      ++ (match Expr.texts hierarchy with
        | [] => ""
        | start :: relationships =>
          " START WITH " ++ start ++ " CONNECT BY " ++ commas relationships)

/-- The written forms of the items of a select list. -/
def SelectItem.texts : List SelectItem → List String
  | [] => []
  | ⟨value, none⟩ :: rest => value.text :: SelectItem.texts rest
  | ⟨value, some aliasName⟩ :: rest =>
    (value.text ++ " AS " ++ aliasName.text) :: SelectItem.texts rest

/-- The written form of a source with its joins. -/
def JoinedTable.text : JoinedTable → String
  | ⟨relation, joins⟩ => relation.text ++ String.join (Join.texts joins)

/-- The written forms of several sources. -/
def JoinedTable.texts : List JoinedTable → List String
  | [] => []
  | t :: rest => t.text :: JoinedTable.texts rest

/-- The written form of a source of rows. -/
def Relation.text : Relation → String
  | .table name before aliasName after => Name.text name ++ before ++ aliasText aliasName ++ after
  | .derived isLateral query aliasName =>
    wordsIf isLateral "LATERAL " ++ "(" ++ query.text ++ ")" ++ aliasText aliasName
  | .nested joined aliasName => "(" ++ joined.text ++ ")" ++ aliasText aliasName
  | .unnest arrays ordinality aliasName offset =>
    "UNNEST(" ++ commas (Expr.texts arrays) ++ ")" ++ wordsIf ordinality " WITH ORDINALITY"
      ++ aliasText aliasName ++ offset
  | .tableFunction call aliasName => "TABLE(" ++ call.text ++ ")" ++ aliasText aliasName
  | .other text aliasName => text ++ aliasText aliasName

/-- The written forms of joins, each with a blank in front. -/
def Join.texts : List Join → List String
  | [] => []
  | ⟨words, relation, matching, tie, condition⟩ :: rest =>
    let natural := match tie with
      | .natural => "NATURAL "
      | _ => ""
    let ending := match tie with
      | .shared columns => " USING(" ++ namesText columns ++ ")"
      | _ => Expr.clause "ON" condition
    let matched := match matching with
      | none => ""
      | some e => " MATCH_CONDITION (" ++ e.text ++ ")"
    (" " ++ natural ++ words ++ " " ++ relation.text ++ matched ++ ending) :: Join.texts rest

/-- The written forms of assignments. -/
def Assignment.texts : List Assignment → List String
  | [] => []
  | ⟨target, value⟩ :: rest => (target.text ++ " = " ++ value.text) :: Assignment.texts rest

/-- The written form of an insertion. -/
def Insertion.text : Insertion → String
  | ⟨words, table, aliasName, columns, source, assignments, rowAlias, upsert, upsertAssignments,
      upsertCondition, returning⟩ =>
    let targets := fun (names : List Ident) => "(" ++ commas (names.map Ident.text) ++ ")"
    words ++ " " ++ Name.text table ++ (match aliasName with
      | none => ""
      | some a => " AS " ++ a.text)
      ++ (if columns.isEmpty then "" else " " ++ targets columns)
      ++ (match source with
        | some query => " " ++ query.text
        | none => "")
      ++ clauseIf "SET" (Assignment.texts assignments)
      ++ (match rowAlias with
        | none => ""
        | some a => " AS " ++ Name.text a)
      ++ (match upsert with
        | none => ""
        | some .duplicateKey =>
          " ON DUPLICATE KEY UPDATE " ++ commas (Assignment.texts upsertAssignments)
        | some (.nothing names) =>
          " ON CONFLICT" ++ afterBlank ((names.map targets).getD "") ++ " DO NOTHING"
        | some (.update names) =>
          " ON CONFLICT" ++ afterBlank ((names.map targets).getD "") ++ " DO UPDATE SET "
            ++ commas (Assignment.texts upsertAssignments)
            ++ Expr.clause "WHERE" upsertCondition)
      ++ clauseIf "RETURNING" (SelectItem.texts returning)

/-- The written form of an update. -/
def Update.text : Update → String
  | ⟨words, table, sourcesFirst, sources, assignments, condition, returning, limit⟩ =>
    let origin := clauseIf "FROM" (JoinedTable.texts sources)
    words ++ " " ++ table.text ++ wordsIf sourcesFirst origin
      ++ clauseIf "SET" (Assignment.texts assignments) ++ wordsIf (!sourcesFirst) origin
      ++ Expr.clause "WHERE" condition ++ clauseIf "RETURNING" (SelectItem.texts returning)
      ++ Expr.clause "LIMIT" limit

/-- The written form of a deletion. -/
def Deletion.text : Deletion → String
  | ⟨tables, hasFrom, sources, _, others, condition, returning, order, limit⟩ =>
    "DELETE" ++ afterBlank (namesText tables) ++ wordsIf hasFrom " FROM" ++ " "
      ++ commas (JoinedTable.texts sources)
      ++ clauseIf "USING" (JoinedTable.texts others) ++ Expr.clause "WHERE" condition
      ++ clauseIf "RETURNING" (SelectItem.texts returning)
      ++ clauseIf "ORDER BY" (Expr.texts order) ++ Expr.clause "LIMIT" limit

end

end TableAccess.Sql
