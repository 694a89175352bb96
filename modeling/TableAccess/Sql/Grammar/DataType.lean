import TableAccess.Sql.Grammar.Literal

/-! Data types. A type is read for its extent and its written form; the words are put
in capitals, and a type that is not built in is a name with modifiers. -/
namespace TableAccess.Sql
namespace Rule

/-- A type that is not treated apart. -/
def ordinaryType (text : String) : DataType := ⟨text, .ordinary⟩

/-- A length in parentheses. -/
def lengthText : Rule String := do
  match ← precision? with
  | some n => return "(" ++ n ++ ")"
  | none => return ""

/-- A precision in parentheses, with a scale where one is given. A scale may be
negative. -/
def precisionScale : Rule String := do
  if ← symbol? "(" then
    let precision ← wholeNumber
    let scale ← if ← symbol? "," then do
        let negative ← symbol? "-"
        let _ ← symbol? "+"
        let digits ← wholeNumber
        pure ("," ++ wordsIf negative "-" ++ digits)
      else pure ""
    symbol ")"
    return "(" ++ precision ++ scale ++ ")"
  else return ""

/-- The length of a character type, with its unit. -/
def characterLength : Rule String := do
  if ← symbol? "(" then
    let text ← if ← word? "MAX" then pure "MAX" else do
      let n ← wholeNumber
      let unit ← oneOf? ["CHARACTERS", "OCTETS"]
      pure (n ++ afterBlank (unit.getD ""))
    symbol ")"
    return "(" ++ text ++ ")"
  else return ""

/-- The length of a binary type. -/
def binaryLength : Rule String := do
  if ← symbol? "(" then
    let text ← if ← word? "MAX" then pure "MAX" else wholeNumber
    symbol ")"
    return "(" ++ text ++ ")"
  else return ""

/-- Whether a time has a zone. -/
def zoneWords : Rule String := do
  if ← word? "WITH" then
    words ["TIME", "ZONE"]
    return " WITH TIME ZONE"
  else if ← word? "WITHOUT" then
    words ["TIME", "ZONE"]
    return " WITHOUT TIME ZONE"
  else return ""

/-- Numbers of a word: their length, and whether they have a sign. -/
def integerType (name : String) : Rule DataType := do
  let length ← lengthText
  let d ← dialect
  if ← word? "UNSIGNED" then return ordinaryType (name ++ length ++ " UNSIGNED")
  else
    if d == .generic || d == .mysql then
      let _ ← word? "SIGNED"
    return ordinaryType (name ++ length)

/-- The modifiers of a type that is not built in. -/
def typeModifiers : Rule (List String) := do
  if ← symbol? "(" then
    let step : Rule (Option (List String)) := do
      let found ← peek
      match found.token with
      | .symbol ")" => do
        let _ ← next
        return none
      | .symbol "," => do
        let _ ← next
        return some []
      | .word value _ => do
        let _ ← next
        return some [value]
      | .number digits _ => do
        let _ ← next
        return some [digits]
      | .text .single value => do
        let _ ← next
        return some [value]
      | _ => expected "type modifiers"
    return (← many step).flatten
  else return []

/-- Values of an enumeration. -/
def enumValues : Rule String := do
  symbol "("
  let values ← commaList do
    match (← peek).token with
    | .text .single content => do
      let _ ← next
      if ← symbol? "=" then
        let n ← number
        return quoted '\'' content ++ " = " ++ n
      else return quoted '\'' content
    | _ => expected "a string"
  symbol ")"
  return "(" ++ commas values ++ ")"

/-- A closing angle bracket, which may have come together with the one before it. -/
def closingAngle (alreadyClosed : Bool) : Rule Bool := do
  if alreadyClosed then return false
  else if ← symbol? ">>" then return true
  else
    symbol ">"
    return false

/-- One field of a structure: a type, or a name and a type. -/
def structField (g : Grammar) : Rule (String × Bool) := do
  let first := (← peek).token
  let second := (← peekAt 1).token
  let isWord := fun
    | Token.word _ _ => true
    | _ => false
  let named := isWord first && (isWord second || second == .symbol ":")
  let name ← if named then do
      let i ← ident
      let _ ← symbol? ":"
      pure (i.text ++ " ")
    else pure ""
  let (type, closed) ← g .dataType
  return (name ++ type.text, closed)

/-- The fields of a structure between angle brackets. -/
def structFields (g : Grammar) : Nat → Rule (List String × Bool)
  | 0 => return ([], false)
  | steps + 1 => do
    let (field, closed) ← structField g
    if closed then return ([field], true)
    else if ← symbol? "," then
      let (rest, closed) ← structFields g steps
      return (field :: rest, closed)
    else return ([field], false)

/-- The fields of a structure type, where angle brackets follow. -/
def structType (g : Grammar) : Rule (List String × Bool) := do
  if ← symbol? "<" then
    let (fields, closed) ← structFields g ((← get).length + 1)
    let left ← closingAngle closed
    return (fields, left)
  else return ([], false)

/-- The fields that an interval is restricted to. -/
def intervalFields : Rule String := do
  let part := oneOf? ["YEAR", "DAY", "HOUR", "MINUTE", "MONTH", "SECOND"]
  match ← part with
  | none => return ""
  | some first => do
    let range ← attempt do
      word "TO"
      match ← part with
      | some last => return last
      | none => expected "a field"
    return " " ++ first ++ (match range with
      | some last => " TO " ++ last
      | none => "")

/-- A type that starts with this keyword, unless the keyword is none of a type. -/
def builtInType (g : Grammar) (keyword : String) : Rule (Option (DataType × Bool)) := do
  let d ← dialect
  let give := fun (rule : Rule DataType) => do
    let _ ← next
    let type ← rule
    return some (type, false)
  let plain := fun (text : String) => give (pure (ordinaryType text))
  let withLength := fun (text : String) => give do return ordinaryType (text ++ (← lengthText))
  let unsigned := fun (text : String) (rule : Rule String) => give do
    let detail ← rule
    let sign ← word? "UNSIGNED"
    return ordinaryType (text ++ detail ++ wordsIf sign " UNSIGNED")
  match keyword with
  | "BOOLEAN" | "BOOL" | "FLOAT4" | "FLOAT8" | "FLOAT32" | "FLOAT64" | "UUID" | "DATE" | "DATE32"
  | "JSON" | "JSONB" | "REGCLASS" | "TEXT" | "TINYTEXT" | "MEDIUMTEXT" | "LONGTEXT" | "BYTEA"
  | "TINYBLOB" | "MEDIUMBLOB" | "LONGBLOB" | "TRIGGER" | "INT16" | "INT32" | "INT64" | "INT128"
  | "INT256" | "UINT8" | "UINT16" | "UINT32" | "UINT64" | "UINT128" | "UINT256" | "HUGEINT"
  | "UBIGINT" | "UHUGEINT" | "USMALLINT" | "UTINYINT" => plain keyword
  | "FLOAT" => unsigned "FLOAT" precisionScale
  | "REAL" => unsigned "REAL" (pure "")
  | "DOUBLE" => unsigned "DOUBLE" do
    if ← word? "PRECISION" then return " PRECISION" else precisionScale
  | "TINYINT" | "INT2" | "SMALLINT" | "MEDIUMINT" | "INT" | "INT4" | "INT8" | "INTEGER"
  | "BIGINT" => give (integerType keyword)
  | "VARCHAR" | "NVARCHAR" => give do return ordinaryType (keyword ++ (← characterLength))
  | "CHARACTER" | "CHAR" => give do
    if ← word? "VARYING" then return ordinaryType (keyword ++ " VARYING" ++ (← characterLength))
    else if ← words? ["LARGE", "OBJECT"] then
      return ordinaryType (keyword ++ " LARGE OBJECT" ++ (← lengthText))
    else return ordinaryType (keyword ++ (← characterLength))
  | "BINARY" => give do return ordinaryType ("BINARY" ++ (← lengthText))
  | "VARBINARY" => give do return ordinaryType ("VARBINARY" ++ (← binaryLength))
  | "CLOB" | "BLOB" | "BYTES" | "VARBIT" | "DATETIME" | "STRING" | "TIMESTAMP_NTZ" =>
    withLength keyword
  | "BIT" => give do
    let varying ← word? "VARYING"
    return ordinaryType ("BIT" ++ wordsIf varying " VARYING" ++ (← lengthText))
  | "TIMESTAMP" | "TIME" => give do
    let length ← lengthText
    return ordinaryType (keyword ++ length ++ (← zoneWords))
  | "TIMESTAMPTZ" | "TIMETZ" => withLength keyword
  | "INTERVAL" => give do
    if d.hasIntervalFields then
      let fields ← intervalFields
      return ⟨"INTERVAL" ++ fields ++ (← lengthText), .interval⟩
    else return ⟨"INTERVAL", .interval⟩
  | "NUMERIC" | "DEC" | "BIGNUMERIC" | "BIGDECIMAL" => give do
    return ordinaryType (keyword ++ (← precisionScale))
  | "DECIMAL" => unsigned "DECIMAL" precisionScale
  | "ENUM" => give do return ordinaryType ("ENUM" ++ (← enumValues))
  | "SET" => give do return ordinaryType ("SET" ++ (← enumValues))
  | "ARRAY" => do
    let _ ← next
    symbol "<"
    let (inner, closed) ← g .dataType
    let left ← closingAngle closed
    return some (ordinaryType ("ARRAY<" ++ inner.text ++ ">"), left)
  | "STRUCT" =>
    if d.hasStructures then do
      let _ ← next
      let (fields, left) ← structType g
      let text := if fields.isEmpty then "STRUCT" else "STRUCT<" ++ commas fields ++ ">"
      return some (ordinaryType text, left)
    else return none
  | "TABLE" => give do
    if ← symbol? "(" then
      let columns ← commaList do
        let column ← ident
        let type ← g.type
        return column.text ++ " " ++ type.text
      symbol ")"
      return ordinaryType ("TABLE(" ++ commas columns ++ ")")
    else return ordinaryType "TABLE"
  | "SIGNED" | "UNSIGNED" => give do
    let integer ← word? "INTEGER"
    return ordinaryType (keyword ++ wordsIf integer " INTEGER")
  | "TSVECTOR" | "TSQUERY" => if d.hasBracketArrays then plain keyword else return none
  | "POINT" | "LINE" | "LSEG" | "BOX" | "PATH" | "POLYGON" | "CIRCLE" =>
    if d.hasGeometry then plain keyword else return none
  | _ => return none

/-- Brackets after a type make it an array; they may hold its size. -/
def arrayBrackets : Rule (Option String) := do
  if ← andThen (← allows Dialect.hasBracketArrays) (symbol? "[") then
    let size ← attempt wholeNumber
    symbol "]"
    return some ("[" ++ size.getD "" ++ "]")
  else return none

/-- A data type, and whether it took a closing bracket too many. -/
def dataType (g : Grammar) : Rule (DataType × Bool) := do
  let found ← peek
  match found.token with
  | .word _ _ => do
    let (type, left) ← match ← builtInType g found.token.keyword with
      | some known => pure known
      | none => do
        let typeName ← name
        let modifiers ← typeModifiers
        let text := Name.text typeName
          ++ wordsIf (!modifiers.isEmpty) ("(" ++ commas modifiers ++ ")")
        pure ((⟨text, .custom⟩ : DataType), false)
    let brackets ← many arrayBrackets
    if brackets.isEmpty then return (type, left)
    else return (ordinaryType (type.text ++ String.join brackets), left)
  | _ => expected "a data type name"

end Rule
end TableAccess.Sql
