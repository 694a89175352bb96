import TableAccess.Sql.Grammar.Name

/-! Literals: values, parameters, and the words that name a part of a time. -/
namespace TableAccess.Sql
namespace Rule

/-- Strings that follow a string directly and belong to it. -/
def joinedStrings : Nat → Rule String
  | 0 => return ""
  | steps + 1 => do
    match (← peek).token with
    | .text .single value => do
      let _ ← next
      return value ++ (← joinedStrings steps)
    | .text .double value => do
      let _ ← next
      return value ++ (← joinedStrings steps)
    | _ => return ""

/-- What follows a colon or an at sign of a parameter, without a blank. -/
def parameterName (sign : String) : Rule String := do
  let found ← peek
  match found.token, found.touching with
  | .word value _, true => do
    let _ ← next
    return sign ++ value
  | .number digits false, true => do
    let _ ← next
    return sign ++ digits
  | _, _ => expected "placeholder"

/-- A value in its written form. -/
def value : Rule String := do
  let d ← dialect
  let found ← peek
  let give := fun (text : String) => do
    let _ ← next
    return text
  match found.token with
  | .word content (some q) =>
    if q == '"' then give (quoted '"' content)
    else if q == '\'' then give (quoted '\'' content)
    else expected "A value?"
  | .word _ none =>
    match found.token.keyword with
    | "TRUE" => if d.hasBooleans then give "true" else expected "a concrete value"
    | "FALSE" => if d.hasBooleans then give "false" else expected "a concrete value"
    | "NULL" => give "NULL"
    | _ => expected "a concrete value"
  | .number digits long => give (if long then digits ++ "L" else digits)
  | .text form content => do
    let _ ← next
    let joins := d.joinsStrings && (form == .single || form == .double)
    let more ← if joins then joinedStrings ((← get).length + 1) else pure ""
    return literalText form (content ++ more)
  | .dollarText _ _ => give found.token.shown
  | .parameter spelling => give spelling
  | .symbol ":" => do
    let _ ← next
    parameterName ":"
  | .symbol "@" => do
    let _ ← next
    parameterName "@"
  | _ => expected "a value"

/-- A number, in its written form. -/
def number : Rule String := do
  match (← peek).token with
  | .number digits long => do
    let _ ← next
    return if long then digits ++ "L" else digits
  | _ => do
    match ← attempt value with
    | some text =>
      if text.startsWith ":" || text.startsWith "?" || text.startsWith "$" || text.startsWith "@"
      then return text
      else expected "literal number"
    | none => expected "literal number"

/-- A number without sign or fraction that fits in 64 bits. -/
def wholeNumber : Rule String := do
  match (← peek).token with
  | .number digits _ =>
    let characters := digits.toList
    if !characters.all TableAccess.Text.isAsciiDigit then
      refuse ("Could not parse '" ++ digits ++ "' as u64: invalid digit found in string")
    else if Lexer.digitsValue 10 characters < Nat.pow 2 64 then
      let _ ← next
      return toString (Lexer.digitsValue 10 characters)
    else
      refuse ("Could not parse '" ++ digits
        ++ "' as u64: number too large to fit in target type")
  | _ => expected "literal int"

/-- A string without its quotes; a word stands for itself. -/
def string : Rule String := do
  let found ← peek
  let content := match found.token with
    | .text .single content => some content
    | .text .double content => some content
    | .text .escaped content => some content
    | .text .unicode content => some content
    | .word content _ => some content
    | _ => none
  match content with
  | some content => do
    let _ ← next
    return content
  | none => expected "literal string"

/-- Words that name a part of a time. -/
def timeWords : List String :=
  ["YEAR", "YEARS", "MONTH", "MONTHS", "WEEK", "WEEKS", "DAY", "DAYOFWEEK", "DAYOFYEAR", "DAYS",
    "DATE", "DATETIME", "HOUR", "HOURS", "MINUTE", "MINUTES", "SECOND", "SECONDS", "CENTURY",
    "DECADE", "DOY", "DOW", "EPOCH", "ISODOW", "ISOYEAR", "ISOWEEK", "JULIAN", "MICROSECOND",
    "MICROSECONDS", "MILLENIUM", "MILLENNIUM", "MILLISECOND", "MILLISECONDS", "NANOSECOND",
    "NANOSECONDS", "QUARTER", "TIME", "TIMEZONE", "TIMEZONE_ABBR", "TIMEZONE_HOUR",
    "TIMEZONE_MINUTE", "TIMEZONE_REGION"]

/-- Whether a word that names a part of a time comes next. -/
def seesTimeWord : Rule Bool := do return timeWords.contains (← peekWord)

/-- A part of a time. -/
def timePart : Rule String := do
  let d ← dialect
  let found ← peek
  match found.token with
  | .word _ _ =>
    let keyword := found.token.keyword
    if keyword == "WEEK" then
      let _ ← next
      if ← andThen (d == .generic) (symbol? "(") then
        let day ← ident
        symbol ")"
        return "WEEK(" ++ day.text ++ ")"
      else return keyword
    else if timeWords.contains keyword then
      let _ ← next
      return keyword
    else if d.extractsAnyField then return (← ident).text
    else expected "date/time field"
  | .text .single _ =>
    if d.extractsAnyField then return (← ident).text else expected "date/time field"
  | _ => expected "date/time field"

/-- A number in parentheses, where one follows. -/
def precision? : Rule (Option String) := do
  if ← symbol? "(" then
    let n ← wholeNumber
    symbol ")"
    return some n
  else return none

/-- The unit of an interval with its precision, and the last unit of a range. -/
def intervalUnit : Rule String := do
  let unit ← timePart
  if unit == "SECOND" then
    if ← symbol? "(" then
      let leading ← wholeNumber
      let fraction ← if ← symbol? "," then do pure (", " ++ (← wholeNumber)) else pure ""
      symbol ")"
      return " SECOND (" ++ leading ++ fraction ++ ")"
    else return " SECOND"
  else
    let inParentheses := fun (precision : Option String) =>
      match precision with
      | some n => " (" ++ n ++ ")"
      | none => ""
    let leading ← precision?
    if ← word? "TO" then
      let last ← timePart
      let fraction ← if last == "SECOND" then precision? else pure none
      return " " ++ unit ++ inParentheses leading ++ " TO " ++ last ++ inParentheses fraction
    else return " " ++ unit ++ inParentheses leading

/-- The unit of an interval, where it has one. -/
def optionalUnit : Rule String := do
  if ← seesTimeWord then intervalUnit
  else if ← allows Dialect.intervalNeedsUnit then
    refuse "INTERVAL requires a unit after the literal value"
  else
    match ← precision? with
    | some n => return " (" ++ n ++ ")"
    | none =>
      if ← word? "TO" then return " TO " ++ (← timePart) else return ""

end Rule
end TableAccess.Sql
