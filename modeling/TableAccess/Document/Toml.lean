import TableAccess.Document.Json

/-! Settings files: tables of fields, which headers and dotted keys build up piece by
piece. A table may be opened by one header only, and what a key has put in place is
neither replaced nor added to by a header. -/
namespace TableAccess.Document
open TableAccess.Text

/-- What a table was made by, which decides who may add to it. -/
inductive TableOrigin where
  /-- A header of its own. -/
  | header
  /-- The header of a table inside it. -/
  | path
  /-- A dotted key. -/
  | dottedKey
  /-- Braces. -/
  | braces
deriving DecidableEq, Repr

/-- A value in a settings file. -/
inductive Setting where
  | text (content : String)
  | integer (n : Int)
  /-- A number with a fraction, a truth value or a date. -/
  | other
  | list (items : List Setting)
  | table (origin : TableOrigin) (fields : List (String × Setting))
  /-- The tables of a header in double brackets. -/
  | tables (rows : List (List (String × Setting)))
deriving Repr, Inhabited

namespace Setting

/-- The fields of a table. -/
abbrev Fields := List (String × Setting)

/-- Put a field in place. What is made of the field that is there may fail. -/
def put (key : String) (make : Option Setting → Option Setting) : Fields → Option Fields
  | [] => (make none).map fun v => [(key, v)]
  | (k, v) :: rest =>
    if k == key then (make (some v)).map fun v => (k, v) :: rest
    else (put key make rest).map fun rest => (k, v) :: rest

/-- Change the table at a path of headers. Tables on the way are made; of several rows the
last one counts. -/
def within (change : Fields → Option Fields) : List String → Fields → Option Fields
  | [], fields => change fields
  | key :: path, fields =>
    fields |> put key fun found =>
      match found with
      | none => (within change path []).map (.table .path)
      | some (.table origin inside) =>
        if origin == .braces then none else (within change path inside).map (.table origin)
      | some (.tables rows) =>
        (within change path (rows.getLast?.getD [])).map fun row => .tables (rows.dropLast ++ [row])
      | some _ => none

/-- Give a value to a dotted key. -/
def assign (value : Setting) : List String → Fields → Option Fields
  | [], _ => none
  | [key], fields => fields |> put key fun found => if found.isSome then none else some value
  | key :: path, fields =>
    fields |> put key fun found =>
      match found with
      | none => (assign value path []).map (.table .dottedKey)
      | some (.table origin inside) =>
        if origin == .dottedKey || origin == .path then
          (assign value path inside).map (.table origin)
        else none
      | some _ => none

/-- Open a table by its header. -/
def openTable (key : String) (fields : Fields) : Option Fields :=
  fields |> put key fun found =>
    match found with
    | none => some (.table .header [])
    | some (.table .path inside) => some (.table .header inside)
    | some _ => none

/-- Open one more row of a table. -/
def openRow (key : String) (fields : Fields) : Option Fields :=
  fields |> put key fun found =>
    match found with
    | none => some (.tables [[]])
    | some (.tables rows) => some (.tables (rows ++ [[]]))
    | some _ => none

end Setting

namespace Toml

/-- The text without the spaces and tabs before it. -/
def skipBlanks (text : List Char) : List Char := text.dropWhile fun c => c == ' ' || c == '\t'

/-- Whether a character may not stand in a file as it is. -/
def isControl (c : Char) : Bool := (c.toNat < 0x20 && c != '\t') || c.toNat == 0x7f

/-- What follows the end of a line. -/
def afterLineEnd? : List Char → Option (List Char)
  | '\n' :: rest => some rest
  | '\r' :: '\n' :: rest => some rest
  | _ => none

/-- The text behind a comment, which ends before the end of the line. -/
def skipComment : List Char → List Char
  | '#' :: rest => rest.dropWhile fun c => !isControl c
  | text => text

/-- The text behind blanks, comments and ends of lines. -/
def skipLines : Nat → List Char → List Char
  | 0, text => text
  | budget + 1, text =>
    let rest := skipComment (skipBlanks text)
    match afterLineEnd? rest with
    | some after => skipLines budget after
    | none => rest

/-- The text behind the end of a line or of the file. -/
def endOfLine? (text : List Char) : Option (List Char) :=
  match skipComment (skipBlanks text) with
  | [] => some []
  | rest => afterLineEnd? rest

/-- The character of an escape, and what follows it. -/
def escape? : List Char → Option (Char × List Char)
  | 'u' :: rest => code? 4 rest
  | 'U' :: rest => code? 8 rest
  | '"' :: rest => some ('"', rest)
  | '\\' :: rest => some ('\\', rest)
  | 'b' :: rest => some ('\x08', rest)
  | 't' :: rest => some ('\t', rest)
  | 'n' :: rest => some ('\n', rest)
  | 'f' :: rest => some ('\x0c', rest)
  | 'r' :: rest => some ('\r', rest)
  | _ => none
where
  /-- A character by its number. -/
  code? (width : Nat) (text : List Char) : Option (Char × List Char) := do
    let digits := text.take width
    if digits.length < width then none
    let n ← Json.hexValue? digits
    if h : n.isValidChar then return (Char.ofNatAux n h, text.drop width) else none

/-- The rest of a text on one line between double quotes, and what follows it. -/
def basic? : Nat → List Char → Option (List Char × List Char)
  | 0, _ => none
  | budget + 1, text =>
    match text with
    | [] => none
    | '"' :: rest => some ([], rest)
    | '\\' :: rest => do
      let (c, rest) ← escape? rest
      let (more, rest) ← basic? budget rest
      return (c :: more, rest)
    | c :: rest =>
      if isControl c then none
      else (basic? budget rest).map fun (more, rest) => (c :: more, rest)

/-- The rest of a text on one line between single quotes, and what follows it. -/
def literal? : List Char → Option (List Char × List Char)
  | [] => none
  | '\'' :: rest => some ([], rest)
  | c :: rest =>
    if isControl c then none else (literal? rest).map fun (more, rest) => (c :: more, rest)

/-- The quotes that end a text of several lines: three of them, with up to two more that
belong to the text. -/
def closing? (quote : Char) (text : List Char) : Option (List Char × List Char) :=
  let n := (text.takeWhile (· == quote)).length
  if n < 3 || n > 5 then none else some (List.replicate (n - 3) quote, text.drop n)

/-- The rest of a text of several lines, and what follows it. A backslash at the end of a
line takes away all blanks up to the next word. -/
def multiline? (quote : Char) : Nat → List Char → Option (List Char × List Char)
  | 0, _ => none
  | budget + 1, text =>
    match closing? quote text with
    | some found => some found
    | none =>
      match text with
      | [] => none
      | c :: rest =>
        if c == '\\' && quote == '"' then
          match afterLineEnd? (skipBlanks rest) with
          | some after => multiline? quote budget
              (after.dropWhile fun c => c == ' ' || c == '\t' || c == '\n' || c == '\r')
          | none => do
            let (e, rest) ← escape? rest
            let (more, rest) ← multiline? quote budget rest
            return (e :: more, rest)
        else
          match afterLineEnd? (c :: rest) with
          | some after =>
            (multiline? quote budget after).map fun (more, rest) => ('\n' :: more, rest)
          | none =>
            if isControl c then none
            else (multiline? quote budget rest).map fun (more, rest) => (c :: more, rest)

/-- A text of several lines; a line end right behind its opening quotes does not count. -/
def several? (quote : Char) (text : List Char) : Option (List Char × List Char) :=
  multiline? quote (text.length + 1) ((afterLineEnd? text).getD text)

/-- A text on one line. -/
def line? : List Char → Option (List Char × List Char)
  | '"' :: rest => basic? (rest.length + 1) rest
  | '\'' :: rest => literal? rest
  | _ => none

/-- A text. -/
def text? : List Char → Option (List Char × List Char)
  | '"' :: '"' :: '"' :: rest => several? '"' rest
  | '\'' :: '\'' :: '\'' :: rest => several? '\'' rest
  | text => line? text

/-- Whether a character may stand in a key without quotes. -/
def isKeyChar (c : Char) : Bool := isAsciiLetter c || isAsciiDigit c || c == '_' || c == '-'

/-- A part of a key. -/
def keyPart? (text : List Char) : Option (String × List Char) :=
  let bare := text.takeWhile isKeyChar
  if bare.isEmpty then (line? text).map fun (key, rest) => (String.ofList key, rest)
  else some (String.ofList bare, text.dropWhile isKeyChar)

/-- A key of one or more parts, and what follows the blanks behind it. -/
def key? : Nat → List Char → Option (List String × List Char)
  | 0, _ => none
  | budget + 1, text => do
    let (part, rest) ← keyPart? (skipBlanks text)
    match skipBlanks rest with
    | '.' :: rest => do
      let (more, rest) ← key? budget rest
      return (part :: more, rest)
    | rest => return ([part], rest)

/-- Digits to a base, between which single underscores may stand. -/
def separatedDigits? (isDigit : Char → Bool) (text : List Char) : Option (List Char) :=
  let parts := splitOnChar '_' text
  if parts.all fun part => !part.isEmpty && part.all isDigit then some parts.flatten else none

/-- A whole number. -/
def integer? (text : List Char) : Option Int :=
  let based := fun (base : Nat) (digits : List Char) => do
    let isDigit : Char → Bool := fun c =>
      match Json.hexDigit? c with
      | some d => d < base
      | none => false
    let digits ← separatedDigits? isDigit digits
    return (digits.foldl (fun n c => base * n + (Json.hexDigit? c).getD 0) 0 : Nat)
  match text with
  | '0' :: 'x' :: digits => (based 16 digits).map Int.ofNat
  | '0' :: 'o' :: digits => (based 8 digits).map Int.ofNat
  | '0' :: 'b' :: digits => (based 2 digits).map Int.ofNat
  | _ => do
    let (negative, digits) := match text with
      | '+' :: rest => (false, rest)
      | '-' :: rest => (true, rest)
      | _ => (false, text)
    if digits.head? == some '0' && digits.length > 1 then none
    let n := (decimalValue (← separatedDigits? isAsciiDigit digits) : Int)
    return if negative then -n else n

/-- Whether a text is a number with a fraction or an exponent. -/
def isFraction (text : List Char) : Bool :=
  let unsigned := match text with
    | '+' :: rest | '-' :: rest => rest
    | _ => text
  let isDigits := fun part => (separatedDigits? isAsciiDigit part).isSome
  let mantissa := unsigned.takeWhile fun c => c != 'e' && c != 'E'
  let whole := mantissa.takeWhile (· != '.')
  let wholeIsRight := isDigits whole && (whole.length == 1 || whole.head? != some '0')
  let fractionIsRight := match mantissa.dropWhile (· != '.') with
    | '.' :: fraction => isDigits fraction
    | _ => mantissa.length < unsigned.length
  let exponentIsRight := match unsigned.dropWhile (fun c => c != 'e' && c != 'E') with
    | [] => true
    | _ :: '+' :: exponent | _ :: '-' :: exponent => isDigits exponent
    | _ :: exponent => isDigits exponent
  unsigned == "inf".toList || unsigned == "nan".toList
    || (wholeIsRight && fractionIsRight && exponentIsRight)

/-- The number of two digits at the start of a text. -/
def twoDigits? : List Char → Option (Nat × List Char)
  | a :: b :: rest =>
    if isAsciiDigit a && isAsciiDigit b then some (decimalValue [a, b], rest) else none
  | _ => none

/-- What follows a time of day. -/
def afterTime? (text : List Char) : Option (List Char) := do
  let (hour, rest) ← twoDigits? text
  let (minute, rest) ← twoDigits? (← afterStart? [':'] rest)
  let (second, rest) ← twoDigits? (← afterStart? [':'] rest)
  if hour > 23 || minute > 59 || second > 60 then none
  match rest with
  | '.' :: fraction =>
    if (fraction.takeWhile isAsciiDigit).isEmpty then none else fraction.dropWhile isAsciiDigit
  | _ => return rest

/-- What follows a date. -/
def afterDate? (text : List Char) : Option (List Char) := do
  let (century, rest) ← twoDigits? text
  let (year, rest) ← twoDigits? rest
  let (month, rest) ← twoDigits? (← afterStart? ['-'] rest)
  let (day, rest) ← twoDigits? (← afterStart? ['-'] rest)
  let year := 100 * century + year
  let leap := year % 4 == 0 && (year % 100 != 0 || year % 400 == 0)
  let days := [31, if leap then 29 else 28, 31, 30, 31, 30, 31, 31, 30, 31, 30, 31]
  if day == 0 || month == 0 || day > days.getD (month - 1) 0 then none else return rest

/-- Whether a text is a date, a time or both. -/
def isMoment (text : List Char) : Bool :=
  match afterDate? text with
  | none => afterTime? text == some []
  | some [] => true
  | some (separator :: rest) =>
    let zone := if [' ', 'T', 't'].contains separator then afterTime? rest else none
    match zone with
    | none => false
    | some [] => true
    | some [z] => z == 'Z' || z == 'z'
    | some (sign :: rest) =>
      (sign == '+' || sign == '-') && afterTime? (rest ++ ":00".toList) == some []

/-- Whether a character may stand in a value without quotes. -/
def isBareChar (c : Char) : Bool := isKeyChar c || c == '+' || c == '.' || c == ':'

/-- A value without quotes as it is written. Between a date and a time there may be a
blank. -/
def bare (text : List Char) : List Char × List Char :=
  let first := text.takeWhile isBareChar
  let rest := text.dropWhile isBareChar
  match rest with
  | ' ' :: after =>
    if afterDate? first == some [] && (twoDigits? after).isSome then
      (first ++ ' ' :: after.takeWhile isBareChar, after.dropWhile isBareChar)
    else (first, rest)
  | _ => (first, rest)

/-- What a value without quotes is. -/
def bareValue? (written : List Char) : Option Setting :=
  match integer? written with
  | some n => some (.integer n)
  | none =>
    if written == "true".toList || written == "false".toList || isFraction written
        || isMoment written then some .other
    else none

mutual

/-- A value, and what follows it. -/
def value? : Nat → List Char → Option (Setting × List Char)
  | 0, _ => none
  | budget + 1, text =>
    match text with
    | '[' :: rest => (items? budget rest).map fun (items, rest) => (.list items, rest)
    | '\x7b' :: rest =>
      match skipBlanks rest with
      | '\x7d' :: rest => some (.table .braces [], rest)
      | rest => (fields? budget [] rest).map fun (fields, rest) => (.table .braces fields, rest)
    | _ =>
      match text.head? with
      | some '"' | some '\'' => (text? text).map fun (content, rest) =>
        (.text (String.ofList content), rest)
      | _ =>
        let (written, rest) := bare text
        (bareValue? written).map fun v => (v, rest)

/-- The items of a list up to its end. Lines may end between them, and a comma may stand
behind the last one. -/
def items? : Nat → List Char → Option (List Setting × List Char)
  | 0, _ => none
  | budget + 1, text =>
    match skipLines text.length text with
    | ']' :: rest => some ([], rest)
    | start => do
      let (item, rest) ← value? budget start
      match skipLines rest.length rest with
      | ']' :: rest => return ([item], rest)
      | ',' :: rest => do
        let (more, rest) ← items? budget rest
        return (item :: more, rest)
      | _ => none

/-- The fields of a table in braces up to its end. -/
def fields? : Nat → Setting.Fields → List Char → Option (Setting.Fields × List Char)
  | 0, _, _ => none
  | budget + 1, fields, text => do
    let (key, rest) ← key? (text.length + 1) text
    let rest ← afterStart? ['='] rest
    let (value, rest) ← value? budget (skipBlanks rest)
    let fields ← Setting.assign value key fields
    match skipBlanks rest with
    | '\x7d' :: rest => return (fields, rest)
    | ',' :: rest => fields? budget fields rest
    | _ => none

end

/-- The lines of a file, where `path` is the table that fields go to. -/
def document? : Nat → List String → Setting.Fields → List Char → Option Setting.Fields
  | 0, _, _, _ => none
  | budget + 1, path, fields, text =>
    match skipLines text.length text with
    | [] => some fields
    | '[' :: '[' :: rest => do
      let (key, rest) ← key? (rest.length + 1) rest
      let rest ← endOfLine? (← afterStart? [']', ']'] rest)
      let fields ← Setting.within (Setting.openRow (key.getLast?.getD "")) key.dropLast fields
      document? budget key fields rest
    | '[' :: rest => do
      let (key, rest) ← key? (rest.length + 1) rest
      let rest ← endOfLine? (← afterStart? [']'] rest)
      let fields ← Setting.within (Setting.openTable (key.getLast?.getD "")) key.dropLast fields
      document? budget key fields rest
    | start => do
      let (key, rest) ← key? (start.length + 1) start
      let (value, rest) ← value? (start.length + 1) (skipBlanks (← afterStart? ['='] rest))
      let rest ← endOfLine? rest
      let fields ← Setting.within (Setting.assign value key) path fields
      document? budget path fields rest

/-- Read a file. -/
def read? (text : String) : Option Setting.Fields :=
  let characters := text.toList
  let characters := if characters.head? == some '\ufeff' then characters.drop 1 else characters
  document? (characters.length + 1) [] [] characters

end Toml
end TableAccess.Document
