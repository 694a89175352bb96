import TableAccess.Document.Data
import TableAccess.Document.Json

/-! Data written in YAML, in blocks. A text stands without quotes if it is read as the
same text then; a text of several lines is a block of its own; anything else is quoted. -/
namespace TableAccess.Document.YamlText
open TableAccess.Text

/-- Words that are read as absent values or as truth values. -/
def valueWords : List String :=
  ["", "~", "null", "Null", "NULL", "true", "True", "TRUE", "false", "False", "FALSE",
    ".inf", ".Inf", ".INF", "+.inf", "+.Inf", "+.INF", "-.inf", "-.Inf", "-.INF",
    ".nan", ".NaN", ".NAN"]

/-- A sign and what follows it. -/
def signOf : List Char → Option Char × List Char
  | '+' :: rest => (some '+', rest)
  | '-' :: rest => (some '-', rest)
  | text => (none, text)

/-- The value of digits to a base, of which there must be some. -/
def baseValue? (base : Nat) (digits : List Char) : Option Nat :=
  if digits.isEmpty then none
  else digits.foldlM (fun n c =>
    match Json.hexDigit? c with
    | some d => if d < base then some (base * n + d) else none
    | none => none) 0

/-- Whether a text is a whole number to base 16, 8 or 2, of 128 bits. -/
def isBaseNumber (text : List Char) : Bool :=
  let (sign, rest) := signOf text
  let value := match rest with
    | '0' :: 'x' :: digits => baseValue? 16 digits
    | '0' :: 'o' :: digits => baseValue? 8 digits
    | '0' :: 'b' :: digits => baseValue? 2 digits
    | _ => none
  match value with
  | some n => if sign == some '-' then n ≤ Nat.pow 2 127 else n < Nat.pow 2 128
  | none => false

/-- The least number that no float of 64 bits is near to. -/
def floatLimit : Nat := Nat.pow 2 1024 - Nat.pow 2 970

/-- Whether `digits` times ten to the power of `scale` is below the greatest floats. -/
def isFinite (digits : List Char) (scale : Int) : Bool :=
  let significant := digits.dropWhile (· == '0')
  let magnitude : Int := significant.length + scale
  if significant.isEmpty || magnitude < 309 then true
  else if magnitude > 309 then false
  else if 0 ≤ scale then decimalValue significant * Nat.pow 10 scale.toNat < floatLimit
  else decimalValue significant < floatLimit * Nat.pow 10 (-scale).toNat

/-- Whether a text is a decimal number that a float can hold. -/
def isDecimalNumber (text : List Char) : Bool :=
  let (_, text) := signOf text
  let whole := text.takeWhile isAsciiDigit
  let (part, rest) := match text.dropWhile isAsciiDigit with
    | '.' :: rest => (rest.takeWhile isAsciiDigit, rest.dropWhile isAsciiDigit)
    | rest => ([], rest)
  let exponent : Option Int := match rest with
    | [] => some 0
    | e :: rest =>
      let (sign, digits) := signOf rest
      if (e == 'e' || e == 'E') && !digits.isEmpty && digits.all isAsciiDigit then
        some (if sign == some '-' then -(decimalValue digits) else decimalValue digits)
      else none
  match exponent with
  | some e => !(whole ++ part).isEmpty && isFinite (whole ++ part) (e - part.length)
  | none => false

/-- Whether a text is made of digits with a zero in front, which readers take for a
number or not. -/
def isPaddedNumber (text : List Char) : Bool :=
  let (_, digits) := signOf text
  digits.length > 1 && digits.head? == some '0' && digits.all isAsciiDigit

/-- Whether a text would be read as something else without quotes. -/
def needsQuotes (content : String) : Bool :=
  let text := content.toList
  valueWords.contains content || isPaddedNumber text || isBaseNumber text || isDecimalNumber text

/-- Whether a character may stand in a text that has no escapes. -/
def isPrintable (c : Char) : Bool :=
  let n := c.toNat
  n == 0x0a || (0x20 ≤ n && n ≤ 0x7e) || (0xa0 ≤ n && n ≤ 0xd7ff)
    || (0xe000 ≤ n && n ≤ 0xfffd && n != 0xfeff) || 0x10000 ≤ n

/-- Whether a character ends a line. -/
def isLineEnd (c : Char) : Bool :=
  c == '\n' || c == '\r' || c == '\x85' || c == '\u2028' || c == '\u2029'

/-- Whether nothing, a blank or the end of a line follows. -/
def endsHere (text : List Char) : Bool :=
  match text with
  | [] => true
  | c :: _ => c == ' ' || c == '\t' || c == '\x00' || isLineEnd c

/-- Whether a text starts with a character that has a meaning there. -/
def startsSpecial : List Char → Bool
  | [] => false
  | c :: rest =>
    "#,[]\x7b\x7d&*!|>'\"%@\x60".toList.contains c
      || ((c == '?' || c == ':' || c == '-') && endsHere rest)

/-- Whether a colon or a number sign stands in the text where it has a meaning. `blank`
says that a blank stands before the text. -/
def hasIndicator (blank : Bool) : List Char → Bool
  | [] => false
  | c :: rest =>
    (c == ':' && endsHere rest) || (c == '#' && blank) || hasIndicator (endsHere [c]) rest

/-- Whether two characters of two kinds stand side by side. -/
def hasPair (first second : Char → Bool) : List Char → Bool
  | a :: b :: rest => (first a && second b) || hasPair first second (b :: rest)
  | _ => false

/-- Whether a text starts or ends with one of some characters. -/
def hasAtEdge (p : Char → Bool) (text : List Char) : Bool :=
  (text.head?.map p).getD false || (text.getLast?.map p).getD false

/-- Whether a text is read as itself without quotes. -/
def allowsPlain (text : List Char) : Bool :=
  !text.any isLineEnd && text.all isPrintable && !hasAtEdge (· == ' ') text
    && (afterStart? "---".toList text).isNone && (afterStart? "...".toList text).isNone
    && !startsSpecial text && !hasIndicator false (text.drop 1)

/-- Whether a text can stand between single quotes, where lines are joined at blanks. -/
def allowsSingle (text : List Char) : Bool :=
  text.all isPrintable && !hasPair (· == ' ') isLineEnd text && !hasPair isLineEnd (· == ' ') text

/-- Whether a text can be a block of lines. -/
def allowsBlock (text : List Char) : Bool :=
  text.all isPrintable && !hasPair (· == ' ') isLineEnd text && text.getLast? != some ' '

/-- The digits of a number to base 16, in capitals, with zeros in front. -/
def hexDigits : Nat → Nat → List Char
  | 0, _ => []
  | width + 1, n => hexDigits width (n / 16) ++ ["0123456789ABCDEF".toList.getD (n % 16) '0']

/-- The letter of the escape of a character, where there is one. -/
def escapeLetter? (c : Char) : Option Char :=
  let letters := [('\x00', '0'), ('\x07', 'a'), ('\x08', 'b'), ('\t', 't'), ('\n', 'n'),
    ('\x0b', 'v'), ('\x0c', 'f'), ('\r', 'r'), ('\x1b', 'e'), ('"', '"'), ('\\', '\\'),
    ('\x85', 'N'), ('\xa0', '_'), ('\u2028', 'L'), ('\u2029', 'P')]
  (letters.find? fun entry => entry.1 == c).map Prod.snd

/-- A character as it stands between double quotes. -/
def doubleQuotedChar (c : Char) : List Char :=
  if isPrintable c && !isLineEnd c && c != '"' && c != '\\' then [c]
  else match escapeLetter? c with
    | some letter => ['\\', letter]
    | none =>
      let n := c.toNat
      if n ≤ 0xff then '\\' :: 'x' :: hexDigits 2 n
      else if n ≤ 0xffff then '\\' :: 'u' :: hexDigits 4 n
      else '\\' :: 'U' :: hexDigits 8 n

/-- A text between double quotes. -/
def doubleQuoted (text : List Char) : String :=
  "\"" ++ String.ofList (text.flatMap doubleQuotedChar) ++ "\""

/-- A text between single quotes; a quote inside is written twice. -/
def singleQuoted (text : List Char) : String :=
  "'" ++ String.ofList (text.flatMap fun c => if c == '\'' then [c, c] else [c]) ++ "'"

/-- The first line of a block of lines. A digit tells the indentation where the text
itself starts with a blank, and a sign tells which line ends belong to the end of the
text: none, one or all of them. -/
def blockHeader (text : List Char) : String :=
  let hint := match text with
    | c :: _ => if c == ' ' || isLineEnd c then "2" else ""
    | [] => ""
  let ending := match text.reverse with
    | [] => "-"
    | last :: before =>
      if !isLineEnd last then "-"
      else match before with
        | [] => "+"
        | c :: _ => if isLineEnd c then "+" else ""
  "|" ++ hint ++ ending

/-- The lines of a text. A line end at its end starts no further line. -/
def textLines (text : List Char) : List String :=
  let parts := splitOnChar '\n' text
  let parts := if text.getLast? == some '\n' then parts.dropLast else parts
  parts.map String.ofList

/-- A text on one line. A key must not be empty without quotes. -/
def inlineText (isKey : Bool) (content : String) : String :=
  let text := content.toList
  if !needsQuotes content && allowsPlain text && !(isKey && text.isEmpty) then content
  else if allowsSingle text then singleQuoted text
  else doubleQuoted text

/-- The lines of a text. -/
def scalar (content : String) : List String :=
  let text := content.toList
  if !text.contains '\n' then [inlineText false content]
  else if allowsBlock text then blockHeader text :: indented (textLines text)
  else [doubleQuoted text]

/-- Whether a key is written in front of its value on one line. -/
def isSimpleKey (key : String) : Bool := !key.toList.any isLineEnd && key.utf8ByteSize ≤ 128

/-- The lines of a value behind a mark. The further lines of a text are indented
already. -/
def marked (mark : String) (value : Data) (lines : List String) : List String :=
  match value, lines with
  | .text _, first :: rest => (mark ++ first) :: rest
  | _, _ => hung mark lines

/-- A field whose value has the given lines. A list stands below its key, without
indentation. -/
def fieldBlock (key : String) (value : Data) (lines : List String) : List String :=
  if isSimpleKey key then
    let key := inlineText true key ++ ":"
    match value, lines with
    | .list (_ :: _), _ => key :: lines
    | .table (_ :: _), _ => key :: indented lines
    | _, first :: rest => (key ++ " " ++ first) :: rest
    | _, [] => [key]
  else marked "? " (.text key) (scalar key) ++ marked ": " value lines

mutual

/-- The lines of some data. -/
def lines : Data → List String
  | .text content => scalar content
  | .number n => [toString n]
  | .list items => if items.isEmpty then ["[]"] else itemLines items
  | .table fields => if fields.isEmpty then ["\x7b\x7d"] else fieldLines fields

/-- The lines of the items of a list. -/
def itemLines : List Data → List String
  | [] => []
  | item :: rest => marked "- " item (lines item) ++ itemLines rest

/-- The lines of the fields of a table. -/
def fieldLines : List (String × Data) → List String
  | [] => []
  | (key, value) :: rest => fieldBlock key value (lines value) ++ fieldLines rest

end

/-- Some data as a text. -/
def write (data : Data) : String := String.join ((lines data).map fun line => line ++ "\n")

end TableAccess.Document.YamlText
