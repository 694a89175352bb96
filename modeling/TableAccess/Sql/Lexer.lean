import TableAccess.Sql.Token
import TableAccess.Sql.Dialect
import TableAccess.Sql.Reader

/-! Splitting a text into tokens. What opens a token says how to read it, so most of the lexer
is tables of openings, tried in order. Blanks and comments separate tokens and are not kept,
except that a token remembers whether it touches the one before it. Only the loop over the whole
text knows where a token stands. -/
namespace TableAccess.Sql
open TableAccess.Text

/-- A lexical fault with its place. -/
structure LexicalError where
  fault : LexicalFault
  place : Position
deriving DecidableEq, Repr

/-- The place after a character that stands at `p`. -/
def Position.after (p : Position) (c : Char) : Position :=
  if c == '\n' then ⟨p.line + 1, 1⟩ else ⟨p.line, p.column + 1⟩

/-- A text, and the place where it starts. -/
structure Origin where
  start : Position
  text : List Char
deriving DecidableEq, Repr

/-- The place from where on the text is this rest. -/
def Origin.placeOf (o : Origin) (rest : List Char) : Position :=
  (o.text.take (o.text.length - rest.length)).foldl Position.after o.start

namespace Lexer
open Reader

variable {α : Type}

/-! What stands between quotes. -/

/-- What a backslash and a character mean in a string of the dialect. -/
def unescape (d : Dialect) (next : Char) : List Char :=
  if d.keepsWildcardEscapes && (next == '%' || next == '_') then ['\\', next]
  else match next with
    | '0' => ['\x00']
    | 'a' => ['\x07']
    | 'b' => ['\x08']
    | 'f' => ['\x0c']
    | 'n' => ['\n']
    | 'r' => ['\r']
    | 't' => ['\t']
    | 'Z' => ['\x1a']
    | c => [c]

/-- A part of what stands between quotes: a doubled quote stands for one, and the first
other quote is the end. -/
def quotedPart (d : Dialect) (quote : Char) (escapes : Bool) : Reader (Option (List Char)) :=
  choose [([quote, quote], return some [quote]), ([quote], return none)] do
    let c ← next .unterminatedString
    if c == '\\' && escapes then return some (unescape d (← next .unterminatedString))
    else return some [c]

/-- What stands between quotes, from behind the opening one on. -/
def quoted (d : Dialect) (quote : Char) (escapes : Bool) : Reader String := do
  return String.ofList (← content (quotedPart d quote escapes))

/-- A part of a text that a fixed closing ends. -/
def partUntil (closing : List Char) (reason : LexicalFault) : Reader (Option (List Char)) :=
  choose [(closing, return none)] do return some [← next reason]

/-- What stands before a closing. -/
def endedBy (closing : List Char) (reason : LexicalFault) : Reader String := do
  return String.ofList (← content (partUntil closing reason))

/-- The value of a hexadecimal digit. -/
def hexValue (c : Char) : Nat :=
  if isAsciiDigit c then c.toNat - '0'.toNat
  else if 'a' ≤ c && c ≤ 'f' then c.toNat - 'a'.toNat + 10
  else c.toNat - 'A'.toNat + 10

/-- The value of digits in a base, the first digit leading. -/
def digitsValue (base : Nat) (digits : List Char) : Nat :=
  digits.foldl (fun n c => n * base + hexValue c) 0

/-- The character of this code point, which exists and is not the zero character. -/
def visibleChar (point : Nat) : Reader Char :=
  if point != 0 && point.isValidChar then return Char.ofNat point else fail .unterminatedEscapes

/-- A byte in digits of a base. Bytes must be ASCII. -/
def byte (base : Nat) (digits : List Char) : Reader Char :=
  let value := digitsValue base digits % 256
  if value ≤ 127 then visibleChar value else fail .unterminatedEscapes

/-- Exactly `count` hexadecimal digits. -/
def fixedHex (count : Nat) : Reader Char := do
  let digits ← takeAtMost isHexDigit count
  if digits.length == count then visibleChar (digitsValue 16 digits)
  else fail .unterminatedEscapes

/-- Whether the character is an octal digit. -/
def isOctalDigit (c : Char) : Bool := '0' ≤ c && c ≤ '7'

/-- What follows a backslash in a string with escapes. -/
def escapeSequence : Reader Char := do
  let c ← next .unterminatedEscapes
  match c with
  | 'b' => return '\x08'
  | 'f' => return '\x0c'
  | 'n' => return '\n'
  | 'r' => return '\r'
  | 't' => return '\t'
  | 'u' => fixedHex 4
  | 'U' => fixedHex 8
  | 'x' => do
    let digits ← takeAtMost isHexDigit 2
    if digits.isEmpty then return 'x' else byte 16 digits
  | c =>
    if isOctalDigit c then do byte 8 (c :: (← takeAtMost isOctalDigit 2)) else return c

/-- A part of a string with escapes. -/
def escapedPart : Reader (Option (List Char)) :=
  choose [
    (['\'', '\''], return some ['\'']),
    (['\''], return none),
    (['\\'], do return some [← escapeSequence])] do
    let c ← next .unterminatedEscapes
    if c == '\x00' then fail .unterminatedEscapes else return some [c]

/-- A code point written with a fixed number of hexadecimal digits. -/
def codePoint : Nat → Nat → Reader Char
  | 0, point => if point.isValidChar then return Char.ofNat point else fail (.notCharacter point)
  | count + 1, point => do
    let c ← next .unicodeEndsEarly
    if isHexDigit c then codePoint count (point * 16 + hexValue c) else fail (.notHexDigit c)

/-- A part of a string with code points. -/
def unicodePart : Reader (Option (List Char)) :=
  choose [
    (['\'', '\''], return some ['\'']),
    (['\''], return none),
    (['\\', '\\'], return some ['\\']),
    (['\\', '+'], do return some [← codePoint 6 0]),
    (['\\'], do return some [← codePoint 4 0])] do
    return some [← next .unterminatedUnicode]

/-- A string from behind its opening quote on. -/
def string (d : Dialect) (form : TextForm) (quote : Char) (escapes : Bool) : Reader Token :=
  behind [quote] .unterminatedString do return .text form (← quoted d quote escapes)

/-! Openings. A row of a table is what a text starts with, and how what follows is read. -/

/-- Openings that start with a letter, capital or small. -/
def lettered (capital small : Char) (rest : List Char) (read : List Char → Reader Token) :
    List (List Char × Reader Token) :=
  [(small :: rest, read (small :: rest)), (capital :: rest, read (capital :: rest))]

/-- The openings of raw strings. Three quotes open another form than one, and two are an empty
string. -/
def rawRows (d : Dialect) (quote : Char) (once thrice : TextForm) :
    List (List Char × Reader Token) :=
  lettered 'R' 'r' [quote, quote, quote] (fun _ => behind [] .unterminatedString do
      return .text thrice (← endedBy [quote, quote, quote] .unterminatedString))
    ++ lettered 'R' 'r' [quote, quote] (fun _ => return .text once "")
    ++ lettered 'R' 'r' [quote] (fun _ => behind [] .unterminatedString do
      return .text once (← quoted d quote false))

/-- The openings of strings that a letter says how to read. -/
def literalRows (d : Dialect) : List (List Char × Reader Token) :=
  (if d.hasByteStrings then
      lettered 'B' 'b' ['\''] (fun _ => string d .bits '\'' false)
        ++ lettered 'B' 'b' ['"'] (fun _ => string d .doubleBits '"' false)
    else [])
    ++ (if d.hasRawStrings then
      rawRows d '\'' .raw .tripleRaw ++ rawRows d '"' .doubleRaw .tripleDoubleRaw else [])
    ++ lettered 'N' 'n' ['\''] (fun _ => string d .national '\'' d.backslashEscapes)
    ++ (if d.hasEscapeStrings then
      lettered 'E' 'e' ['\''] fun opening => behind opening .unterminatedEscapes do
        return .text .escaped (String.ofList (← content escapedPart))
    else [])
    ++ (if d.hasUnicodeStrings then
      lettered 'U' 'u' ['&', '\''] fun _ => do
        return .text .unicode (String.ofList (← content unicodePart))
    else [])
    ++ lettered 'X' 'x' ['\''] (fun _ => string d .hex '\'' true)

/-- A quoted name from behind its opening quote on. -/
def quotedName (d : Dialect) (quote : Char) : Reader Token :=
  behind [quote] (.unterminatedIdentifier (closingQuote quote)) do
    return .word (← quoted d (closingQuote quote) false) (some quote)

/-- The openings of quoted names and strings. Where a double quote opens no name, it opens a
string. -/
def quoteRows (d : Dialect) : List (List Char × Reader Token) :=
  (['\''], string d .single '\'' d.backslashEscapes)
    :: (['"', '\x60', '['].filter d.opensIdentifier).map (fun quote => ([quote], quotedName d quote))
    ++ [(['"'], string d .double '"' d.backslashEscapes)]

/-- How the characters of a symbol may go on. -/
inductive Continuation where
  /-- The symbol ends here. -/
  | none
  /-- Where the dialect allows it, the symbol starts an operator of its own. -/
  | operator
  /-- The characters are no symbol by themselves. -/
  | onlyOperator
deriving DecidableEq, Repr

/-- What follows the characters of a symbol. -/
def continuation (d : Dialect) (spelling : String) : Continuation → Reader Token
  | .none => return .symbol spelling
  | .operator => do
    let more ← takeWhile d.continuesOperator
    if more.isEmpty then return .symbol spelling
    else return .operator (spelling ++ String.ofList more)
  | .onlyOperator => do
    let more ← takeWhile d.continuesOperator
    if more.isEmpty then fail (.noOperatorAfter spelling)
    else return .operator (spelling ++ String.ofList more)

/-- Operators of geometric values, and those that are written with a question mark. -/
def geometrySymbols : List (List Char × Continuation) := [
  (['|', '&', '>'], .operator), (['|', '&'], .onlyOperator),
  (['|', '>', '>'], .operator), (['|', '>'], .onlyOperator),
  (['<', '<', '|'], .operator), (['<', '-', '>'], .operator), (['<', '-'], .onlyOperator),
  (['<', '^'], .operator), (['>', '^'], .operator), (['&', '>'], .operator),
  (['&', '<', '|'], .operator), (['&', '<'], .operator), (['~', '='], .operator),
  (['#', '#'], .operator), (['@', '-', '@'], .operator), (['@', '-'], .onlyOperator),
  (['@', '@'], .none), (['?', '|', '|'], .none), (['?', '|'], .none), (['?', '&'], .none),
  (['?', '-', '|'], .none), (['?', '-'], .none), (['?', '#'], .none), (['?'], .none)]

/-- The symbols of every dialect. -/
def commonSymbols : List (List Char × Continuation) := [
  (['('], .none), ([')'], .none), ([','], .none), ([';'], .none), (['\\'], .none),
  (['['], .none), ([']'], .none), (['\x7b'], .none), (['\x7d'], .none),
  (['-', '>', '>'], .operator), (['-', '>'], .operator), (['-'], .operator),
  (['/'], .none), (['+'], .none), (['*'], .none), (['%'], .operator),
  (['|', '/'], .operator), (['|', '|', '/'], .operator), (['|', '|'], .operator),
  (['|'], .operator), (['=', '>'], .none), (['=', '='], .none), (['='], .none),
  (['!', '!'], .none), (['!', '~', '*'], .none), (['!', '~', '~', '*'], .none),
  (['!', '~', '~'], .none), (['!', '~'], .none), (['!'], .none),
  (['<', '=', '>'], .operator), (['<', '='], .operator), (['<', '>'], .operator),
  (['<', '<'], .operator), (['<', '@'], .operator), (['<'], .operator),
  (['>', '='], .operator), (['>', '>'], .operator), (['>'], .operator),
  ([':', ':'], .none), ([':', '='], .none), ([':'], .none),
  (['&', '&'], .operator), (['&'], .operator), (['^', '@'], .none), (['^'], .none),
  (['~', '*'], .operator), (['~', '~', '*'], .operator), (['~', '~'], .operator),
  (['~'], .operator), (['#', '-'], .operator), (['#', '>', '>'], .operator),
  (['#', '>'], .operator), (['@', '>'], .operator), (['@', '?'], .operator)]

/-- The rest of a word. -/
def word (d : Dialect) (start : List Char) : Reader Token := do
  return .word (String.ofList (start ++ (← takeWhile d.continuesWord))) none

/-- The rest of a word that starts with a sign. Any character but a space may come second. -/
def signWord (d : Dialect) (spelling : List Char) : Reader Token := do
  if ← sees (· == ' ') then return .symbol (String.ofList spelling)
  else
    match ← next? with
    | some c => word d (spelling ++ [c])
    | none => return .symbol (String.ofList spelling)

/-- What follows a sign that starts a word in some dialects. Before a character that stops it the
sign is a symbol. -/
def sign (d : Dialect) (start : Char) (spelling : List Char) (stops : List Char) : Reader Token := do
  if ← sees stops.contains then return .symbol (String.ofList spelling)
  else if d.startsWord start then signWord d spelling
  else continuation d (String.ofList spelling) .operator

/-- The openings of symbols by their table. -/
def listedRows (d : Dialect) (symbols : List (List Char × Continuation)) :
    List (List Char × Reader Token) :=
  symbols.map fun symbol => (symbol.1, continuation d (String.ofList symbol.1) symbol.2)

/-- The openings of symbols. Two of them are spelled in another way. -/
def symbolRows (d : Dialect) : List (List Char × Reader Token) :=
  (if d.hasGeometry then
      (['<', '|'], continuation d "<<|" .operator) :: listedRows d geometrySymbols
    else [])
    ++ (if d == .generic then [(['/', '/'], continuation d "//" .none)] else [])
    ++ (['!', '='], continuation d "<>" .none) :: listedRows d commonSymbols
    ++ [(['#'], sign d '#' ['#'] []), (['@', '@'], sign d '@' ['@', '@'] []),
      (['@'], sign d '@' ['@'] ['\'', '"', '\x60'])]

/-! Numbers and parameters. -/

/-- Whether a token is a word. -/
def isWord : Token → Bool
  | .word _ _ => true
  | _ => false

/-- Whether the character announces an exponent. -/
def isExponentLetter (c : Char) : Bool := c == 'e' || c == 'E'

/-- The first of these marks that stands before a digit. -/
def markBeforeDigit : List (List Char) → Reader (List Char)
  | [] => return []
  | mark :: others => do
    if ← takeBefore? mark isAsciiDigit then return mark else markBeforeDigit others

/-- An exponent, if there is one. -/
def exponent : Reader (List Char) := do
  let mark ← markBeforeDigit [['e', '+'], ['e', '-'], ['E', '+'], ['E', '-'], ['e'], ['E']]
  if mark.isEmpty then return [] else return mark ++ (← takeWhile isAsciiDigit)

/-- The end of a number, after all its digits. -/
def numberEnd (digits : List Char) : Reader Token := do
  return .number (String.ofList digits) (← take? ['L'])

/-- A number from its exponent on, or a name that starts with digits. -/
def scaled (d : Dialect) (previous : Token) (digits : List Char) : Reader Token := do
  let exponent ← exponent
  let unscaled ← sees isExponentLetter
  if !d.namesStartWithDigits then numberEnd (digits ++ exponent)
  else if exponent.isEmpty && !unscaled then
    let more ← takeWhile d.continuesWord
    if more.isEmpty then numberEnd digits
    else return .word (String.ofList (digits ++ more)) none
  else if previous == .symbol "." then return .word (String.ofList (digits ++ exponent)) none
  else numberEnd (digits ++ exponent)

/-- What follows a period: a fraction, or the rest of a name. -/
def fraction (d : Dialect) (previous : Token) : Reader Token := do
  if ← sees (· == '_') then
    if isWord previous then return .symbol "." else failBehind ['.'] .strayUnderscore
  else if d.namesStartWithDigits && isWord previous then return .symbol "."
  else
    let digits ← takeDigits d.digitSeparators isAsciiDigit
    if digits.isEmpty then return .symbol "." else scaled d previous ('.' :: digits)

/-- What follows the first digit of a number. -/
def number (d : Dialect) (previous : Token) (first : Char) : Reader Token := do
  let whole := first :: (← takeDigits d.digitSeparators isAsciiDigit)
  if whole != ['0'] then wholeNumber whole
  else if ← take? ['x'] then
    return .text .hex (String.ofList (← takeDigits d.digitSeparators isHexDigit))
  else wholeNumber whole
where
  /-- What follows the digits before the period. -/
  wholeNumber (whole : List Char) : Reader Token := do
    if ← take? ['.'] then
      scaled d previous (whole ++ '.' :: (← takeDigits d.digitSeparators isAsciiDigit))
    else scaled d previous whole

/-- What follows a dollar sign: the name of a parameter, or a string between two equal tags. -/
def dollar (d : Dialect) : Reader Token := do
  let name ← takeWhile fun c =>
    isLetter c || isNumber c || c == '_' || (c == '$' && d.dollarIsParameter)
  if !(← take? ['$']) then return .parameter ("$" ++ String.ofList name)
  else if name.isEmpty then return .dollarText none (← endedBy ['$', '$'] .unterminatedDollar)
  else
    let closing := '$' :: name ++ ['$']
    return .dollarText (some (String.ofList name)) (← endedBy closing .unterminatedTagged)

/-- What no table has an opening for, from behind its first character on: numbers, words,
parameters and stray characters. -/
def unlisted (d : Dialect) (previous : Token) (c : Char) : Reader Token :=
  if c == '.' then fraction d previous
  else if isAsciiDigit c then number d previous c
  else if c == '?' then do return .parameter ("?" ++ String.ofList (← takeWhile isNumber))
  else if d.startsWord c then word d [c]
  else if c == '$' then dollar d
  else return .stray c

/-- The token at the front of a text; the one before it says what a period means. -/
def token (d : Dialect) (previous : Token) : Reader Token :=
  choose (literalRows d ++ quoteRows d ++ symbolRows d) do
    match ← next? with
    | some c => unlisted d previous c
    | none => return .finish

/-! Separators. -/

/-- Whether a blank separates words and is not part of one. -/
def separates (d : Dialect) (c : Char) : Bool := isBlank c && !d.startsWord c

/-- Whether a comment starts here that ends with the line. -/
def opensLineComment (d : Dialect) : List Char → Bool
  | '-' :: '-' :: rest => !d.commentNeedsBlank || rest.head?.any isBlank
  | '#' :: _ => d.hasHashComments
  | _ => false

/-- What follows a line comment. -/
def afterLine (d : Dialect) (text : List Char) : List Char :=
  (text.dropWhile fun c => c != '\n' && !(c == '\r' && d.returnEndsComment)).drop 1

/-- A part of a block comment. The depth counts the comments that are open. -/
def commentPart (nests : Bool) (depth : Nat) : Reader (Option (List Char × Nat)) :=
  let opens := (['/', '*'], return some (['/', '*'], depth + 1))
  let closes := (['*', '/'], return if depth ≤ 1 then none else some (['*', '/'], depth - 1))
  choose (if nests then [opens, closes] else [closes]) do
    return some ([← next .unterminatedComment], depth)

/-- What stands at the front of a text: a token, a separator, or a comment whose
content is to be read in its place. -/
inductive Piece where
  | token (token : Token)
  | blank
  | hint (content : List Char)
deriving DecidableEq, Repr

/-- What a block comment with this content is. -/
def commentPiece (d : Dialect) : List Char → Piece
  | '!' :: hint => if d.readsCommentHints then .hint (hint.dropWhile isAsciiDigit) else .blank
  | _ => .blank

/-- A block comment or a token. -/
def commentOrToken (d : Dialect) (previous : Token) : Reader Piece :=
  choose [(['/', '*'], do return commentPiece d (← parts (commentPart d.nestsComments) 1))] do
    return .token (← token d previous)

/-- What stands at the front of a text. -/
def piece (d : Dialect) (previous : Token) : Reader Piece := fun text =>
  if text.head?.any (separates d) then .ok (.blank, text.tail)
  else if opensLineComment d text then .ok (.blank, afterLine d text)
  else commentOrToken d previous text

/-! The loop. -/

/-- A token with whether nothing at all stands between it and the token before it, the text that
it was read from, and what is left of that from the token on. -/
structure Placed where
  token : Token
  touching : Bool
  origin : Origin
  rest : List Char
deriving DecidableEq, Repr

/-- Where a token stands. -/
def Placed.place (p : Placed) : Position := p.origin.placeOf p.rest

/-- What was read from a text, or the place of its fault. -/
def located (origin : Origin) : Except Fault α → Except LexicalError α
  | .error fault => .error ⟨fault.reason, origin.placeOf fault.rest⟩
  | .ok read => .ok read

/-- The tokens of what is left of a text. Every piece takes at least one character, so a budget
of one step per character suffices; a hint is shorter than its comment. -/
def placedWithin (d : Dialect) :
    Nat → Origin → Token → Bool → List Char → Except LexicalError (List Placed)
  | 0, _, _, _, _ => .ok []
  | _ + 1, _, _, _, [] => .ok []
  | budget + 1, origin, previous, touching, c :: rest => do
    let (found, left) ← located origin (piece d previous (c :: rest))
    match found with
    | .token token => do
      let others ← placedWithin d budget origin token true left
      return ⟨token, touching, origin, c :: rest⟩ :: others
    | .blank => placedWithin d budget origin .finish false left
    | .hint content => do
      let inner : Origin := ⟨origin.placeOf (c :: rest), content⟩
      let hinted ← placedWithin d budget inner .finish false content
      let others ← placedWithin d budget origin .finish false left
      return hinted ++ others

end Lexer

/-- The tokens of a text, or the first fault that keeps it from having any. -/
def placedTokens (d : Dialect) (text : String) : Except LexicalError (List Lexer.Placed) :=
  let chars := text.toList
  Lexer.placedWithin d (chars.length + 1) ⟨⟨1, 1⟩, chars⟩ .finish false chars

/-- What the grammar sees of tokens, the first of which has this number. -/
def lexemesFrom : Nat → List Lexer.Placed → List Lexeme
  | _, [] => []
  | number, p :: rest => ⟨p.token, some number, p.touching⟩ :: lexemesFrom (number + 1) rest

/-- The tokens of a text as the grammar sees them. -/
def lexemes (d : Dialect) (text : String) : Except LexicalError (List Lexeme) :=
  (placedTokens d text).map (lexemesFrom 0)

end TableAccess.Sql
