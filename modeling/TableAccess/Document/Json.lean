import TableAccess.Document.Value
import TableAccess.Text.Search

/-! Documents in JSON. Reading goes on as far as the text allows; where it breaks off,
the last value is broken and nothing remains. -/
namespace TableAccess.Document.Json
open TableAccess.Text

/-- The text without the blanks before it. -/
def skipBlanks (text : List Char) : List Char :=
  text.dropWhile fun c => c == ' ' || c == '\n' || c == '\t' || c == '\r'

/-- The value of a hexadecimal digit. -/
def hexDigit? (c : Char) : Option Nat :=
  if isAsciiDigit c then some (c.toNat - '0'.toNat)
  else if 'a' ≤ c && c ≤ 'f' then some (c.toNat - 'a'.toNat + 10)
  else if 'A' ≤ c && c ≤ 'F' then some (c.toNat - 'A'.toNat + 10)
  else none

/-- The value of hexadecimal digits. -/
def hexValue? (digits : List Char) : Option Nat :=
  digits.foldlM (fun n c => (hexDigit? c).map (16 * n + ·)) 0

/-- The character of an escape of one letter. -/
def escaped? : Char → Option Char
  | '"' => some '"'
  | '\\' => some '\\'
  | '/' => some '/'
  | 'b' => some '\x08'
  | 'f' => some '\x0c'
  | 'n' => some '\n'
  | 'r' => some '\r'
  | 't' => some '\t'
  | _ => none

/-- A piece of a text: a character, or a number that an escape gives for a code unit. -/
inductive Piece where
  | char (c : Char)
  | unit (n : Nat)
deriving DecidableEq, Repr

/-- The pieces up to the closing quote, and what follows it. -/
def quoted? : List Char → Option (List Piece × List Char)
  | [] => none
  | '"' :: rest => some ([], rest)
  | '\\' :: 'u' :: a :: b :: c :: d :: rest => do
    let n ← hexValue? [a, b, c, d]
    let (pieces, after) ← quoted? rest
    return (.unit n :: pieces, after)
  | '\\' :: e :: rest => do
    let c ← escaped? e
    let (pieces, after) ← quoted? rest
    return (.char c :: pieces, after)
  | c :: rest =>
    if c.toNat < 0x20 || c == '\\' then none
    else (quoted? rest).map fun (pieces, after) => (.char c :: pieces, after)

/-- The characters of some pieces. Code units beyond the first plane come in pairs, a high
one before a low one; alone they stand for nothing. -/
def characters? : List Piece → Option (List Char)
  | [] => some []
  | .char c :: rest => (characters? rest).map (c :: ·)
  | .unit high :: .unit low :: rest =>
    if 0xd800 ≤ high && high < 0xdc00 then
      if 0xdc00 ≤ low && low < 0xe000 then
        let paired := 0x10000 + (high - 0xd800) * 0x400 + (low - 0xdc00)
        (characters? rest).map (Char.ofNat paired :: ·)
      else none
    else if 0xdc00 ≤ high && high < 0xe000 then none
    else (characters? (.unit low :: rest)).map (Char.ofNat high :: ·)
  | .unit n :: rest =>
    if 0xd800 ≤ n && n < 0xe000 then none else (characters? rest).map (Char.ofNat n :: ·)

/-- The text of some pieces. -/
def pieceText? (pieces : List Piece) : Option String := (characters? pieces).map String.ofList

/-- Digits, of which there must be some. -/
def digits? (text : List Char) : Option (List Char × List Char) :=
  let digits := text.takeWhile isAsciiDigit
  if digits.isEmpty then none else some (digits, text.dropWhile isAsciiDigit)

/-- The digits after a decimal point, where there is one. -/
def fraction? : List Char → Option (List Char × List Char)
  | '.' :: rest => (digits? rest).map fun (digits, after) => ('.' :: digits, after)
  | text => some ([], text)

/-- An exponent, where there is one. -/
def exponent? : List Char → Option (List Char × List Char)
  | c :: rest =>
    if c == 'e' || c == 'E' then
      let (sign, rest) := match rest with
        | '+' :: after => (['+'], after)
        | '-' :: after => (['-'], after)
        | _ => ([], rest)
      (digits? rest).map fun (digits, after) => (c :: sign ++ digits, after)
    else some ([], c :: rest)
  | [] => some ([], [])

/-- A number as it is written. Its whole part has no zero in front. -/
def number? (text : List Char) : Option (List Char × List Char) := do
  let (sign, rest) := match text with
    | '-' :: after => (['-'], after)
    | _ => ([], text)
  let (whole, rest) ← digits? rest
  if whole.head? == some '0' && whole.length > 1 then none
  let (fraction, rest) ← fraction? rest
  let (exponent, rest) ← exponent? rest
  return (sign ++ whole ++ fraction ++ exponent, rest)

/-- A word or a number. -/
def bare? (text : List Char) : Option (List Char × List Char) :=
  let word := ["null", "true", "false"].findSome? fun w =>
    (afterStart? w.toList text).map fun rest => (w.toList, rest)
  word.orElse fun _ => number? text

mutual

/-- The value at the start of a text, and what follows it unless the text breaks off.
Every step takes a character, so a budget of the text's length is enough. -/
def value : Nat → List Char → Value × Option (List Char)
  | 0, _ => (.broken, none)
  | budget + 1, text =>
    match skipBlanks text with
    | '[' :: rest =>
      match skipBlanks rest with
      | ']' :: after => (.list [], some after)
      | _ =>
        let (items, after) := items budget rest
        (.list items, after)
    | '\x7b' :: rest =>
      match skipBlanks rest with
      | '\x7d' :: after => (.table [], some after)
      | _ =>
        let (fields, after) := fields budget rest
        (.table fields, after)
    | '"' :: rest =>
      match quoted? rest with
      | some (pieces, after) =>
        (match pieceText? pieces with
          | some content => .text content
          | none => .broken, some after)
      | none => (.broken, none)
    | rest =>
      match bare? rest with
      | some (written, after) => (.plain (String.ofList written), some after)
      | none => (.broken, none)

/-- The items of a list up to its end. -/
def items : Nat → List Char → List Value × Option (List Char)
  | 0, _ => ([.broken], none)
  | budget + 1, text =>
    match value budget text with
    | (item, none) => ([item], none)
    | (item, some rest) =>
      match skipBlanks rest with
      | ']' :: after => ([item], some after)
      | ',' :: after =>
        let (more, after) := items budget after
        (item :: more, after)
      | _ => ([item, .broken], none)

/-- The fields of a table up to its end. -/
def fields : Nat → List Char → List (Option String × Value) × Option (List Char)
  | 0, _ => ([(none, .broken)], none)
  | budget + 1, text =>
    match key? (skipBlanks text) with
    | none => ([(none, .broken)], none)
    | some (key, rest) =>
      match value budget rest with
      | (v, none) => ([(key, v)], none)
      | (v, some rest) =>
        match skipBlanks rest with
        | '\x7d' :: after => ([(key, v)], some after)
        | ',' :: after =>
          let (more, after) := fields budget after
          ((key, v) :: more, after)
        | _ => ([(key, v), (none, .broken)], none)

/-- A key with the colon behind it. -/
def key? : List Char → Option (Option String × List Char)
  | '"' :: rest => do
    let (pieces, rest) ← quoted? rest
    let rest ← afterStart? [':'] (skipBlanks rest)
    return (pieceText? pieces, rest)
  | _ => none

end

/-- Read a document. -/
def read (text : String) : Read :=
  let characters := text.toList
  match value (2 * characters.length + 1) characters with
  | (v, none) => ⟨v, false⟩
  | (v, some rest) => ⟨v, (skipBlanks rest).isEmpty⟩

end TableAccess.Document.Json
