import TableAccess.Document.Yaml.Scalar

/-! The tokens of a text in YAML. Where blocks start and end follows from the columns at
which their items and keys stand; a key is only known for one when the colon behind it is
found, so the tokens that open a table and mark the key are put in front of it then. -/
namespace TableAccess.Document.Yaml
open TableAccess.Text

/-- A token. -/
inductive Token where
  | directive | documentStart | documentEnd | finish
  | listStart | tableStart | blockEnd
  | openBracket | closeBracket | openBrace | closeBrace | comma
  | item | key | value
  | repetition (name : String)
  | anchor (name : String)
  | tag (name : String)
  | scalar (quoted : Bool) (content : String)
deriving DecidableEq, Repr

/-- A token that is a key if a colon follows. -/
structure PossibleKey where
  /-- How many tokens stand before it. -/
  number : Nat
  /-- Whether it stands where only a key may stand. -/
  required : Bool
  place : Cursor
deriving Repr

/-- What is known between two tokens. Tokens are kept backwards, columns of open blocks
and possible keys innermost first. -/
structure Scanner where
  place : Cursor
  tokens : List Token
  count : Nat
  indent : Int
  outer : List Int
  /-- A possible key for each open bracket and one outside of all. -/
  keys : List (Option PossibleKey)
  keyAllowed : Bool
deriving Repr

namespace Scanner

/-- Whether a bracket is open. -/
def inFlow (s : Scanner) : Bool := s.keys.length > 1

/-- Add a token. -/
def push (s : Scanner) (t : Token) : Scanner :=
  { s with tokens := t :: s.tokens, count := s.count + 1 }

/-- Put a token behind the first `number` ones. -/
def putAt (s : Scanner) (number : Nat) (t : Token) : Scanner :=
  let later := s.tokens.take (s.count - number)
  { s with tokens := later ++ t :: s.tokens.drop (s.count - number), count := s.count + 1 }

/-- Go on behind some characters. -/
def skip (s : Scanner) (n : Nat) : Scanner := { s with place := s.place.skip n }

/-- Say whether a key may stand next. -/
def allowKey (s : Scanner) (allowed : Bool) : Scanner := { s with keyAllowed := allowed }

/-- Give up the possible key of the innermost bracket; it must not be required. -/
def dropKey? (s : Scanner) : Option Scanner :=
  match s.keys with
  | some k :: rest => if k.required then none else some { s with keys := none :: rest }
  | _ => some s

/-- Note that the next token may be a key. -/
def saveKey? (s : Scanner) : Option Scanner :=
  if s.keyAllowed then do
    let required := !s.inFlow && s.indent == (s.place.column : Int)
    let s ← s.dropKey?
    return { s with keys := some ⟨s.count, required, s.place⟩ :: s.keys.drop 1 }
  else some s

/-- Give up possible keys that are too far away: a key stands on one line and has at most
1024 characters. -/
def dropOldKeys? (s : Scanner) : Option Scanner := do
  let keys ← s.keys.mapM fun found =>
    match found with
    | none => some none
    | some k =>
      if k.place.line < s.place.line || k.place.index + 1024 < s.place.index then
        if k.required then none else some none
      else some (some k)
  return { s with keys }

/-- Open a block at a column, unless one is open there. Its token goes behind the first
`number` ones. -/
def openBlock (s : Scanner) (column number : Nat) (t : Token) : Scanner :=
  if !s.inFlow && s.indent < (column : Int) then
    { s with indent := column, outer := s.indent :: s.outer }.putAt number t
  else s

/-- Close the blocks that are indented further than a column. -/
def closeBlocks (column : Int) : Nat → Scanner → Scanner
  | 0, s => s
  | budget + 1, s =>
    if !s.inFlow && s.indent > column then
      let outside := { s with indent := s.outer.headD (-1), outer := s.outer.drop 1 }
      closeBlocks column budget (outside.push .blockEnd)
    else s

/-- Close all blocks that are indented further than a column. -/
def close (s : Scanner) (column : Int) : Scanner := closeBlocks column (s.outer.length + 1) s

/-- Go to the next token, over blanks, comments and ends of lines. Where a key may stand, a
tab is no blank. -/
def toToken : Nat → Scanner → Scanner
  | 0, s => s
  | budget + 1, s =>
    let isGap := fun c => c == ' ' || (c == '\t' && (s.inFlow || !s.keyAllowed))
    let place := s.place.skipWhile isGap
    let place := if place.text.head? == some '#' then place.skipLine else place
    match place.lineEnd? with
    | some (_, next) =>
      toToken budget { s with place := next, keyAllowed := s.keyAllowed || !s.inFlow }
    | none => { s with place }

/-- The mark of an item, a key or a value. -/
def mark (s : Scanner) (t : Token) : Scanner := (s.push t).skip 1

/-- The mark of an item. -/
def item? (s : Scanner) : Option Scanner := do
  if !s.inFlow && !s.keyAllowed then none
  let s ← (s.openBlock s.place.column s.count .listStart).dropKey?
  return (s.allowKey true).mark .item

/-- The mark of a key. -/
def key? (s : Scanner) : Option Scanner := do
  if !s.inFlow && !s.keyAllowed then none
  let s ← (s.openBlock s.place.column s.count .tableStart).dropKey?
  return (s.allowKey !s.inFlow).mark .key

/-- The colon of a value. -/
def value? (s : Scanner) : Option Scanner :=
  match s.keys with
  | some k :: rest =>
    let s := { s with keys := none :: rest }.putAt k.number .key
    some (((s.openBlock k.place.column k.number .tableStart).allowKey false).mark .value)
  | _ =>
    if s.inFlow then some ((s.allowKey false).mark .value)
    else if s.keyAllowed then
      some (((s.openBlock s.place.column s.count .tableStart).allowKey true).mark .value)
    else none

/-- An opening bracket. -/
def opening? (s : Scanner) (t : Token) : Option Scanner := do
  let s ← s.saveKey?
  return ({ s with keys := none :: s.keys }.allowKey true).mark t

/-- A closing bracket. -/
def closing? (s : Scanner) (t : Token) : Option Scanner := do
  let s ← s.dropKey?
  let keys := if s.inFlow then s.keys.drop 1 else s.keys
  return ({ s with keys }.allowKey false).mark t

/-- Whether a character may stand in the name of an anchor. -/
def isNameChar (c : Char) : Bool := isAsciiLetter c || isAsciiDigit c || c == '_' || c == '-'

/-- A name that is given to a value or that stands for one. -/
def name? (s : Scanner) (token : String → Token) : Option Scanner := do
  let s ← s.saveKey?
  let place := s.place.skip 1
  let name := place.text.takeWhile isNameChar
  let next := place.skip name.length
  let ends := match next.text with
    | [] => true
    | c :: _ => atBlank [c] || ['?', ':', ',', ']', '\x7d', '%', '@', '\x60'].contains c
  if name.isEmpty || !ends then none
  return ({ s with place := next }.allowKey false).push (token (String.ofList name))

/-- A tag in its long form. Tags with two marks belong to the notation itself. -/
def tagName? (written : List Char) : Option String :=
  match written with
  | '!' :: '<' :: rest =>
    match rest.reverse with
    | '>' :: uri => if uri.isEmpty then none else some (String.ofList uri.reverse)
    | _ => none
  | '!' :: '!' :: rest =>
    if rest.isEmpty then none else some ("tag:yaml.org,2002:" ++ String.ofList rest)
  | '!' :: rest => if rest.contains '!' then none else some (String.ofList ('!' :: rest))
  | _ => none

/-- A tag. -/
def tag? (s : Scanner) : Option Scanner := do
  let s ← s.saveKey?
  let inFlow := s.inFlow
  let written := s.place.text.takeWhile fun c =>
    !(isBreak c || isSpace c || (inFlow && c == ','))
  let name ← tagName? written
  return ((s.skip written.length).allowKey false).push (.tag name)

/-- A text in a block of lines. -/
def block? (s : Scanner) (literal : Bool) : Option Scanner := do
  let s ← s.dropKey?
  let (content, place) ← Yaml.block? literal s.indent (s.place.skip 1)
  return ({ s with place }.allowKey true).push (.scalar true (String.ofList content))

/-- A text between quotes. -/
def quoted? (s : Scanner) (double : Bool) : Option Scanner := do
  let s ← s.saveKey?
  let place := s.place.skip 1
  let (content, place) ← Yaml.quoted? double (place.text.length + 1) place
  return ({ s with place }.allowKey false).push (.scalar true (String.ofList content))

/-- A text without quotes. -/
def plain? (s : Scanner) : Option Scanner := do
  let s ← s.saveKey?
  let (content, broken, place) ← Yaml.plain? s.inFlow (s.indent + 1).toNat
    (s.place.text.length + 1) Gap.none s.place
  return ({ s with place }.allowKey broken).push (.scalar false (String.ofList content))

/-- Whether a directive is one of the two that there are. -/
def isDirective (line : List Char) : Bool :=
  let words := ((splitOnChar ' ' (line.map fun c => if c == '\t' then ' ' else c)).filter
    fun w => !w.isEmpty).map String.ofList
  match words.takeWhile fun w => !w.startsWith "#" with
  | ["%YAML", version] => version == "1.1" || version == "1.2"
  | ["%TAG", handle, _] => handle.startsWith "!" && handle.endsWith "!"
  | _ => false

/-- A mark at the start of a line that belongs to no block. -/
def outside? (s : Scanner) (t : Token) (size : Nat) : Option Scanner := do
  let s ← (s.close (-1)).dropKey?
  return ((s.allowKey false).push t).skip size

/-- The token at the start of the remaining text. -/
def token? (s : Scanner) : Option Scanner :=
  let text := s.place.text
  let second := text.drop 1
  match text with
  | [] => s.outside? .finish 0
  | c :: _ =>
    let line := text.takeWhile fun c => !isBreak c
    if s.place.column == 0 && c == '%' then
      if isDirective line then s.outside? .directive line.length else none
    else if s.place.atMark then
      s.outside? (if c == '-' then .documentStart else .documentEnd) 3
    else if c == '[' then s.opening? .openBracket
    else if c == '\x7b' then s.opening? .openBrace
    else if c == ']' then s.closing? .closeBracket
    else if c == '\x7d' then s.closing? .closeBrace
    else if c == ',' then do return ((← s.dropKey?).allowKey true).mark .comma
    else if c == '-' && atBlank second then s.item?
    else if c == '?' && (s.inFlow || atBlank second) then s.key?
    else if c == ':' && (s.inFlow || atBlank second) then s.value?
    else if c == '*' then s.name? .repetition
    else if c == '&' then s.name? .anchor
    else if c == '!' then s.tag?
    else if c == '|' && !s.inFlow then s.block? true
    else if c == '>' && !s.inFlow then s.block? false
    else if c == '\'' then s.quoted? false
    else if c == '"' then s.quoted? true
    else if "#|>%@\x60\t".toList.contains c then none
    else s.plain?

/-- The tokens of the remaining text. Each step takes characters, except for the last. -/
def tokens? : Nat → Scanner → Option (List Token)
  | 0, _ => none
  | budget + 1, s => do
    let s ← (toToken (s.place.text.length + 1) s).dropOldKeys?
    let done := s.place.text.isEmpty
    let s ← (s.close s.place.column).token?
    if done then return s.tokens.reverse else tokens? budget s

end Scanner

/-- Whether a character may stand in a text. -/
def isAllowed (c : Char) : Bool :=
  let n := c.toNat
  n == 0x09 || n == 0x0a || n == 0x0d || (0x20 ≤ n && n ≤ 0x7e) || n == 0x85
    || (0xa0 ≤ n && n != 0xfffe && n != 0xffff)

/-- The tokens of a text. -/
def tokens? (text : List Char) : Option (List Token) :=
  let text := if text.head? == some '\ufeff' then text.drop 1 else text
  if text.all isAllowed then
    Scanner.tokens? (text.length + 2) ⟨⟨text, 0, 0, 0⟩, [], 0, -1, [], [none], true⟩
  else none

end TableAccess.Document.Yaml
