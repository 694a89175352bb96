import TableAccess.Text.Search
import TableAccess.Text.CharClass

/-! Reading from the front of a text. A reader takes some characters and says what they mean, or
fails. It knows nothing of places: a fault keeps what is left of the text where it counts, and whoever
holds the whole text finds the place from that. -/
namespace TableAccess.Sql
open TableAccess.Text

/-- Why a text has no tokens. -/
inductive LexicalFault where
  | unterminatedString
  | unterminatedIdentifier (quote : Char)
  | unterminatedComment
  | unterminatedEscapes
  | unterminatedUnicode
  | unicodeEndsEarly
  | notHexDigit (c : Char)
  | notCharacter (point : Nat)
  | unterminatedDollar
  | unterminatedTagged
  | strayUnderscore
  | noOperatorAfter (start : String)
deriving DecidableEq, Repr

/-- The digits of a number in base sixteen, small letters. -/
def hexText (n : Nat) : String := String.ofList (Nat.toDigits 16 n)

/-- The wording of a lexical fault. -/
def LexicalFault.message : LexicalFault → String
  | .unterminatedString => "Unterminated string literal"
  | .unterminatedIdentifier q =>
    "Expected close delimiter '" ++ q.toString ++ "' before EOF."
  | .unterminatedComment => "Unexpected EOF while in a multi-line comment"
  | .unterminatedEscapes => "Unterminated encoded string literal"
  | .unterminatedUnicode => "Unterminated unicode encoded string literal"
  | .unicodeEndsEarly => "Unexpected EOF while parsing hex digit in escaped unicode string."
  | .notHexDigit c => "Invalid hex digit in escaped unicode string: " ++ c.toString
  | .notCharacter point => "Invalid unicode character: " ++ hexText point
  | .unterminatedDollar => "Unterminated dollar-quoted string"
  | .unterminatedTagged => "Unterminated dollar-quoted, expected $"
  | .strayUnderscore => "Unexpected character '_'"
  | .noOperatorAfter start => "Expected a valid binary operator after '" ++ start ++ "'"

/-- A lexical fault, with what is left of the text from where it counts. -/
structure Fault where
  reason : LexicalFault
  rest : List Char
deriving DecidableEq, Repr

/-- A reader of characters. -/
abbrev Reader := StateT (List Char) (Except Fault)

namespace Reader

variable {α σ : Type}

/-- Fail. The fault counts from the characters that were taken last. -/
def failBehind (taken : List Char) (reason : LexicalFault) : Reader α := fun text =>
  .error ⟨reason, taken ++ text⟩

/-- Fail here. -/
def fail (reason : LexicalFault) : Reader α := failBehind [] reason

/-- Read what stands behind an opening; whatever fails in it is a fault of the whole. -/
def behind (opening : List Char) (reason : LexicalFault) (reader : Reader α) : Reader α :=
  fun text =>
    match reader text with
    | .ok read => .ok read
    | .error _ => .error ⟨reason, opening ++ text⟩

/-- The next character, unless the text ends. -/
def next? : Reader (Option Char) := fun text => .ok (text.head?, text.tail)

/-- The next character. -/
def next (reason : LexicalFault) : Reader Char := do
  match ← next? with
  | some c => return c
  | none => fail reason

/-- Whether the next character satisfies the test. -/
def sees (test : Char → Bool) : Reader Bool := fun text => .ok (text.head?.any test, text)

/-- Take these characters, if the text starts with them and a character that satisfies the
test follows. -/
def takeBefore? (mark : List Char) (test : Char → Bool) : Reader Bool := fun text =>
  match afterStart? mark text with
  | some rest => if rest.head?.any test then .ok (true, rest) else .ok (false, text)
  | none => .ok (false, text)

/-- Take these characters, if the text starts with them. -/
def take? (mark : List Char) : Reader Bool := fun text =>
  match afterStart? mark text with
  | some rest => .ok (true, rest)
  | none => .ok (false, text)

/-- The longest start whose characters all satisfy the test. -/
def takeWhile (test : Char → Bool) : Reader (List Char) := fun text =>
  .ok (text.takeWhile test, text.dropWhile test)

/-- The longest such start of a limited length. -/
def takeAtMost (test : Char → Bool) : Nat → Reader (List Char)
  | 0 => return []
  | limit + 1 => do
    if ← sees test then
      match ← next? with
      | some c => return c :: (← takeAtMost test limit)
      | none => return []
    else return []

/-- How many digits a text starts with, where a separator may stand before a further
hexadecimal digit. -/
def digitCount (separators : Bool) (test : Char → Bool) : List Char → Nat
  | [] => 0
  | c :: rest =>
    if test c || (separators && c == '_' && rest.head?.any isHexDigit) then
      digitCount separators test rest + 1
    else 0

/-- Digits with their separators. -/
def takeDigits (separators : Bool) (test : Char → Bool) : Reader (List Char) := fun text =>
  let count := digitCount separators test text
  .ok (text.take count, text.drop count)

/-- Read what the first mark says that the text starts with. -/
def choose : List (List Char × Reader α) → Reader α → Reader α
  | [], other => other
  | row :: rows, other => do if ← take? row.1 then row.2 else choose rows other

/-- Read parts until there is none, within a budget. A part comes with the state behind it. -/
def partsWithin (part : σ → Reader (Option (List Char × σ))) : Nat → σ → Reader (List Char)
  | 0, _ => return []
  | budget + 1, state => do
    match ← part state with
    | some read => return read.1 ++ (← partsWithin part budget read.2)
    | none => return []

/-- Read parts until there is none. Each takes at least one character, so a budget of one per
character is never used up. -/
def parts (part : σ → Reader (Option (List Char × σ))) (start : σ) : Reader (List Char) :=
  fun text => partsWithin part (text.length + 1) start text

/-- Read parts that know nothing of each other. -/
def content (part : Reader (Option (List Char))) : Reader (List Char) :=
  parts (fun _ => do return (← part).map fun meaning => (meaning, ())) ()

end Reader
end TableAccess.Sql
