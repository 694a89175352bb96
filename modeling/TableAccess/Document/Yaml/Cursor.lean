import TableAccess.Text.Search

/-! A place in a text whose layout counts: what remains, with the line and column that it
starts at. -/
namespace TableAccess.Document.Yaml
open TableAccess.Text

/-- A place in a text. -/
structure Cursor where
  text : List Char
  line : Nat
  column : Nat
  index : Nat
deriving Repr, Inhabited

/-- Whether a character ends a line. -/
def isBreak (c : Char) : Bool :=
  c == '\n' || c == '\r' || c == '\x85' || c == '\u2028' || c == '\u2029'

/-- Whether a character is a space or a tab. -/
def isSpace (c : Char) : Bool := c == ' ' || c == '\t'

/-- Whether a text ends or goes on with the end of a line. -/
def atBreak : List Char → Bool
  | [] => true
  | c :: _ => isBreak c

/-- Whether a word ends before a text. -/
def atBlank : List Char → Bool
  | [] => true
  | c :: _ => isBreak c || isSpace c

namespace Cursor

/-- The place behind some characters of one line. -/
def skip (k : Cursor) (n : Nat) : Cursor :=
  { k with text := k.text.drop n, column := k.column + n, index := k.index + n }

/-- What the end of a line stands for, and the place behind it. -/
def lineEnd? (k : Cursor) : Option (Char × Cursor) :=
  let next := fun (rest : List Char) (n : Nat) => Cursor.mk rest (k.line + 1) 0 (k.index + n)
  match k.text with
  | '\r' :: '\n' :: rest => some ('\n', next rest 2)
  | c :: rest =>
    if c == '\n' || c == '\r' || c == '\x85' then some ('\n', next rest 1)
    else if isBreak c then some (c, next rest 1)
    else none
  | [] => none

/-- The place behind all characters of a class on this line. -/
def skipWhile (k : Cursor) (p : Char → Bool) : Cursor := k.skip (k.text.takeWhile p).length

/-- The place at the end of the line. -/
def skipLine (k : Cursor) : Cursor := k.skipWhile fun c => !isBreak c

/-- Whether a document starts or ends here. -/
def atMark (k : Cursor) : Bool :=
  let marked := fun (mark : String) =>
    match afterStart? mark.toList k.text with
    | some rest => atBlank rest
    | none => false
  k.column == 0 && (marked "---" || marked "...")

end Cursor
end TableAccess.Document.Yaml
