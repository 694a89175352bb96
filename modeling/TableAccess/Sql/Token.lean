/-! The words of the query language. A token keeps what was written, so that a
message can show it again; a keyword is only an unquoted word read without regard
to case, because every keyword is also a legal name somewhere. -/
namespace TableAccess.Sql

/-- A place in the text; lines and columns are counted from one. -/
structure Position where
  line : Nat
  column : Nat
deriving DecidableEq, Repr

/-- The place as a message ends with it. The end of the text has no place. -/
def Position.suffix : Option Position → String
  | none => ""
  | some p => " at Line: " ++ toString p.line ++ ", Column: " ++ toString p.column

/-- The ways to write a string literal. -/
inductive TextForm where
  | single | double | national | escaped | unicode | hex
  | bits | doubleBits | raw | doubleRaw | tripleRaw | tripleDoubleRaw
deriving DecidableEq, Repr

/-- What stands before and after the content of a literal of this form. -/
def TextForm.delimiters : TextForm → String × String
  | .single => ("'", "'")
  | .double => ("\"", "\"")
  | .national => ("N'", "'")
  | .escaped => ("E'", "'")
  | .unicode => ("U&'", "'")
  | .hex => ("X'", "'")
  | .bits => ("B'", "'")
  | .doubleBits => ("B\"", "\"")
  | .raw => ("R'", "'")
  | .doubleRaw => ("R\"", "\"")
  | .tripleRaw => ("R'''", "'''")
  | .tripleDoubleRaw => ("R\"\"\"", "\"\"\"")

/-- One token of the language. Punctuation and operators carry their usual
spelling; `stray` is a character that belongs to no token, and `finish` stands
after the last one. -/
inductive Token where
  | word (value : String) (quote : Option Char)
  | number (digits : String) (long : Bool)
  | text (form : TextForm) (value : String)
  | dollarText (tag : Option String) (value : String)
  | parameter (spelling : String)
  | symbol (spelling : String)
  | operator (spelling : String)
  | stray (c : Char)
  | finish
deriving DecidableEq, Repr

/-- The quote that closes what this one opens. -/
def closingQuote (quote : Char) : Char :=
  if quote == '[' then ']' else quote

/-- How the capital of a character is written in ASCII, where it is. Ligatures and
the dotless and long letters have ASCII capitals too. -/
def asciiCapital (c : Char) : List Char :=
  if 'a' ≤ c && c ≤ 'z' then [c.toUpper]
  else if c.toNat < 0x80 then [c]
  else match c.toNat with
    | 0xdf => ['S', 'S']
    | 0x131 => ['I']
    | 0x17f => ['S']
    | 0xfb00 => ['F', 'F']
    | 0xfb01 => ['F', 'I']
    | 0xfb02 => ['F', 'L']
    | 0xfb03 => ['F', 'F', 'I']
    | 0xfb04 => ['F', 'F', 'L']
    | 0xfb05 => ['S', 'T']
    | 0xfb06 => ['S', 'T']
    | _ => [c]

/-- A word in capitals, as keywords are compared. -/
def capitals (s : String) : String := String.ofList (s.toList.flatMap asciiCapital)

/-- The keyword an unquoted word spells; other tokens spell none. -/
def Token.keyword : Token → String
  | .word value none => capitals value
  | _ => ""

/-- The token as it is shown in a message. -/
def Token.shown : Token → String
  | .word value none => value
  | .word value (some q) => q.toString ++ value ++ (closingQuote q).toString
  | .number digits long => if long then digits ++ "L" else digits
  | .text form value => form.delimiters.1 ++ value ++ form.delimiters.2
  | .dollarText none value => "$$" ++ value ++ "$$"
  | .dollarText (some tag) value => "$" ++ tag ++ "$" ++ value ++ "$" ++ tag ++ "$"
  | .parameter spelling => spelling
  | .symbol spelling => spelling
  | .operator spelling => spelling
  | .stray c => c.toString
  | .finish => "EOF"

/-- The name of a symbol that has a rank among operators but no meaning as one. -/
def symbolName : String → String
  | "#" => "Sharp"
  | "&&" => "Overlap"
  | "<<" => "ShiftLeft"
  | ">>" => "ShiftRight"
  | "!" => "ExclamationMark"
  | "^@" => "CaretAt"
  | "//" => "DuckIntDiv"
  | "[" => "LBracket"
  | "." => "Period"
  | spelling => spelling

/-- The token as the message about a missing operator describes it, with the
parts of a word laid out. -/
def Token.described : Token → String
  | .word value none =>
    "Word(Word \x7b value: \"" ++ value ++ "\", quote_style: None, keyword: " ++ capitals value
      ++ " \x7d)"
  | .symbol spelling => symbolName spelling
  | token => token.shown

/-- A token with its number in the text, and whether nothing at all stands between it and the
token before it. -/
structure Lexeme where
  token : Token
  number : Option Nat
  touching : Bool
deriving DecidableEq, Repr

/-- What a reader finds after the last token. -/
def Lexeme.finish : Lexeme := ⟨.finish, none, false⟩

end TableAccess.Sql
