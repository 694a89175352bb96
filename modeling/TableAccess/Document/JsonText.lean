import TableAccess.Document.Data

/-! Data written in JSON, one item or field a line. -/
namespace TableAccess.Document.JsonText

/-- A digit of a number to base 16. -/
def hexDigit (n : Nat) : Char := "0123456789abcdef".toList.getD n '0'

/-- The character as it stands between quotes. Control characters are escaped, five of
them by a letter. -/
def quotedChar (c : Char) : List Char :=
  match c with
  | '"' => ['\\', '"']
  | '\\' => ['\\', '\\']
  | '\x08' => ['\\', 'b']
  | '\x0c' => ['\\', 'f']
  | '\n' => ['\\', 'n']
  | '\r' => ['\\', 'r']
  | '\t' => ['\\', 't']
  | _ =>
    if c.toNat < 0x20 then
      ['\\', 'u', '0', '0', hexDigit (c.toNat / 16), hexDigit (c.toNat % 16)]
    else [c]

/-- A text between quotes. -/
def quoted (content : String) : String :=
  "\"" ++ String.ofList (content.toList.flatMap quotedChar) ++ "\""

/-- Lines with something behind the last one. -/
def withEnd (mark : String) : List String → List String
  | [] => []
  | [last] => [last ++ mark]
  | line :: rest => line :: withEnd mark rest

/-- Blocks of lines between brackets, with commas between the blocks. -/
def bracketed (opening closing : String) (blocks : List (List String)) : List String :=
  match blocks with
  | [] => [opening ++ closing]
  | _ =>
    let separated := blocks.dropLast.map (withEnd ",") ++ (blocks.getLast?.toList)
    opening :: separated.flatMap indented ++ [closing]

mutual

/-- The lines of some data. -/
def lines : Data → List String
  | .text content => [quoted content]
  | .number n => [toString n]
  | .list items => bracketed "[" "]" (itemLines items)
  | .table fields => bracketed "\x7b" "\x7d" (fieldLines fields)

/-- The lines of each item. -/
def itemLines : List Data → List (List String)
  | [] => []
  | item :: rest => lines item :: itemLines rest

/-- The lines of each field. -/
def fieldLines : List (String × Data) → List (List String)
  | [] => []
  | (key, value) :: rest =>
    let block := match lines value with
      | [] => []
      | first :: more => (quoted key ++ ": " ++ first) :: more
    block :: fieldLines rest

end

/-- Some data as a text. -/
def write (data : Data) : String := String.intercalate "\n" (lines data)

end TableAccess.Document.JsonText
