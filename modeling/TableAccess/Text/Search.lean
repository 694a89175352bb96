import TableAccess.Text.CharClass

/-! Searching and cutting texts, as lists of characters. -/
namespace TableAccess.Text

/-- What follows the given start, if the text has it. -/
def afterStart? : List Char → List Char → Option (List Char)
  | [], rest => some rest
  | c :: start, d :: rest => if c == d then afterStart? start rest else none
  | _ :: _, [] => none

/-- What stands before and after the first occurrence of a part. -/
def splitAt? (part : List Char) : List Char → Option (List Char × List Char)
  | [] => if part.isEmpty then some ([], []) else none
  | c :: rest =>
    match afterStart? part (c :: rest) with
    | some after => some ([], after)
    | none => (splitAt? part rest).map fun (before, after) => (c :: before, after)

/-- The text without the blanks before it. -/
def trimStart (text : List Char) : List Char := text.dropWhile isBlank

/-- The text without the blanks after it. -/
def trimEnd (text : List Char) : List Char := (trimStart text.reverse).reverse

/-- The text without the blanks around it. -/
def trim (text : List Char) : List Char := trimEnd (trimStart text)

/-- The value of decimal digits. -/
def decimalValue (digits : List Char) : Nat :=
  digits.foldl (fun n c => 10 * n + (c.toNat - '0'.toNat)) 0

/-- A number that fits in 64 bits, from its decimal digits; there must be some. -/
def word64? (digits : List Char) : Option Nat :=
  let value := decimalValue digits
  if !digits.isEmpty && digits.all isAsciiDigit && value < Nat.pow 2 64 then some value else none

/-- The parts of a text between the occurrences of a character; there is always one. -/
def splitOnChar (separator : Char) : List Char → List (List Char)
  | [] => [[]]
  | c :: rest =>
    if c == separator then [] :: splitOnChar separator rest
    else match splitOnChar separator rest with
      | part :: parts => (c :: part) :: parts
      | [] => [[c]]

end TableAccess.Text
