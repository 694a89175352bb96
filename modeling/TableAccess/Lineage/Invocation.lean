import TableAccess.Text.Search

/-! The method that an invocation calls, by its bare name. Invocations come as they stand
in the code, with receivers, type arguments and a list of arguments around the name. -/
namespace TableAccess.Invocation
open TableAccess.Text

/-- What stands in front of the parenthesis that opens the last argument list, in a text
that is read backwards; `depth` parentheses are open. -/
def beforeArguments? : Nat → List Char → Option (List Char)
  | _, [] => none
  | depth, ')' :: rest => beforeArguments? (depth + 1) rest
  | depth, '(' :: rest => if depth ≤ 1 then some rest else beforeArguments? (depth - 1) rest
  | depth, _ :: rest => beforeArguments? depth rest

/-- A text without the argument list that ends it. -/
def withoutArguments (text : List Char) : List Char :=
  match text.reverse with
  | ')' :: rest =>
    match beforeArguments? 0 (')' :: rest) with
    | some before => (trimStart before).reverse
    | none => text
  | _ => text

/-- Close the innermost open angle bracket: everything since is dropped. A closing
bracket without an open one stays. Open parts are kept backwards, innermost first. -/
def closeWitness : List (List Char) → List (List Char)
  | [] => []
  | [base] => ['>' :: base]
  | _ :: outer => outer

/-- A text without its type arguments, given the parts that are open. -/
def witnessFree : List (List Char) → List Char → List Char
  | parts, [] => ((parts.intersperse ['<']).flatten).reverse
  | parts, '<' :: rest => witnessFree ([] :: parts) rest
  | parts, '>' :: rest => witnessFree (closeWitness parts) rest
  | part :: outer, c :: rest => witnessFree ((c :: part) :: outer) rest
  | [], c :: rest => witnessFree [[c]] rest

/-- What follows the last receiver, given what stands since the one before,
backwards. -/
def withoutReceivers : List Char → List Char → List Char
  | _, '.' :: rest => withoutReceivers [] rest
  | _, ':' :: ':' :: rest => withoutReceivers [] rest
  | _, '-' :: '>' :: rest => withoutReceivers [] rest
  | name, c :: rest => withoutReceivers (c :: name) rest
  | name, [] => name.reverse

/-- The bare name of the method that an invocation calls. -/
def method (invocation : String) : String :=
  let text := withoutArguments (trim invocation.toList)
  String.ofList (trim (withoutReceivers [] (witnessFree [[]] text)))

end TableAccess.Invocation
