import TableAccess.Template.Markup

/-! Fragments of statements, which mappers name and include. A fragment may include others;
how deeply is bounded, so fragments that include themselves do no harm. An inclusion of a
fragment that is not there is left as it is. -/
namespace TableAccess.Fragment
open TableAccess.Text TableAccess.Template

/-- How many inclusions are written one inside the other. -/
def depthLimit : Nat := 8

/-- What follows the end of the tag of an inclusion, or the end of the element if the tag
does not close it. -/
def inclusionEnd? (text : List Char) : Option (List Char) :=
  match afterStart? ['/', '>'] text with
  | some rest => some rest
  | none => do
    let rest ← afterStart? ['>'] text
    let (_, _, after) ← firstPlace? (closing ["include"]) rest
    return after

/-- An inclusion by the name of its fragment. -/
def inclusion : Pattern (List Char) := fun text => do
  let rest ← afterStart? "<include".toList text
  if (rest.head?.map isBlank).getD false == false then none
  let rest ← afterStart? "refid".toList (trimStart rest)
  let rest ← afterStart? ['='] (trimStart rest)
  let isQuote := fun c => c == '"' || c == '\''
  match trimStart rest with
  | quote :: rest =>
    let name := rest.takeWhile fun c => !isQuote c
    match rest.drop name.length with
    | _ :: rest =>
      if isQuote quote && !name.isEmpty then
        (inclusionEnd? (trimStart rest)).map fun after => (name, after)
      else none
    | [] => none
  | [] => none

/-- The fragment of a name: by the whole name, or else by its last part. -/
def find? (fragments : List (String × List Char)) (name : List Char) : Option (List Char) :=
  let last := (name.reverse.takeWhile (· != '.')).reverse
  (fragments.lookup (String.ofList name)).orElse fun _ => fragments.lookup (String.ofList last)

/-- A text with the fragments that it includes, `depth` of them one inside the other. -/
def write (fragments : List (String × List Char)) : Nat → List Char → List Char
  | 0, text => text
  | depth + 1, text => replaceFound (fun name => (find? fragments name).map fun body =>
      ' ' :: write fragments depth body ++ [' ']) text
where
  /-- Something else in place of each inclusion for which there is something. -/
  replaceFound (body? : List Char → Option (List Char)) (text : List Char) : List Char :=
    replace (fun text => do
      let (name, after) ← inclusion text
      let written := text.take (text.length - after.length)
      return ((body? name).getD written, after)) id text

end TableAccess.Fragment
