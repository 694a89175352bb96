import TableAccess.Document.Value
import TableAccess.Document.Yaml.Token

/-! Documents in YAML. A value may be given a name and be repeated by it. A text holds
exactly one document. -/
namespace TableAccess.Document.Yaml

/-- What remains to be read: the tokens, and the values that have names, the latest
first. -/
structure Remaining where
  tokens : List Token
  named : List (String × Value)

/-- A reading of part of a text. -/
abbrev Reader := StateT Remaining Option

namespace Reader

/-- The next token. -/
def peek : Reader Token := fun r =>
  match r.tokens with
  | [] => none
  | t :: _ => some (t, r)

/-- Go on behind the next token. -/
def drop : Reader Unit := fun r => some ((), { r with tokens := r.tokens.drop 1 })

/-- Go on behind a token of the given kind, if it is next. -/
def accept (t : Token) : Reader Bool := do
  if (← peek) == t then
    drop
    return true
  else return false

/-- Go on behind a token that must be next. -/
def expect (t : Token) : Reader Unit := do
  if !(← accept t) then failure

/-- The value of a name. -/
def named (name : String) : Reader Value := fun r => (r.named.lookup name).map fun v => (v, r)

/-- Give a value a name. -/
def giveName (name : String) (v : Value) : Reader Unit := fun r =>
  some ((), { r with named := (name, v) :: r.named })

/-- A value that is not there. -/
def absent : Value := .plain ""

/-- The key that a value is. -/
def keyOf : Value → Option String
  | .text content => some content
  | .plain written => some written
  | .tagged _ (.text content) => some content
  | .tagged _ (.plain written) => some written
  | _ => none

/-- The name and the tag in front of a value, in either order. -/
def properties : Reader (Option String × Option String) := do
  let anchor := fun (t : Token) =>
    match t with
    | .anchor name => some name
    | _ => none
  let tag := fun (t : Token) =>
    match t with
    | .tag name => some name
    | _ => none
  let optional := fun (part : Token → Option String) => do
    match part (← peek) with
    | some name =>
      drop
      return some name
    | none => return none
  let first ← optional anchor
  let kind ← optional tag
  match first with
  | some name => return (some name, kind)
  | none => return (← optional anchor, kind)

mutual

/-- A value. `inBlock` says whether it may be a block, and `underKey` whether it may be a
list that is not indented further than its key. -/
def node (inBlock underKey : Bool) : Nat → Reader Value
  | 0 => failure
  | budget + 1 => do
    match ← peek with
    | .repetition name =>
      drop
      named name
    | _ =>
      let (name, kind) ← properties
      let content ← match ← peek with
        | .item =>
          if underKey then pure (.list (← itemsUnderKey budget))
          else if name.isSome || kind.isSome then pure absent
          else failure
        | .scalar quoted content =>
          drop
          pure (if quoted then .text content else .plain content)
        | .openBracket =>
          drop
          pure (.list (← bracketItems true budget))
        | .openBrace =>
          drop
          pure (.table (← braceFields true budget))
        | .listStart =>
          if inBlock then
            drop
            pure (.list (← blockItems budget))
          else failure
        | .tableStart =>
          if inBlock then
            drop
            pure (.table (← blockFields budget))
          else failure
        | _ => if name.isSome || kind.isSome then pure absent else failure
      let content := match kind with
        | some kind => Value.tagged kind content
        | none => content
      match name with
      | some name =>
        giveName name content
        return content
      | none => return content

/-- A value, unless one of some tokens is next. -/
def nodeUnless (inBlock underKey : Bool) (ends : List Token) : Nat → Reader Value
  | 0 => failure
  | budget + 1 => do
    if ends.contains (← peek) then return absent else node inBlock underKey budget

/-- The items of a block up to its end. -/
def blockItems : Nat → Reader (List Value)
  | 0 => failure
  | budget + 1 => do
    if ← accept .blockEnd then return []
    else
      expect .item
      let v ← nodeUnless true false [.item, .blockEnd] budget
      return v :: (← blockItems budget)

/-- The items of a list that is not indented further than its key. -/
def itemsUnderKey : Nat → Reader (List Value)
  | 0 => failure
  | budget + 1 => do
    if ← accept .item then
      let v ← nodeUnless true false [.item, .key, .value, .blockEnd] budget
      return v :: (← itemsUnderKey budget)
    else return []

/-- The fields of a block up to its end. -/
def blockFields : Nat → Reader (List (Option String × Value))
  | 0 => failure
  | budget + 1 => do
    if ← accept .blockEnd then return []
    else
      expect .key
      let ends := [Token.key, .value, .blockEnd]
      let key ← nodeUnless true true ends budget
      let v ← if ← accept .value then nodeUnless true true ends budget else pure absent
      return (keyOf key, v) :: (← blockFields budget)

/-- The items of a list in brackets up to its end. An item with a colon is a table of one
field. -/
def bracketItems (first : Bool) : Nat → Reader (List Value)
  | 0 => failure
  | budget + 1 => do
    if ← accept .closeBracket then return []
    else
      if !first then expect .comma
      let ends := [Token.comma, .closeBracket]
      if ← accept .key then
        let key ← nodeUnless false false (.value :: ends) budget
        let v ← if ← accept .value then nodeUnless false false ends budget else pure absent
        return .table [(keyOf key, v)] :: (← bracketItems false budget)
      else if !first && (← peek) == .closeBracket then bracketItems false budget
      else
        let v ← node false false budget
        return v :: (← bracketItems false budget)

/-- The fields of a table in braces up to its end. -/
def braceFields (first : Bool) : Nat → Reader (List (Option String × Value))
  | 0 => failure
  | budget + 1 => do
    if ← accept .closeBrace then return []
    else
      if !first then expect .comma
      let ends := [Token.comma, .closeBrace]
      if ← accept .key then
        let key ← nodeUnless false false (.value :: ends) budget
        let v ← if ← accept .value then nodeUnless false false ends budget else pure absent
        return (keyOf key, v) :: (← braceFields false budget)
      else if !first && (← peek) == .closeBrace then braceFields false budget
      else
        let key ← node false false budget
        return (keyOf key, absent) :: (← braceFields false budget)

end

/-- Go on behind all tokens of a kind. -/
def dropAll (t : Token) : Nat → Reader Bool
  | 0 => return false
  | budget + 1 => do
    if ← accept t then
      let _ ← dropAll t budget
      return true
    else return false

/-- The only document of a text. Directives must be followed by the start of one. -/
def document (budget : Nat) : Reader Value := do
  let directed ← dropAll .directive budget
  let content ← if ← accept .documentStart then
      nodeUnless true false [.directive, .documentStart, .documentEnd, .finish] budget
    else if directed then failure
    else nodeUnless true false [.finish] budget
  let _ ← dropAll .documentEnd budget
  expect .finish
  return content

end Reader

/-- Read a document. -/
def read (text : String) : Read :=
  let value := do
    let tokens ← tokens? text.toList
    (Reader.document (4 * tokens.length + 4)).run' ⟨tokens, []⟩
  match value with
  | some v => ⟨v, true⟩
  | none => ⟨.broken, false⟩

end TableAccess.Document.Yaml
