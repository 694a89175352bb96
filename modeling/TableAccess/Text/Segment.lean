import TableAccess.Text.Search

/-! A text as the places where something is found and the characters between them. A
pattern is tried at each character in turn; where it is found, the search goes on behind
it. What is done with the places (listing them, writing something else for them, counting
them) is then a matter of lists. -/
namespace TableAccess.Text

/-- Something that may stand at the start of a text: what was found and what follows. -/
abbrev Pattern (α : Type) := List Char → Option (α × List Char)

/-- One step through a text. -/
inductive Segment (α : Type) where
  | plain (c : Char)
  | found (value : α)
deriving DecidableEq, Repr

variable {α : Type}

/-- The segments of a text whose first `skip` characters belong to what was found
before. -/
def segmentsFrom (pattern : Pattern α) : Nat → List Char → List (Segment α)
  | _, [] => []
  | skip + 1, _ :: rest => segmentsFrom pattern skip rest
  | 0, c :: rest =>
    match pattern (c :: rest) with
    | none => .plain c :: segmentsFrom pattern 0 rest
    | some (value, after) => .found value :: segmentsFrom pattern (rest.length - after.length) rest

/-- The segments of a text. -/
def segments (pattern : Pattern α) (text : List Char) : List (Segment α) :=
  segmentsFrom pattern 0 text

/-- What is found in a text, in order. -/
def occurrences (pattern : Pattern α) (text : List Char) : List α :=
  (segments pattern text).filterMap fun s =>
    match s with
    | .found value => some value
    | .plain _ => none

/-- The text with something else written for each place. -/
def replace (pattern : Pattern α) (render : α → List Char) (text : List Char) : List Char :=
  (segments pattern text).flatMap fun s =>
    match s with
    | .found value => render value
    | .plain c => [c]

/-- The first place: what stands before it, what is found there and what follows. -/
def firstPlace? (pattern : Pattern α) : List Char → Option (List Char × α × List Char)
  | [] => none
  | c :: rest =>
    match pattern (c :: rest) with
    | some (value, after) => some ([], value, after)
    | none => (firstPlace? pattern rest).map fun (before, found) => (c :: before, found)

/-- The last place, in a text whose first `skip` characters belong to what was found
before. -/
def lastPlaceFrom? (pattern : Pattern α) : Nat → List Char → Option (List Char × α × List Char)
  | _, [] => none
  | skip + 1, c :: rest =>
    (lastPlaceFrom? pattern skip rest).map fun (before, found) => (c :: before, found)
  | 0, c :: rest =>
    match pattern (c :: rest) with
    | none => (lastPlaceFrom? pattern 0 rest).map fun (before, found) => (c :: before, found)
    | some (value, after) =>
      match lastPlaceFrom? pattern (rest.length - after.length) rest with
      | some (before, found) => some (c :: before, found)
      | none => some ([], value, after)

/-- The last place: what stands before it, what is found there and what follows. -/
def lastPlace? (pattern : Pattern α) (text : List Char) : Option (List Char × α × List Char) :=
  lastPlaceFrom? pattern 0 text

end TableAccess.Text
