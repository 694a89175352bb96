/-! Lists in increasing order without repetition, as sets and as tables by key. Results
are kept in such lists, so that they do not depend on the order in which a statement
was walked. -/
namespace TableAccess

variable {α : Type}

/-- Put an item in its place, unless an equal one is there. -/
def insertNew (order : α → α → Ordering) (x : α) : List α → List α
  | [] => [x]
  | y :: rest =>
    match order x y with
    | .lt => x :: y :: rest
    | .eq => y :: rest
    | .gt => y :: insertNew order x rest

/-- Put an item in its place, over an equal one that is there. -/
def insertOver (order : α → α → Ordering) (x : α) : List α → List α
  | [] => [x]
  | y :: rest =>
    match order x y with
    | .lt => x :: y :: rest
    | .eq => x :: rest
    | .gt => y :: insertOver order x rest

/-- The items in increasing order; of equal ones the first. -/
def sortedNew (order : α → α → Ordering) (items : List α) : List α :=
  items.foldl (fun sorted x => insertNew order x sorted) []

/-- The items in increasing order; of equal ones the last. -/
def sortedOver (order : α → α → Ordering) (items : List α) : List α :=
  items.foldl (fun sorted x => insertOver order x sorted) []

/-- Names as a set. -/
def nameSet (names : List String) : List String := sortedNew compare names

/-- Pairs as a table of sets: each first part with the set of its second parts. -/
def nameTable (pairs : List (String × String)) : List (String × List String) :=
  (nameSet (pairs.map Prod.fst)).map fun key =>
    (key, nameSet ((pairs.filter fun pair => pair.1 == key).map Prod.snd))

/-- The order of optional names, where none comes first. -/
def optionalOrder (a b : Option String) : Ordering :=
  match a, b with
  | none, none => .eq
  | none, some _ => .lt
  | some _, none => .gt
  | some a, some b => compare a b

end TableAccess
