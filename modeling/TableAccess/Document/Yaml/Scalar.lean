import TableAccess.Document.Json
import TableAccess.Document.Yaml.Cursor

/-! The four ways to write a text. Those that go over several lines fold them: the end of
a line becomes a blank, and empty lines become line ends. A block of lines keeps its line
ends, or folds only lines that are not indented further. -/
namespace TableAccess.Document.Yaml
open TableAccess.Text

/-- The blanks and line ends between two words. -/
structure Gap where
  /-- Blanks before the first line end. -/
  blanks : List Char
  /-- The first line end. -/
  first : Option Char
  /-- The further line ends. -/
  more : List Char
  /-- Whether a line ends in it. -/
  broken : Bool
deriving Repr

namespace Gap

/-- A gap without anything. -/
def none : Gap := ⟨[], .none, [], false⟩

/-- What a gap stands for. A single line end is folded to a blank. -/
def folded (g : Gap) : List Char :=
  if g.broken then
    match g.first with
    | some '\n' => if g.more.isEmpty then [' '] else g.more
    | some c => c :: g.more
    | .none => g.more
  else g.blanks

/-- Add a line end. -/
def addBreak (g : Gap) (c : Char) : Gap :=
  if g.broken then { g with more := g.more ++ [c] } else ⟨[], some c, g.more, true⟩

end Gap

/-- A gap and the place behind it. A tab must not stand in place of indentation, which is
needed before column `indent`. -/
def gap? (indent : Nat) : Nat → Gap → Cursor → Option (Gap × Cursor)
  | 0, _, _ => none
  | budget + 1, g, k =>
    match k.lineEnd? with
    | some (c, next) => gap? indent budget (g.addBreak c) next
    | none =>
      match k.text with
      | c :: _ =>
        if !isSpace c then some (g, k)
        else if g.broken then
          if c == '\t' && k.column < indent then none else gap? indent budget g (k.skip 1)
        else gap? indent budget { g with blanks := g.blanks ++ [c] } (k.skip 1)
      | [] => some (g, k)

/-- Whether a text without quotes ends before the rest of a word. -/
def endsPlain (inFlow : Bool) : List Char → Bool
  | [] => true
  | c :: rest =>
    isBreak c || isSpace c || (c == ':' && atBlank rest)
      || (inFlow && [',', '[', ']', '\x7b', '\x7d'].contains c)

/-- Whether a colon stands where a list or table in brackets cannot have one. -/
def hasStrayColon (inFlow : Bool) : List Char → Bool
  | ':' :: c :: _ => inFlow && [',', '?', '[', ']', '\x7b', '\x7d'].contains c
  | _ => false

/-- The rest of a word without quotes. -/
def plainWord? (inFlow : Bool) : Nat → Cursor → Option (List Char × Cursor)
  | 0, _ => none
  | budget + 1, k =>
    if hasStrayColon inFlow k.text then none
    else if endsPlain inFlow k.text then some ([], k)
    else (plainWord? inFlow budget (k.skip 1)).map fun (word, next) => (k.text.take 1 ++ word, next)

/-- The rest of a text without quotes, which goes on while lines are indented to column
`indent`. The answer also tells whether lines ended behind it. `gap` stands before the
next word. -/
def plain? (inFlow : Bool) (indent : Nat) : Nat → Gap → Cursor → Option (List Char × Bool × Cursor)
  | 0, _, _ => none
  | budget + 1, g, k =>
    if k.atMark || k.text.head? == some '#' then some ([], g.broken, k)
    else do
      let (word, next) ← plainWord? inFlow (k.text.length + 1) k
      let start := if word.isEmpty then [] else g.folded ++ word
      let g := if word.isEmpty then g else Gap.none
      if !atBlank next.text || next.text.isEmpty then return (start, g.broken, next)
      let (g, next) ← gap? indent (next.text.length + 1) g next
      if !inFlow && next.column < indent then return (start, g.broken, next)
      let (rest, broken, next) ← plain? inFlow indent budget g next
      return (start ++ rest, broken, next)

/-- The character of an escape, and how many characters the escape takes. -/
def escape? : List Char → Option (Char × Nat)
  | 'x' :: rest => code? 2 rest
  | 'u' :: rest => code? 4 rest
  | 'U' :: rest => code? 8 rest
  | c :: _ =>
    let letters := [('0', '\x00'), ('a', '\x07'), ('b', '\x08'), ('t', '\t'), ('\t', '\t'),
      ('n', '\n'), ('v', '\x0b'), ('f', '\x0c'), ('r', '\r'), ('e', '\x1b'), (' ', ' '), ('"', '"'),
      ('/', '/'), ('\\', '\\'), ('N', '\x85'), ('_', '\xa0'), ('L', '\u2028'), ('P', '\u2029')]
    (letters.lookup c).map fun e => (e, 1)
  | [] => none
where
  /-- A character by its number. -/
  code? (width : Nat) (text : List Char) : Option (Char × Nat) := do
    let digits := text.take width
    if digits.length < width then none
    let n ← Json.hexValue? digits
    if h : n.isValidChar then return (Char.ofNatAux n h, width + 1) else none

/-- The rest of a word between quotes. The answer also tells whether a backslash joins it
to the next line. -/
def quotedWord? (double : Bool) : Nat → Cursor → Option (List Char × Bool × Cursor)
  | 0, _ => none
  | budget + 1, k =>
    let add := fun (c : Char) (n : Nat) =>
      (quotedWord? double budget (k.skip n)).map fun (word, joined, next) =>
        (c :: word, joined, next)
    match k.text with
    | '\'' :: '\'' :: _ => if double then add '\'' 1 else add '\'' 2
    | '\'' :: _ => if double then add '\'' 1 else some ([], false, k)
    | '"' :: _ => if double then some ([], false, k) else add '"' 1
    | '\\' :: rest =>
      if !double then add '\\' 1
      else match (k.skip 1).lineEnd? with
        | some (_, next) => some ([], true, next)
        | none => do
          let (c, n) ← escape? rest
          add c (n + 1)
    | c :: _ => if isBreak c || isSpace c then some ([], false, k) else add c 1
    | [] => some ([], false, k)

/-- The rest of a text between quotes, up to the place behind the closing one. -/
def quoted? (double : Bool) : Nat → Cursor → Option (List Char × Cursor)
  | 0, _ => none
  | budget + 1, k =>
    if k.atMark then none
    else do
      let (word, joined, next) ← quotedWord? double (k.text.length + 1) k
      if !joined && next.text.head? == some (if double then '"' else '\'') then
        return (word, next.skip 1)
      if next.text.isEmpty then none
      let start := { Gap.none with broken := joined }
      let (g, next) ← gap? 0 (next.text.length + 1) start next
      let (rest, next) ← quoted? double budget next
      return (word ++ g.folded ++ rest, next)

/-- What the header of a block says about the line ends at its end. -/
inductive Chomping where
  | strip | clip | keep
deriving DecidableEq, Repr

/-- The header of a block: what becomes of its end, and how far it is indented. -/
def blockHeader? (k : Cursor) : Option (Chomping × Nat × Cursor) := do
  let (chomping, k) := sign k
  let (indent, k) ← digit? k
  let (chomping, k) := if chomping.isNone then sign k else (chomping, k)
  let k := k.skipWhile isSpace
  let k := if k.text.head? == some '#' then k.skipLine else k
  if !atBreak k.text then none
  return (chomping.getD .clip, indent, (k.lineEnd?.map Prod.snd).getD k)
where
  /-- A sign, where there is one. -/
  sign (k : Cursor) : Option Chomping × Cursor :=
    match k.text with
    | '+' :: _ => (some .keep, k.skip 1)
    | '-' :: _ => (some .strip, k.skip 1)
    | _ => (none, k)
  /-- A digit, where there is one. -/
  digit? (k : Cursor) : Option (Nat × Cursor) :=
    match k.text with
    | c :: _ =>
      if c == '0' then none
      else if isAsciiDigit c then some (c.toNat - '0'.toNat, k.skip 1)
      else some (0, k)
    | [] => some (0, k)

/-- The empty lines before the next line of a block: their ends, and the greatest column
that their blanks reach. An indentation of zero is not known yet. -/
def emptyLines? (indent : Nat) : Nat → Nat → Cursor → Option (List Char × Nat × Cursor)
  | 0, _, _ => none
  | budget + 1, widest, k =>
    let blanks := (k.text.takeWhile (· == ' ')).length
    let k := k.skip (if indent == 0 then blanks else min blanks (indent - k.column))
    let widest := max widest k.column
    if (indent == 0 || k.column < indent) && k.text.head? == some '\t' then none
    else match k.lineEnd? with
      | none => some ([], widest, k)
      | some (c, next) =>
        (emptyLines? indent budget widest next).map fun (ends, rest) => (c :: ends, rest)

/-- The lines of a block. `first` is the end of the line before, `more` are the ends of
the empty lines behind it, and `blank` tells whether that line was indented further. -/
def blockLines? (literal : Bool) (indent : Nat) :
    Nat → Option Char → Bool → List Char → Cursor →
      Option (List Char × Option Char × List Char × Cursor)
  | 0, _, _, _, _ => none
  | budget + 1, first, blank, more, k =>
    if k.column != indent || k.text.isEmpty then some ([], first, more, k)
    else do
      let further := match k.text with
        | c :: _ => isSpace c
        | [] => false
      let join :=
        if !literal && first == some '\n' && !blank && !further then
          if more.isEmpty then [' '] else more
        else first.toList ++ more
      let line := k.text.takeWhile fun c => !isBreak c
      let k := k.skipLine
      let (ended, k) := match k.lineEnd? with
        | some (c, next) => (some c, next)
        | none => (none, k)
      let (ends, _, k) ← emptyLines? indent (k.text.length + 1) 0 k
      let (rest, last) ← blockLines? literal indent budget ended further ends k
      return (join ++ line ++ rest, last)

/-- A block of lines, inside a block that is indented to column `outer`. -/
def block? (literal : Bool) (outer : Int) (k : Cursor) : Option (List Char × Cursor) := do
  let (chomping, hint, k) ← blockHeader? k
  let given := if hint == 0 then 0 else (max outer 0).toNat + hint
  let (ends, widest, k) ← emptyLines? given (k.text.length + 1) 0 k
  let indent := if given == 0 then max (max widest (outer + 1).toNat) 1 else given
  let (content, last, more, k) ← blockLines? literal indent (k.text.length + 1) none false ends k
  let ending := match chomping with
    | .strip => []
    | .clip => last.toList
    | .keep => last.toList ++ more
  return (content ++ ending, k)

end TableAccess.Document.Yaml
