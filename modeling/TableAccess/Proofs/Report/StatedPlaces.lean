import TableAccess.Sql.Outline
import TableAccess.Proofs.Template.Scanning
import TableAccess.Proofs.Text.Blank
import Mathlib.Data.List.Infix
import Mathlib.Data.List.TakeWhile

/-! The place that an error shows in front of its message. A parser ends its messages with the place, and
the text before it can quote the statement that is at fault. The first mark of a line number counts; so the
place at the end is shown unless the text before it has such a mark of its own, and then what is shown is
decided by that text alone. -/
namespace TableAccess
open TableAccess.Text

namespace Text
theorem decimalValue_toString (n : Nat) : decimalValue (toString n).toList = n := by
  rw [Nat.toString_eq_repr, Nat.toList_repr]
  exact Nat.ofDigitChars_toDigits (by decide) (by decide)

theorem isAsciiDigit_of_mem_toString {n : Nat} {c : Char} (member : c ∈ (toString n).toList) :
    isAsciiDigit c = true := by
  rw [Nat.toString_eq_repr, Nat.toList_repr] at member
  have digit : c.isDigit = true := Nat.isDigit_of_mem_toDigits (by decide) (by decide) member
  exact digit

theorem isBlank_of_isAsciiDigit {c : Char} (digit : isAsciiDigit c = true) : isBlank c = false := by
  cases blank : isBlank c with
  | false => rfl
  | true =>
    have other := isHexDigit_of_isBlank blank
    simp [isHexDigit, digit] at other

theorem word64?_toString {n : Nat} (fits : n < 2 ^ 64) : word64? (toString n).toList = some n := by
  have digits : (toString n).toList.all isAsciiDigit = true :=
    List.all_eq_true.mpr fun c => isAsciiDigit_of_mem_toString
  have some_ : (toString n).toList.isEmpty = false := by simp
  rw [word64?, decimalValue_toString, digits, some_]
  exact if_pos (decide_eq_true fits)

end Text

/-- The mark of a line number. -/
def lineMark : List Char := "Line: ".toList

/-- The place that is read behind the mark of a line number. -/
def placeBehind? (rest : List Char) : Option (Nat × Nat) := do
  let line ← word64? (rest.takeWhile isAsciiDigit)
  let afterWord ← afterStart? ", Column".toList (rest.dropWhile isAsciiDigit)
  let column ← word64? ((trimStart (afterWord.dropWhile (· == ':'))).takeWhile isAsciiDigit)
  return (line, column)

/-- A place as parsers write it. -/
def placeText (line column : Nat) : List Char :=
  (toString line).toList ++ ", Column: ".toList ++ (toString column).toList

section
variable {text : List Char} {line column : Nat}

theorem lineMark_eq : lineMark = "Line".toList ++ [':', ' '] := by decide

theorem statedPlace?_eq (message : List Char) : statedPlace? message =
    (splitAt? lineMark message).bind fun (_, rest) => placeBehind? rest := rfl

/-- The place at the end of a message is read as it is written. -/
theorem placeBehind?_placeText (fits : line < 2 ^ 64) (fits' : column < 2 ^ 64) :
    placeBehind? (placeText line column) = some (line, column) := by
  have whole : placeText line column =
      (toString line).toList ++ (", Column".toList ++ ':' :: ' ' :: (toString column).toList) := by
    simp [placeText]
  have ends : ∀ c ∈ (", Column".toList ++ ':' :: ' ' :: (toString column).toList).head?,
      isAsciiDigit c = false := by
    rintro c ⟨rfl⟩
    decide
  have lineDigits : (placeText line column).takeWhile isAsciiDigit = (toString line).toList := by
    rw [whole]
    exact takeWhile_run (fun c => isAsciiDigit_of_mem_toString) ends
  have behind : (placeText line column).dropWhile isAsciiDigit =
      ", Column".toList ++ ':' :: ' ' :: (toString column).toList := by
    rw [whole]
    exact dropWhile_run (fun c => isAsciiDigit_of_mem_toString) ends
  have trimmed : trimStart ((':' :: ' ' :: (toString column).toList).dropWhile (· == ':')) =
      (toString column).toList :=
    trimStart_of_head fun c first =>
      isBlank_of_isAsciiDigit (isAsciiDigit_of_mem_toString (List.mem_of_mem_head? first))
  have columnDigits : (toString column).toList.takeWhile isAsciiDigit = (toString column).toList :=
    List.takeWhile_eq_self_iff.mpr fun c => isAsciiDigit_of_mem_toString
  simp only [placeBehind?, lineDigits, behind, word64?_toString fits, afterStart?_append, trimmed,
    columnDigits, word64?_toString fits', Option.bind_eq_bind, Option.bind_some, Option.pure_def]

/-- What ends with a word makes no difference to a place that is read before it. -/
theorem placeBehind?_append (rest more : List Char) :
    placeBehind? (rest ++ ' ' :: 'a' :: more) = placeBehind? rest := by
  have ends {test : Char → Bool} (other : test ' ' = false) :
      ∀ c ∈ (' ' :: 'a' :: more).head?, test c = false := by
    rintro c ⟨rfl⟩
    exact other
  have apart : ∀ behind, behind <:+ ", Column".toList → behind ≠ [] →
      afterStart? behind (' ' :: 'a' :: more) = none := by
    intro behind part some_
    have listed : behind ∈ ", Column".toList.tails := (List.mem_tails _ _).mpr part
    cases behind with
    | nil => exact absurd rfl some_
    | cons c behind =>
      simp only [String.reduceToList, List.tails, List.mem_cons, List.cons.injEq, List.not_mem_nil,
        reduceCtorEq, or_false] at listed
      rcases listed with ⟨rfl, rfl⟩ | ⟨rfl, rfl⟩ | ⟨rfl, rfl⟩ | ⟨rfl, rfl⟩ | ⟨rfl, rfl⟩ | ⟨rfl, rfl⟩ |
        ⟨rfl, rfl⟩ | ⟨rfl, rfl⟩ <;> rfl
  have colons (behind : List Char) : (behind ++ ' ' :: 'a' :: more).dropWhile (· == ':') =
      behind.dropWhile (· == ':') ++ ' ' :: 'a' :: more :=
    dropWhile_append_of_stop (ends rfl)
  have column (behind : List Char) : (trimStart (behind ++ ' ' :: 'a' :: more)).takeWhile isAsciiDigit =
      (trimStart behind).takeWhile isAsciiDigit := by
    induction behind with
    | nil => rfl
    | cons c behind ih =>
      rw [trimStart, trimStart, List.cons_append, List.dropWhile_cons, List.dropWhile_cons]
      split
      · exact ih
      · rw [← List.cons_append]
        exact takeWhile_append_of_stop (ends rfl)
  rw [placeBehind?, takeWhile_append_of_stop (ends rfl), dropWhile_append_of_stop (ends rfl),
    afterStart?_append_of_apart apart, placeBehind?]
  cases afterStart? ", Column".toList (rest.dropWhile isAsciiDigit) with
  | none => rfl
  | some behind =>
    simp only [Option.map_some, Option.bind_eq_bind, Option.bind_some, colons, column]

/-- Whether a text has the mark of a line number, or ends so that a blank behind it completes one. -/
def HasLineMark (text : List Char) : Prop := lineMark <:+: text ++ [' ']

instance (text : List Char) : Decidable (HasLineMark text) :=
  inferInstanceAs (Decidable (lineMark <:+: text ++ [' ']))

/-- The first mark of a line number counts. -/
theorem statedPlace?_first {before : List Char} (absent : ¬ lineMark <:+: before) (rest : List Char) :
    statedPlace? (before ++ lineMark ++ rest) = placeBehind? rest := by
  have whole : before ++ lineMark ++ rest = before ++ ("Line:".toList ++ ' ' :: rest) := by
    simp [lineMark_eq]
  have once : ' ' ∉ "Line:".toList := by decide
  have split : splitAt? lineMark (before ++ lineMark ++ rest) = some (before, rest) := by
    rw [whole]
    exact splitAt?_mark once absent rest
  rw [statedPlace?_eq, split, Option.bind_some]

/-- A mark that ends elsewhere than with its own last two characters ends earlier. -/
theorem held_without_last {front : List Char} {c d : Char} (other : [':', ' '] ≠ [c, d])
    (held : lineMark <:+: front ++ [c] ++ [d]) : lineMark <:+: front ++ [c] := by
  refine (List.infix_concat_iff.mp held).resolve_left fun suffix => ?_
  obtain ⟨before, same⟩ := suffix
  rw [lineMark_eq, ← List.append_assoc, List.append_assoc front] at same
  exact other (List.append_inj' same rfl).2

/-- A mark can begin in a text, but not in the word that stands between the text and the next mark. -/
theorem hasLineMark_of_held (held : lineMark <:+: text ++ " at ".toList) : HasLineMark text := by
  have whole : text ++ " at ".toList = text ++ [' '] ++ ['a'] ++ ['t'] ++ [' '] := by simp
  rw [whole] at held
  have behindWord : lineMark <:+: text ++ [' '] ++ ['a'] ++ ['t'] := held_without_last (by decide) held
  have inWord : lineMark <:+: text ++ [' '] ++ ['a'] := held_without_last (by decide) behindWord
  exact held_without_last (by decide) inWord

/-- The place at the end of a message is found unless the text before it has a mark. -/
theorem statedPlace?_of_unmarked (unmarked : ¬ HasLineMark text) (fits : line < 2 ^ 64)
    (fits' : column < 2 ^ 64) :
    statedPlace? (text ++ " at ".toList ++ lineMark ++ placeText line column) = some (line, column) := by
  rw [statedPlace?_first fun held => unmarked (hasLineMark_of_held held),
    placeBehind?_placeText fits fits']

/-- A text that has a mark decides by itself which place is found. -/
theorem statedPlace?_of_marked (marked : HasLineMark text) (more : List Char) :
    statedPlace? (text ++ " at ".toList ++ lineMark ++ more) = statedPlace? text := by
  by_cases held : lineMark <:+: text
  · obtain ⟨before, after, rfl, absent⟩ := exists_first (by decide) held
    have whole : before ++ lineMark ++ after ++ " at ".toList ++ lineMark ++ more =
        before ++ lineMark ++ (after ++ ' ' :: 'a' :: ("t ".toList ++ lineMark ++ more)) := by
      simp
    rw [whole, statedPlace?_first absent, statedPlace?_first absent, placeBehind?_append]
  · obtain ⟨front, split⟩ := (List.infix_concat_iff.mp marked).resolve_right held
    have ends : text = front ++ "Line:".toList := by
      have same : text ++ [' '] = front ++ "Line:".toList ++ [' '] := by
        rw [← split, List.append_assoc]
        rfl
      exact List.append_cancel_right same
    have absent : ¬ lineMark <:+: front := fun part =>
      held (part.trans (ends ▸ (List.prefix_append front _).isInfix))
    have whole : text ++ " at ".toList ++ lineMark ++ more =
        front ++ lineMark ++ ("at ".toList ++ lineMark ++ more) := by
      rw [ends]
      simp [lineMark_eq]
    rw [whole, statedPlace?_first absent, statedPlace?_eq, splitAt?_of_absent held]
    rfl

end

/-- A message that ends with a place, as parsers write it. -/
def messageAt (text : String) (line column : Nat) : String :=
  text ++ " at Line: " ++ toString line ++ ", Column: " ++ toString column

/-- A message with a place in front of it. -/
def shownAt (heading : String) (line column : Nat) (message : String) : String :=
  heading ++ " at line " ++ toString line ++ ", column " ++ toString column ++ ":\n  " ++ message

section
variable {heading message text : String} {line column : Nat}

theorem toList_messageAt : (messageAt text line column).toList =
    text.toList ++ " at ".toList ++ lineMark ++ placeText line column := by
  simp [messageAt, placeText, lineMark_eq]

/-- A number ends where something else than a digit follows. -/
private theorem eq_of_digits_append {n m : Nat} {rest rest' : List Char}
    (ends : ∀ c ∈ rest.head?, isAsciiDigit c = false) (ends' : ∀ c ∈ rest'.head?, isAsciiDigit c = false)
    (same : (toString n).toList ++ rest = (toString m).toList ++ rest') : n = m ∧ rest = rest' := by
  have digits (k : Nat) : ∀ c ∈ (toString k).toList, isAsciiDigit c = true :=
    fun c => isAsciiDigit_of_mem_toString
  have numbers := congrArg (List.takeWhile isAsciiDigit) same
  have behind := congrArg (List.dropWhile isAsciiDigit) same
  rw [takeWhile_run (digits n) ends, takeWhile_run (digits m) ends'] at numbers
  rw [dropWhile_run (digits n) ends, dropWhile_run (digits m) ends'] at behind
  refine ⟨?_, behind⟩
  rw [← decimalValue_toString n, numbers, decimalValue_toString]

/-- A heading shows one place only. -/
theorem shownAt_inj {line' column' : Nat}
    (same : shownAt heading line column message = shownAt heading line' column' message) :
    line = line' ∧ column = column' := by
  have comma (rest : List Char) : ∀ c ∈ (", column ".toList ++ rest).head?, isAsciiDigit c = false := by
    rintro c ⟨rfl⟩
    decide
  have colon (rest : List Char) : ∀ c ∈ (":\n  ".toList ++ rest).head?, isAsciiDigit c = false := by
    rintro c ⟨rfl⟩
    decide
  have characters := congrArg String.toList same
  simp only [shownAt, String.toList_append, List.append_assoc] at characters
  have lines := List.append_cancel_left (List.append_cancel_left characters)
  obtain ⟨sameLine, behind⟩ := eq_of_digits_append (comma _) (comma _) lines
  have columns := List.append_cancel_left behind
  exact ⟨sameLine, (eq_of_digits_append (colon _) (colon _) columns).1⟩

theorem placedMessage_of_some (found : statedPlace? message.toList = some (line, column)) :
    placedMessage heading message = shownAt heading line column message := by
  rw [placedMessage, placedHeading, found]
  rfl

/-- A place is shown exactly if it is the one that the message states. -/
theorem placedMessage_eq_shownAt_iff : placedMessage heading message =
    shownAt heading line column message ↔ statedPlace? message.toList = some (line, column) := by
  refine ⟨fun same => ?_, placedMessage_of_some⟩
  cases found : statedPlace? message.toList with
  | none =>
    rw [placedMessage, placedHeading, found] at same
    have characters := congrArg String.toList same
    simp only [shownAt, String.toList_append, List.append_assoc] at characters
    have first := congrArg List.head? (List.append_cancel_left characters)
    simp at first
  | some place =>
    rw [placedMessage_of_some found] at same
    obtain ⟨lines, columns⟩ := shownAt_inj same
    rw [← lines, ← columns]

theorem statedPlace?_messageAt_of_marked (marked : HasLineMark text.toList) :
    statedPlace? (messageAt text line column).toList = statedPlace? text.toList := by
  rw [toList_messageAt, statedPlace?_of_marked marked]

theorem statedPlace?_messageAt_iff (fits : line < 2 ^ 64) (fits' : column < 2 ^ 64) :
    statedPlace? (messageAt text line column).toList = some (line, column) ↔
      ¬ HasLineMark text.toList ∨ statedPlace? text.toList = some (line, column) := by
  by_cases marked : HasLineMark text.toList
  · rw [statedPlace?_messageAt_of_marked marked, or_iff_right (not_not_intro marked)]
  · rw [toList_messageAt, statedPlace?_of_unmarked marked fits fits']
    exact iff_of_true rfl (.inl marked)

/-- In front of a message whose text has a mark stands what would stand in front of the text. -/
theorem placedMessage_of_marked (marked : HasLineMark text.toList) :
    placedMessage heading (messageAt text line column) =
      placedHeading heading text ++ messageAt text line column := by
  rw [placedMessage, placedHeading, placedHeading, statedPlace?_messageAt_of_marked marked]

end

namespace Error

/-- **An error shows the place at the end of its message exactly if the text before the place has no mark
of a line number**, or states that place itself. A text that has a mark decides alone what is shown. -/
theorem place_shown_iff (text : String) {line column : Nat} (fits : line < 2 ^ 64)
    (fits' : column < 2 ^ 64) :
    let message := messageAt text line column
    ((statement message).message = shownAt "Statement parse error" line column message ↔
        ¬ HasLineMark text.toList ∨ statedPlace? text.toList = some (line, column)) ∧
      ((schema message).message = shownAt "Schema parse error" line column message ↔
        ¬ HasLineMark text.toList ∨ statedPlace? text.toList = some (line, column)) ∧
      (HasLineMark text.toList →
        (statement message).message = placedHeading "Statement parse error" text ++ message ∧
          (schema message).message = placedHeading "Schema parse error" text ++ message) := by
  have found : statedPlace? (messageAt text line column).toList = some (line, column) ↔
      ¬ HasLineMark text.toList ∨ statedPlace? text.toList = some (line, column) :=
    statedPlace?_messageAt_iff fits fits'
  exact ⟨placedMessage_eq_shownAt_iff.trans found, placedMessage_eq_shownAt_iff.trans found,
    fun marked => ⟨placedMessage_of_marked marked, placedMessage_of_marked marked⟩⟩

theorem place_shown_iff_unquoted :
    let message := messageAt "sql parser error: Expected: end of statement, found: Line" 3 25
    (3 < 2 ^ 64 ∧ 25 < 2 ^ 64) ∧
      (statement message).message = shownAt "Statement parse error" 3 25 message ∧
      (schema message).message = shownAt "Schema parse error" 3 25 message := by
  have fits : 3 < 2 ^ 64 ∧ 25 < 2 ^ 64 := by decide
  obtain ⟨shown, shown', _⟩ := place_shown_iff
    "sql parser error: Expected: end of statement, found: Line" fits.1 fits.2
  exact ⟨fits, shown.mpr (.inl (by decide)), shown'.mpr (.inl (by decide))⟩

/-- A statement that quotes a place is said to be at fault there. -/
theorem quoted_place_shown :
    let message := messageAt
      "sql parser error: Expected: end of statement, found: 'Line: 9, Column: 9'" 1 15
    (match Sql.readStatement .sqlite "SELECT a GLOB 'Line: 9, Column: 9' FROM t" with
      | .ok _ => none
      | .error e => some e) = some (statement message) ∧
      (statement message).message = shownAt "Statement parse error" 9 9 message ∧
      (statement message).message ≠ shownAt "Statement parse error" 1 15 message := by
  decide +kernel

end Error
end TableAccess
