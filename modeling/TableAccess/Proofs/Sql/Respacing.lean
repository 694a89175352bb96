import TableAccess.Proofs.Sql.Tokens
import TableAccess.Proofs.Sql.Rule
import TableAccess.Proofs.Template.Unmarked
import TableAccess.Sql.Outline
import Mathlib.Data.List.TakeWhile

/-! Statements whose blanks are squeezed. Filling a template writes one space for each run of blanks
without knowing what the run stands in. Between tokens that changes nothing; in a quoted name, a string
or a block comment it changes what is read if the run is not a space already; and behind a line
comment it takes away the end of the line, so that all the rest becomes comment. -/
namespace TableAccess.Sql
open TableAccess.Text Reader
open TableAccess.Template (squeeze words)

namespace Lexer

variable {d : Dialect} {previous : Token} {c : Char} {rest left text text' : List Char} {found : Piece}

/-- The token that a piece is for the one behind it. -/
def Piece.last : Piece → Token
  | .token last => last
  | _ => .finish

/-- Whether what stands within the pieces of a text is spaced evenly, within a budget. -/
def evenWithin (d : Dialect) : Nat → Token → List Char → Bool
  | _, _, [] => true
  | 0, _, _ => false
  | budget + 1, previous, c :: rest =>
    let text := c :: rest
    if separates d c then evenWithin d budget .finish rest
    else if opensLineComment d text then
      opensLineComment d (squeeze false text) && (afterLine d text).all (separates d)
    else match commentOrToken d previous text with
      | .error _ => false
      | .ok read =>
        let written := text.take (text.length - read.2.length)
        squeeze false written == written && evenWithin d budget read.1.last read.2

/-- Whether a text is spaced evenly: separators between its tokens are any, the blanks in each token
and block comment are single spaces, and a line comment has nothing but separators behind it and opens
in the same way once it is squeezed. -/
def isEvenlySpaced (d : Dialect) (text : List Char) : Bool :=
  evenWithin d (text.length + 1) .finish text

theorem sameWord_squeeze (text : List Char) : SameWord text (squeeze false text) := by
  induction text with
  | nil => exact .nil
  | cons c rest ih =>
    cases blank : isBlank c with
    | true =>
      rw [squeeze, if_pos blank]
      rcases Template.squeeze_true rest with ⟨nothing, _⟩ | space
      · rw [nothing]
        exact .ends blank
      · rw [space]
        exact .blank blank
    | false =>
      rw [Template.squeeze_cons blank]
      exact .cons ih

/-- Squeezing opens no comment: a blank that must stand behind the marks stood there before. -/
theorem opensLineComment_of_sameWord (same : SameWord text text')
    (opens : opensLineComment d text' = true) : opensLineComment d text = true := by
  unfold opensLineComment at opens
  split at opens
  · obtain ⟨_, rfl, later⟩ := same.exists_cons (by decide)
    obtain ⟨rest, rfl, last⟩ := later.exists_cons (by decide)
    rw [Bool.or_eq_true] at opens
    exact Bool.or_eq_true_iff.mpr (opens.imp_right last.isBlank_head?)
  · obtain ⟨rest, rfl, _⟩ := same.exists_cons (by decide)
    exact opens
  · cases opens

theorem separates_space : separates d ' ' = true := by
  cases d <;> decide

/-- A piece that is spaced evenly is read from the squeezed text as well. -/
theorem piece_squeezed {written : List Char} (other : separates d c = false)
    (closed : opensLineComment d (c :: (written ++ left)) = false)
    (kept : squeeze false (c :: written) = c :: written)
    (read : commentOrToken d previous (c :: (written ++ left)) = .ok (found, left)) :
    squeeze false (c :: (written ++ left)) = c :: (written ++ squeeze false left) ∧
      piece d previous (c :: (written ++ squeeze false left)) = .ok (found, squeeze false left) := by
  have word := sameWord_squeeze left
  have closed' : opensLineComment d (c :: (written ++ squeeze false left)) = false := by
    rw [Bool.eq_false_iff]
    intro opens
    rw [opensLineComment_of_sameWord (.cons (word.append written)) opens] at closed
    cases closed
  obtain ⟨taken, whole, same⟩ := local_commentOrToken read
  obtain rfl : c :: written = taken := List.append_cancel_right whole
  refine ⟨Template.squeeze_append_of_kept kept (List.cons_ne_nil _ _), ?_⟩
  rw [piece_solid other closed']
  exact same _ word

/-- A line comment that nothing follows takes all of the squeezed text. -/
theorem afterLine_squeeze (text : List Char) : afterLine d (squeeze false text) = [] := by
  have unended : ∀ c ∈ squeeze false text, (c != '\n' && !(c == '\r' && d.returnEndsComment)) = true := by
    intro c member
    have line : c ≠ '\n' := by
      rintro rfl
      cases Template.eq_space_of_mem_squeeze member rfl
    have back : c ≠ '\r' := by
      rintro rfl
      cases Template.eq_space_of_mem_squeeze member rfl
    simp [line, back]
  rw [afterLine, List.dropWhile_eq_nil_iff.mpr unended]
  rfl

theorem isBlank_of_opensLineComment (opens : opensLineComment d (c :: rest)) : isBlank c = false := by
  unfold opensLineComment at opens
  split at opens
  · next same => cases same; rfl
  · next same => cases same; rfl
  · cases opens

/-- A line comment that only separators follow may be squeezed. -/
theorem plainTokens_lineComment (other : separates d c = false)
    (opens : opensLineComment d (c :: rest)) (stays : opensLineComment d (squeeze false (c :: rest)))
    (separators : (afterLine d (c :: rest)).all (separates d)) (touching : Bool) :
    plainTokens d previous touching (squeeze false (c :: rest)) =
      plainTokens d previous touching (c :: rest) := by
  have ended := afterLine_squeeze (d := d) (c :: rest)
  rw [plainTokens_of_blank (piece_lineComment other opens), plainTokens_separators separators]
  have squeezed : squeeze false (c :: rest) = c :: squeeze false rest :=
    Template.squeeze_cons (isBlank_of_opensLineComment opens) rest
  rw [squeezed] at stays ended ⊢
  rw [plainTokens_of_blank (piece_lineComment other stays), ended]
  rfl

/-- What a piece takes starts with the first character. -/
theorem exists_taken (read : commentOrToken d previous (c :: rest) = .ok (found, left)) :
    ∃ written, rest = written ++ left ∧
      (c :: rest).take ((c :: rest).length - left.length) = c :: written := by
  obtain ⟨taken, whole, _⟩ := local_commentOrToken read
  have shorter := takes_commentOrToken read
  cases taken with
  | nil =>
    have length := congrArg List.length whole
    simp only [List.nil_append, List.length_cons] at length
    omega
  | cons e written =>
    rw [List.cons_append] at whole
    obtain ⟨rfl, rfl⟩ := List.cons.inj whole
    refine ⟨written, rfl, ?_⟩
    rw [← List.cons_append, List.length_append, Nat.add_sub_cancel, List.take_left' rfl]

/-- One piece that is spaced evenly, where what follows it may be squeezed. -/
theorem plainTokens_piece {written : List Char} (other : separates d c = false)
    (closed : opensLineComment d (c :: (written ++ left)) = false)
    (kept : squeeze false (c :: written) = c :: written)
    (read : commentOrToken d previous (c :: (written ++ left)) = .ok (found, left))
    (later : ∀ touching, plainTokens d found.last touching (squeeze false left) =
      plainTokens d found.last touching left) (touching : Bool) :
    plainTokens d previous touching (squeeze false (c :: (written ++ left))) =
      plainTokens d previous touching (c :: (written ++ left)) := by
  obtain ⟨squeezed, read'⟩ := piece_squeezed other closed kept read
  rw [← piece_solid other closed] at read
  rw [squeezed]
  cases found <;> simp only [Piece.last] at later
  case token => rw [plainTokens_of_token read, plainTokens_of_token read', later]
  case blank => rw [plainTokens_of_blank read, plainTokens_of_blank read', later]
  case hint => rw [plainTokens_of_hint read, plainTokens_of_hint read', later]

/-- How a text that is spaced evenly starts. -/
theorem of_evenWithin {budget : Nat} (even : evenWithin d (budget + 1) previous (c :: rest)) :
    separates d c = true ∧ evenWithin d budget .finish rest ∨
      separates d c = false ∧ opensLineComment d (c :: rest) = true ∧
        opensLineComment d (squeeze false (c :: rest)) = true ∧
        (afterLine d (c :: rest)).all (separates d) ∨
      separates d c = false ∧ opensLineComment d (c :: rest) = false ∧
        ∃ found written left, rest = written ++ left ∧
          commentOrToken d previous (c :: rest) = .ok (found, left) ∧
          squeeze false (c :: written) = c :: written ∧ evenWithin d budget found.last left := by
  rw [evenWithin] at even
  cases separator : separates d c with
  | true =>
    rw [if_pos separator] at even
    exact .inl ⟨rfl, even⟩
  | false =>
    rw [if_neg (by simp [separator])] at even
    cases opens : opensLineComment d (c :: rest) with
    | true =>
      rw [if_pos opens, Bool.and_eq_true] at even
      exact .inr (.inl ⟨rfl, rfl, even⟩)
    | false =>
      rw [if_neg (by simp [opens])] at even
      split at even
      · cases even
      · next read found =>
        obtain ⟨found', left⟩ := read
        obtain ⟨written, whole, taken⟩ := exists_taken found
        rw [taken, Bool.and_eq_true, beq_iff_eq] at even
        exact .inr (.inr ⟨rfl, rfl, found', written, left, whole, found, even⟩)

/-- What does not start with a separator is squeezed behind a separator as it is alone. -/
theorem squeezed_behind (solid : isBlank c = false)
    (alone : ∀ touching, plainTokens d previous touching (squeeze false (c :: rest)) =
      plainTokens d previous touching (c :: rest)) (finished : previous = .finish) (before : Token)
    (touching : Bool) : plainTokens d before touching (squeeze true (c :: rest)) =
      plainTokens d .finish false (c :: rest) := by
  have squeezed : squeeze true (c :: rest) = ' ' :: squeeze false (c :: rest) := by
    simp [squeeze, solid]
  rw [squeezed, plainTokens_of_blank (piece_separator separates_space), ← finished, alone]

/-- **The tokens of a text that is spaced evenly stay as they are when its blanks are squeezed.** Where a
space is due already, the text starts behind a separator. -/
theorem plainTokens_squeeze {budget : Nat} (even : evenWithin d budget previous text) :
    (∀ touching, plainTokens d previous touching (squeeze false text) =
      plainTokens d previous touching text) ∧
      (previous = .finish → ∀ before touching, plainTokens d before touching (squeeze true text) =
        plainTokens d .finish false text) := by
  induction budget generalizing previous text with
  | zero =>
    cases text with
    | nil => exact ⟨fun _ => rfl, fun _ _ _ => rfl⟩
    | cons c rest => cases even
  | succ budget ih =>
    cases text with
    | nil => exact ⟨fun _ => rfl, fun _ _ _ => rfl⟩
    | cons c rest =>
      rcases of_evenWithin even with ⟨separator, even⟩ | ⟨other, opens, stays, separators⟩ |
        ⟨other, closed, found, written, left, rfl, read, kept, even⟩
      · have blank : isBlank c = true := (Bool.and_eq_true_iff.mp separator).1
        have due := (ih even).2 rfl
        simp only [squeeze, blank, if_true]
        refine ⟨fun touching => ?_, fun _ before touching => ?_⟩ <;>
          rw [due, plainTokens_of_blank (piece_separator separator)]
      · have alone : ∀ touching, plainTokens d previous touching (squeeze false (c :: rest)) =
            plainTokens d previous touching (c :: rest) :=
          plainTokens_lineComment other opens stays separators
        exact ⟨alone, squeezed_behind (isBlank_of_opensLineComment opens) alone⟩
      · have solid : isBlank c = false := Template.isBlank_of_kept kept (by
          rintro rfl
          rw [separates_space] at other
          cases other)
        have alone := plainTokens_piece other closed kept read (ih even).1
        exact ⟨alone, squeezed_behind solid alone⟩

theorem plainTokens_words (even : isEvenlySpaced d text) :
    plainTokens d .finish false (words text) = plainTokens d .finish false text := by
  rw [← (plainTokens_squeeze even).2 rfl .finish false]
  rcases Template.squeeze_true text with ⟨nothing, blank⟩ | space
  · rw [nothing, words, blank]
    rfl
  · rw [space, plainTokens_of_blank (piece_separator separates_space)]

end Lexer
open Lexer

variable {d : Dialect} {text text' : String}

/-- What the grammar sees of tokens does not tell where they stand. -/
theorem lexemesFrom_congr {tokens tokens' : List Placed} (number : Nat)
    (same : tokens.map (fun p => (p.token, p.touching)) =
      tokens'.map fun p => (p.token, p.touching)) :
    lexemesFrom number tokens = lexemesFrom number tokens' := by
  induction tokens generalizing tokens' number with
  | nil => rw [List.map_eq_nil_iff.mp same.symm]
  | cons p rest ih =>
    cases tokens' with
    | nil => cases same
    | cons p' rest' =>
      obtain ⟨first, later⟩ := List.cons.inj same
      obtain ⟨token, touching⟩ := Prod.mk.inj first
      rw [lexemesFrom, lexemesFrom, token, touching, ih _ later]

/-- Texts with the same tokens say the same. -/
theorem toOption_statements_congr
    (same : plainTokens d .finish false text.toList = plainTokens d .finish false text'.toList) :
    (statements d text).toOption = (statements d text').toOption := by
  have same : plain (placedTokens d text) = plain (placedTokens d text') := same
  rw [toOption_statements, toOption_statements, lexemes, lexemes]
  cases read : placedTokens d text with
  | error e =>
    cases read' : placedTokens d text' with
    | error e' => rfl
    | ok tokens' =>
      rw [read, read'] at same
      cases same
  | ok tokens =>
    cases read' : placedTokens d text' with
    | error e' =>
      rw [read, read'] at same
      cases same
    | ok tokens' =>
      rw [read, read'] at same
      show (parse d (lexemesFrom 0 tokens)).toOption = (parse d (lexemesFrom 0 tokens')).toOption
      rw [lexemesFrom_congr 0 (Option.some.inj same)]

theorem toOption_readStatement : (readStatement d text).toOption =
    (statements d text).toOption.bind fun all => all.head?.map Statement.outline := by
  rw [readStatement]
  cases statements d text with
  | error message => rfl
  | ok all => cases all <;> rfl

/-- **A statement without markup that is spaced evenly says the same once it is filled.** If its tokens
are no statement, those of the filled text are none either. -/
theorem fill_keeps_statement (form : Placeholder) (brackets : '<' ∉ text.toList)
    (entities : '&' ∉ text.toList) (parameters : ¬ ['#', '\x7b'] <:+: text.toList)
    (substitutions : ¬ ['$', '\x7b'] <:+: text.toList) (even : isEvenlySpaced d text.toList) :
    (readStatement d (Template.fill form text).text).toOption = (readStatement d text).toOption := by
  have unmarked := Template.unmarked_of_absent brackets entities parameters substitutions
  have untagged : Template.withoutTags text.toList = text.toList :=
    Template.withoutTags_of_missed (Template.missed_of_not_hasTag (Template.not_hasTag_of_absent brackets))
  have squeezed : (Template.fill form text).text.toList = words text.toList := by
    rw [Template.fill_unmarked form unmarked, untagged, String.toList_ofList]
  have same : (statements d (Template.fill form text).text).toOption = (statements d text).toOption :=
    toOption_statements_congr (by rw [squeezed, plainTokens_words even])
  rw [toOption_readStatement, same, toOption_readStatement]

theorem fill_keeps_statement_commented :
    Lexer.isEvenlySpaced .postgresql "SELECT 'a b',\n\tid  FROM users -- all".toList ∧
      (readStatement .postgresql
        (Template.fill .numbered "SELECT 'a b',\n\tid  FROM users -- all").text).toOption =
      (readStatement .postgresql "SELECT 'a b',\n\tid  FROM users -- all").toOption :=
  have even : isEvenlySpaced .postgresql "SELECT 'a b',\n\tid  FROM users -- all".toList := by
    decide +kernel
  ⟨even, fill_keeps_statement .numbered (by decide) (by decide) (by decide) (by decide) even⟩

/-- Without the end of its line a comment takes the source of the selection. -/
theorem source_lost_to_comment : ¬ ∀ (d : Dialect) (text : String), '<' ∉ text.toList →
    '&' ∉ text.toList → ¬ ['#', '\x7b'] <:+: text.toList → ¬ ['$', '\x7b'] <:+: text.toList →
      (readStatement d (Template.fill .mark text).text).toOption = (readStatement d text).toOption := by
  intro kept
  have same := kept .postgresql "SELECT id -- key\nFROM users" (by decide) (by decide) (by decide)
    (by decide)
  have sources := congrArg (Option.map fun s => s.scope?.map Scope.tables) same
  revert sources
  decide +kernel

end TableAccess.Sql
