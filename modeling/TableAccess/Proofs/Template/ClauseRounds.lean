import TableAccess.Proofs.Template.Clauses

/-! Clauses are written in rounds, the innermost one first, until no tag opens a clause. A round may put
a new opening tag into the text, since the attributes of an element can spell one, so the number of tags
does not always fall; the length of the text does. Whatever the text, there is a last round, behind which
no opening tag is left. -/
namespace TableAccess.Template
open TableAccess.Text

variable {text written : List Char} {n : Nat}

/-- A text comes out as another one after some rounds, when there is nothing left to write. -/
inductive Rounds : Nat → List Char → List Char → Prop
  | none {text : List Char} (plain : writeInnermost? text = .none) : Rounds 0 text text
  | next {n : Nat} {text shorter written : List Char} (round : writeInnermost? text = some shorter)
    (later : Rounds n shorter written) : Rounds (n + 1) text written

/-- Each round takes at least one character away. -/
theorem Rounds.length_le (rounds : Rounds n text written) : n + written.length ≤ text.length := by
  induction rounds with
  | none plain => omega
  | next round later ih =>
    have := length_writeInnermost? round
    omega

/-- However many rounds there are, they come to the same text. -/
theorem Rounds.written_eq (rounds : Rounds n text written) : written = writeClauses text := by
  induction rounds with
  | none plain => exact (writeClauses_of_none plain).symm
  | next round later ih => rw [ih, writeClauses_of_some round]

/-- There is a last round: a text only grows shorter. -/
theorem exists_rounds (text : List Char) : ∃ n, Rounds n text (writeClauses text) := by
  induction length : text.length using Nat.strong_induction_on generalizing text with
  | _ size ih =>
    cases innermost : writeInnermost? text with
    | none => exact ⟨0, by rw [writeClauses_of_none innermost]; exact .none innermost⟩
    | some shorter =>
      have smaller : shorter.length < size := length ▸ length_writeInnermost? innermost
      obtain ⟨n, rounds⟩ := ih shorter.length smaller shorter rfl
      exact ⟨n + 1, writeClauses_of_some innermost ▸ .next innermost rounds⟩

/-- A round is made as long as a tag opens a clause anywhere. -/
theorem missed_of_writeInnermost? {behind : List Char} (plain : writeInnermost? text = none)
    (part : behind <:+ text) : clauseOpening behind = none := by
  have absent : lastPlace? clauseOpening text = none := by
    cases last : lastPlace? clauseOpening text with
    | none => rfl
    | some place =>
      obtain ⟨before, ⟨name, attributes⟩, after⟩ := place
      rw [writeInnermost?, last, Option.bind_eq_bind, Option.bind_some] at plain
      dsimp only at plain
      split at plain <;> cases plain
  cases behind with
  | nil => rfl
  | cons c rest => exact missed_of_lastPlace? absent part (List.cons_ne_nil c rest)

theorem Rounds.missed (rounds : Rounds n text written) {behind : List Char}
    (part : behind <:+ written) : clauseOpening behind = .none := by
  induction rounds with
  | none plain => exact missed_of_writeInnermost? plain part
  | next _ _ ih => exact ih part

/-- **Writing the clauses of a text always ends.** Each round shortens the text, whatever the attributes
of the innermost element put into it and however its tags are closed; so there are no more rounds than
characters, the text that they come to does not depend on anything else, and no tag opens a clause
anywhere in it. -/
theorem writing_ends (text : List Char) :
    (∀ before after, writeInnermost? before = some after → after.length < before.length) ∧
      (∃ n, n + (writeClauses text).length ≤ text.length ∧ Rounds n text (writeClauses text)) ∧
      (∀ n written, Rounds n text written → written = writeClauses text) ∧
      ∀ behind, behind <:+ writeClauses text → clauseOpening behind = none := by
  obtain ⟨n, rounds⟩ := exists_rounds text
  exact ⟨fun _ _ => length_writeInnermost?, ⟨n, rounds.length_le, rounds⟩,
    fun _ _ => Rounds.written_eq, fun _ => rounds.missed⟩

/-- The tag that a prefix spells is written in a round of its own. -/
example : Rounds 2 "<trim prefix=\"&lt;set&gt;\">a,</trim></set>".toList "  SET a ".toList := by
  have first : writeInnermost? "<trim prefix=\"&lt;set&gt;\">a,</trim></set>".toList =
      some " <set> a, </set>".toList := by decide
  have second : writeInnermost? " <set> a, </set>".toList = some "  SET a ".toList := by decide
  exact .next first (.next second (.none (by decide)))

end TableAccess.Template
