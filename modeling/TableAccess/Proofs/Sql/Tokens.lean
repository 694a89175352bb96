import TableAccess.Proofs.Sql.Lexing

/-! The tokens of a text piece by piece. Each piece takes at least one character, so neither the budget
of the loop nor the place of the text plays a part in the tokens: without their places, the tokens of
a text are those of its first piece and of what it leaves. -/
namespace TableAccess.Sql.Lexer
open TableAccess.Text Reader

variable {d : Dialect} {previous : Token} {c : Char} {rest left text : List Char} {found : Piece}

/-! Pieces. -/

theorem piece_separator (separator : separates d c = true) :
    piece d previous (c :: rest) = .ok (.blank, rest) := by
  rw [piece, if_pos (by simpa using separator)]
  rfl

theorem piece_lineComment (other : separates d c = false) (opens : opensLineComment d (c :: rest)) :
    piece d previous (c :: rest) = .ok (.blank, afterLine d (c :: rest)) := by
  rw [piece, if_neg (by simpa using other), if_pos opens]

theorem piece_solid (other : separates d c = false)
    (closed : opensLineComment d (c :: rest) = false) :
    piece d previous (c :: rest) = commentOrToken d previous (c :: rest) := by
  rw [piece, if_neg (by simpa using other), if_neg (by simp [closed])]

theorem length_afterLine_le (text : List Char) : (afterLine d text).length ≤ text.length - 1 := by
  rw [afterLine, List.length_drop]
  exact Nat.sub_le_sub_right (List.dropWhile_sublist _).length_le 1

/-- Every piece takes at least one character. -/
theorem length_piece_le (read : piece d previous (c :: rest) = .ok (found, left)) :
    left.length ≤ rest.length := by
  by_cases separator : separates d c = true
  · rw [piece_separator separator] at read
    cases read
    exact Nat.le_refl _
  · have other : separates d c = false := Bool.eq_false_iff.mpr separator
    by_cases opens : opensLineComment d (c :: rest) = true
    · rw [piece_lineComment other opens] at read
      cases read
      exact length_afterLine_le (c :: rest)
    · rw [piece_solid other (Bool.eq_false_iff.mpr opens)] at read
      exact takes_commentOrToken read

theorem length_content_le {content : List Char}
    (read : piece d previous (c :: rest) = .ok (.hint content, left)) :
    content.length ≤ rest.length := by
  rw [piece] at read
  split at read
  · cases read
  · split at read
    · cases read
    · exact length_hint_le read

/-! Tokens without their places. -/

/-- The tokens that were read, without their places. -/
def plain (read : Except LexicalError (List Placed)) : Option (List (Token × Bool)) :=
  read.toOption.map fun tokens => tokens.map fun p => (p.token, p.touching)

variable {budget : Nat} {origin : Origin} {touching : Bool}

theorem plain_of_fault {fault : Fault} (read : piece d previous (c :: rest) = .error fault) :
    plain (placedWithin d (budget + 1) origin previous touching (c :: rest)) = none := by
  rw [placedWithin, read]
  rfl

theorem plain_of_token {token : Token}
    (read : piece d previous (c :: rest) = .ok (.token token, left)) :
    plain (placedWithin d (budget + 1) origin previous touching (c :: rest)) =
      (plain (placedWithin d budget origin token true left)).map ((token, touching) :: ·) := by
  rw [placedWithin, read]
  show plain (placedWithin d budget origin token true left >>= fun others => pure (_ :: others)) = _
  cases placedWithin d budget origin token true left <;> rfl

theorem plain_of_blank (read : piece d previous (c :: rest) = .ok (.blank, left)) :
    plain (placedWithin d (budget + 1) origin previous touching (c :: rest)) =
      plain (placedWithin d budget origin .finish false left) := by
  rw [placedWithin, read]
  rfl

theorem plain_of_hint {content : List Char}
    (read : piece d previous (c :: rest) = .ok (.hint content, left)) :
    plain (placedWithin d (budget + 1) origin previous touching (c :: rest)) =
      (plain (placedWithin d budget ⟨origin.placeOf (c :: rest), content⟩ .finish false content)).bind
        fun hinted => (plain (placedWithin d budget origin .finish false left)).map (hinted ++ ·) := by
  rw [placedWithin, read]
  show plain (placedWithin d budget ⟨origin.placeOf (c :: rest), content⟩ .finish false content >>=
    fun hinted => placedWithin d budget origin .finish false left >>= fun others =>
      pure (hinted ++ others)) = _
  cases placedWithin d budget ⟨origin.placeOf (c :: rest), content⟩ .finish false content with
  | error e => rfl
  | ok hinted =>
    cases placedWithin d budget origin .finish false left with
    | error e => rfl
    | ok others => exact congrArg some List.map_append

/-- Neither the budget nor the place of a text plays a part in its tokens. -/
theorem plain_independent {budget' : Nat} {origin' : Origin} (enough : text.length < budget)
    (enough' : text.length < budget') :
    plain (placedWithin d budget origin previous touching text) =
      plain (placedWithin d budget' origin' previous touching text) := by
  induction budget generalizing budget' origin origin' previous touching text with
  | zero => cases Nat.not_lt_zero _ enough
  | succ budget ih =>
    obtain ⟨budget', rfl⟩ := Nat.exists_eq_succ_of_ne_zero (Nat.ne_zero_of_lt enough')
    cases text with
    | nil => rfl
    | cons c rest =>
      have same : ∀ {text previous touching} (origin origin' : Origin), text.length ≤ rest.length →
          plain (placedWithin d budget origin previous touching text) =
            plain (placedWithin d budget' origin' previous touching text) := by
        intro text previous touching origin origin' shorter
        simp only [List.length_cons] at enough enough'
        exact ih (by omega) (by omega)
      cases read : piece d previous (c :: rest) with
      | error fault => rw [plain_of_fault read, plain_of_fault read]
      | ok given =>
        obtain ⟨found, left⟩ := given
        have shorter := length_piece_le read
        cases found with
        | token token =>
          rw [plain_of_token read, plain_of_token read, same origin origin' shorter]
        | blank => rw [plain_of_blank read, plain_of_blank read, same origin origin' shorter]
        | hint content =>
          have inside := length_content_le read
          rw [plain_of_hint read, plain_of_hint read, same origin origin' shorter,
            same _ ⟨origin'.placeOf (c :: rest), content⟩ inside]

/-- The tokens of a text without their places, behind a token that they touch or not. -/
def plainTokens (d : Dialect) (previous : Token) (touching : Bool) (text : List Char) :
    Option (List (Token × Bool)) :=
  plain (placedWithin d (text.length + 1) ⟨⟨1, 1⟩, text⟩ previous touching text)

theorem plainTokens_eq {budget : Nat} {origin : Origin} (enough : text.length < budget) :
    plain (placedWithin d budget origin previous touching text) =
      plainTokens d previous touching text :=
  plain_independent enough (Nat.lt_succ_self _)

theorem plainTokens_of_blank (read : piece d previous (c :: rest) = .ok (.blank, left)) :
    plainTokens d previous touching (c :: rest) = plainTokens d .finish false left := by
  rw [plainTokens, List.length_cons, plain_of_blank read,
    plainTokens_eq (Nat.lt_succ_of_le (length_piece_le read))]

theorem plainTokens_of_token {token : Token}
    (read : piece d previous (c :: rest) = .ok (.token token, left)) :
    plainTokens d previous touching (c :: rest) =
      (plainTokens d token true left).map ((token, touching) :: ·) := by
  rw [plainTokens, List.length_cons, plain_of_token read,
    plainTokens_eq (Nat.lt_succ_of_le (length_piece_le read))]

theorem plainTokens_of_hint {content : List Char}
    (read : piece d previous (c :: rest) = .ok (.hint content, left)) :
    plainTokens d previous touching (c :: rest) =
      (plainTokens d .finish false content).bind fun hinted =>
        (plainTokens d .finish false left).map (hinted ++ ·) := by
  rw [plainTokens, List.length_cons, plain_of_hint read,
    plainTokens_eq (Nat.lt_succ_of_le (length_piece_le read)),
    plainTokens_eq (Nat.lt_succ_of_le (length_content_le read))]

/-- Separators have no tokens. -/
theorem plainTokens_separators (separators : text.all (separates d)) :
    plainTokens d previous touching text = some [] := by
  induction text generalizing previous touching with
  | nil => rfl
  | cons c rest ih =>
    obtain ⟨first, later⟩ := Bool.and_eq_true_iff.mp separators
    rw [plainTokens_of_blank (piece_separator first), ih later]

end TableAccess.Sql.Lexer
