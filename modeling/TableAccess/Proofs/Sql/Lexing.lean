import TableAccess.Sql.Lexer
import TableAccess.Proofs.Sql.Reading

/-! Every token is read without looking beyond a blank. The tables of openings have marks without
blanks, the classes of characters hold of no space, and what stands between quotes is read part by
part up to its closing. So a token stays as it is when blanks behind it are respaced, and each piece
of a text takes at least one character. -/
namespace TableAccess.Sql.Lexer
open TableAccess.Text Reader

variable {d : Dialect} {previous : Token}

/-! What stands between quotes. -/

theorem steady_quotedPart {quote : Char} (solid : isBlank quote = false) (escapes : Bool) :
    Steady (quotedPart d quote escapes) := by
  refine steady_choose ?_ (steady_next fun c => .ite (local_next.bind fun _ => local_pure) local_pure)
  simp [Sound, isSolid, solid, local_pure]

theorem local_quoted {quote : Char} (solid : isBlank quote = false) (escapes : Bool) :
    Local (quoted d quote escapes) :=
  (local_content (steady_quotedPart solid escapes)).bind fun _ => local_pure

theorem local_endedBy {closing : List Char} {reason : LexicalFault} (solid : isSolid closing) :
    Local (endedBy closing reason) := by
  refine (local_content (steady_choose ?_ (steady_next fun c => local_pure))).bind fun _ => local_pure
  simp [Sound, solid, local_pure]

theorem local_visibleChar {point : Nat} : Local (visibleChar point) := .ite local_pure local_fail

theorem local_byte {base : Nat} {digits : List Char} : Local (byte base digits) :=
  .ite local_visibleChar local_fail

theorem local_hexDigits (limit : Nat) : Local (takeAtMost isHexDigit limit) :=
  local_takeAtMost (fun _ => isHexDigit_of_isBlank) limit

theorem local_fixedHex {count : Nat} : Local (fixedHex count) :=
  (local_hexDigits count).bind fun _ => .ite local_visibleChar local_fail

theorem local_escapeSequence : Local escapeSequence := by
  refine local_next.bind fun c => ?_
  split
  case h_6 => exact local_fixedHex
  case h_7 => exact local_fixedHex
  case h_8 => exact (local_hexDigits 2).bind fun _ => .ite local_pure local_byte
  case h_9 =>
    have octal : Local (takeAtMost isOctalDigit 2) :=
      local_takeAtMost (fun _ => false_of_isBlank (by decide)) 2
    exact .ite (octal.bind fun _ => local_byte) local_pure
  all_goals exact local_pure

theorem steady_escapedPart : Steady escapedPart := by
  refine steady_choose ?_ (steady_next fun c => .ite local_fail local_pure)
  have sequence : Local (do return some [← escapeSequence]) :=
    local_escapeSequence.bind fun _ => local_pure
  simp only [List.forall_mem_cons]
  exact ⟨⟨rfl, local_pure⟩, ⟨rfl, local_pure⟩, ⟨rfl, sequence⟩, by simp⟩

theorem local_codePoint (count point : Nat) : Local (codePoint count point) := by
  induction count generalizing point with
  | zero => exact .ite local_pure local_fail
  | succ count ih => exact local_next.bind fun c => .ite (ih _) local_fail

theorem steady_unicodePart : Steady unicodePart := by
  refine steady_choose ?_ (steady_next fun c => local_pure)
  have point : ∀ count, Local (do return some [← codePoint count 0]) := fun count =>
    (local_codePoint count 0).bind fun _ => local_pure
  simp only [List.forall_mem_cons]
  exact ⟨⟨rfl, local_pure⟩, ⟨rfl, local_pure⟩, ⟨rfl, local_pure⟩, ⟨rfl, point 6⟩, ⟨rfl, point 4⟩,
    by simp⟩

theorem local_string {form : TextForm} {quote : Char} {escapes : Bool}
    (solid : isBlank quote = false) : Local (string d form quote escapes) :=
  .behind ((local_quoted solid escapes).bind fun _ => local_pure)

/-! Tables of openings. -/

theorem sound_append {α : Type} {rows others : List (List Char × Reader α)}
    (first : ∀ row ∈ rows, Sound row) (later : ∀ row ∈ others, Sound row) :
    ∀ row ∈ rows ++ others, Sound row :=
  List.forall_mem_append.mpr ⟨first, later⟩

theorem sound_if {α : Type} {rows : List (List Char × Reader α)} {condition : Bool}
    (sound : ∀ row ∈ rows, Sound row) : ∀ row ∈ (if condition then rows else []), Sound row := by
  split
  · exact sound
  · exact List.forall_mem_nil _

theorem sound_lettered {capital small : Char} {rest : List Char} {read : List Char → Reader Token}
    (solid : isSolid (capital :: rest) && isSolid (small :: rest))
    (reads : ∀ opening, Local (read opening)) :
    ∀ row ∈ lettered capital small rest read, Sound row := by
  obtain ⟨solidCapital, solidSmall⟩ := Bool.and_eq_true_iff.mp solid
  exact List.forall_mem_cons.mpr ⟨⟨solidSmall, reads _⟩,
    List.forall_mem_singleton.mpr ⟨solidCapital, reads _⟩⟩

theorem sound_rawRows {quote : Char} {once thrice : TextForm} (solid : isBlank quote = false) :
    ∀ row ∈ rawRows d quote once thrice, Sound row := by
  have marks : isBlank 'R' = false ∧ isBlank 'r' = false := ⟨rfl, rfl⟩
  have closing : isSolid [quote, quote, quote] := by simp [isSolid, solid]
  refine sound_append (sound_append ?_ ?_) ?_
  · exact sound_lettered (by simp [isSolid, solid, marks]) fun _ =>
      .behind ((local_endedBy closing).bind fun _ => local_pure)
  · exact sound_lettered (by simp [isSolid, solid, marks]) fun _ => local_pure
  · exact sound_lettered (by simp [isSolid, solid, marks]) fun _ =>
      .behind ((local_quoted solid false).bind fun _ => local_pure)

theorem sound_literalRows : ∀ row ∈ literalRows d, Sound row := by
  have escaped := (local_content steady_escapedPart).bind fun content =>
    local_pure (a := Token.text .escaped (String.ofList content))
  have unicode := (local_content steady_unicodePart).bind fun content =>
    local_pure (a := Token.text .unicode (String.ofList content))
  refine sound_append (sound_append (sound_append (sound_append (sound_append ?_ ?_) ?_) ?_) ?_) ?_
  · exact sound_if (sound_append (sound_lettered rfl fun _ => local_string rfl)
      (sound_lettered rfl fun _ => local_string rfl))
  · exact sound_if (sound_append (sound_rawRows rfl) (sound_rawRows rfl))
  · exact sound_lettered rfl fun _ => local_string rfl
  · exact sound_if (sound_lettered rfl fun _ => .behind escaped)
  · exact sound_if (sound_lettered rfl fun _ => unicode)
  · exact sound_lettered rfl fun _ => local_string rfl

theorem sound_quoteRows : ∀ row ∈ quoteRows d, Sound row := by
  have names : ∀ quote ∈ ['"', '\x60', '['], Sound ([quote], quotedName d quote) := by
    have name : ∀ {quote}, isBlank (closingQuote quote) = false → Local (quotedName d quote) :=
      fun solid => .behind ((local_quoted solid false).bind fun _ => local_pure)
    simp only [List.forall_mem_cons]
    exact ⟨⟨rfl, name rfl⟩, ⟨rfl, name rfl⟩, ⟨rfl, name rfl⟩, List.forall_mem_nil _⟩
  refine sound_append (List.forall_mem_cons.mpr ⟨⟨rfl, local_string rfl⟩, ?_⟩)
    (List.forall_mem_singleton.mpr ⟨rfl, local_string rfl⟩)
  intro row listed
  obtain ⟨quote, opens, rfl⟩ := List.mem_map.mp listed
  exact names quote (List.mem_of_mem_filter opens)

theorem local_continuation {spelling : String} (kind : Continuation) :
    Local (continuation d spelling kind) := by
  have operators : Local (takeWhile d.continuesOperator) :=
    local_takeWhile (by cases d <;> decide)
  cases kind with
  | none => exact local_pure
  | operator => exact operators.bind fun _ => .ite local_pure local_pure
  | onlyOperator => exact operators.bind fun _ => .ite local_fail local_pure

theorem sound_listedRows {symbols : List (List Char × Continuation)}
    (solid : symbols.all fun symbol => isSolid symbol.1) : ∀ row ∈ listedRows d symbols, Sound row := by
  intro row listed
  obtain ⟨symbol, member, rfl⟩ := List.mem_map.mp listed
  exact ⟨List.all_eq_true.mp solid symbol member, local_continuation _⟩

theorem local_wordEnd : Local (takeWhile d.continuesWord) :=
  local_takeWhile (by cases d <;> decide)

theorem local_word {start : List Char} : Local (word d start) :=
  local_wordEnd.bind fun _ => local_pure

theorem signWord_alone {spelling text : List Char} (front : text.head?.all (· == ' ')) :
    signWord d spelling text = .ok (.symbol (String.ofList spelling), text) := by
  cases text with
  | nil => rfl
  | cons c text =>
    obtain rfl : c = ' ' := by simpa using front
    rfl

theorem signWord_before {spelling rest : List Char} {c : Char} (other : c ≠ ' ') :
    signWord d spelling (c :: rest) = word d (spelling ++ [c]) rest := by
  have unseen : sees (· == ' ') (c :: rest) = .ok (false, c :: rest) := by simp [sees, other]
  rw [signWord, bind_of_ok unseen]
  rfl

/-- A blank other than a space becomes part of the word; a space or the end of the text leaves the
sign alone, and one of them may stand for the other. -/
theorem local_signWord {spelling : List Char} : Local (signWord d spelling) := by
  intro text a left read
  cases text with
  | nil =>
    rw [signWord_alone rfl] at read
    cases read
    exact ⟨[], rfl, fun _ same => by cases same; exact signWord_alone rfl⟩
  | cons c rest =>
    by_cases space : c = ' '
    · obtain rfl := space
      rw [signWord_alone rfl] at read
      cases read
      exact ⟨[], rfl, fun _ same => by cases same <;> exact signWord_alone rfl⟩
    · rw [signWord_before space] at read
      obtain ⟨written, rfl, same⟩ := local_word read
      refine ⟨c :: written, rfl, fun left' word => ?_⟩
      rw [List.cons_append, signWord_before space]
      exact same left' word

theorem local_sign {start : Char} {spelling stops : List Char}
    (solid : stops.all fun c => !isBlank c) : Local (sign d start spelling stops) := by
  have blankless : ∀ b, isBlank b = true → stops.contains b = false := by
    intro b blank
    simp only [List.all_eq_true, Bool.not_eq_true'] at solid
    simp only [List.contains_eq_mem, decide_eq_false_iff_not]
    intro listed
    rw [solid b listed] at blank
    cases blank
  exact (local_sees blankless).bind fun _ => .ite local_pure (.ite local_signWord (local_continuation _))

theorem sound_row {α : Type} {mark : List Char} {r : Reader α} (solid : isSolid mark)
    (isLocal : Local r) : Sound (mark, r) := ⟨solid, isLocal⟩

theorem sound_symbolRows : ∀ row ∈ symbolRows d, Sound row := by
  refine sound_append (sound_append (sound_append (sound_if ?_) ?_) ?_) ?_
  · exact List.forall_mem_cons.mpr ⟨sound_row rfl (local_continuation _), sound_listedRows (by decide)⟩
  · split
    · exact List.forall_mem_singleton.mpr (sound_row rfl (local_continuation _))
    · exact List.forall_mem_nil _
  · exact List.forall_mem_cons.mpr ⟨sound_row rfl (local_continuation _), sound_listedRows (by decide)⟩
  · simp only [List.forall_mem_cons]
    exact ⟨sound_row rfl (local_sign rfl), sound_row rfl (local_sign rfl), sound_row rfl (local_sign rfl),
      List.forall_mem_nil _⟩

/-! Numbers, parameters, words. -/

theorem local_markBeforeDigit {marks : List (List Char)}
    (solid : marks.all isSolid) : Local (markBeforeDigit marks) := by
  induction marks with
  | nil => exact local_pure
  | cons mark marks ih =>
    obtain ⟨first, later⟩ := Bool.and_eq_true_iff.mp solid
    have digit : ∀ b, isBlank b = true → isAsciiDigit b = false := fun _ =>
      false_of_isBlank (by decide)
    exact (local_takeBefore? (blankless first) digit).bind fun _ => .ite local_pure (ih later)

theorem local_exponent : Local exponent := by
  have digits : Local (takeWhile isAsciiDigit) := local_takeWhile rfl
  exact (local_markBeforeDigit rfl).bind fun _ => .ite local_pure (digits.bind fun _ => local_pure)

theorem local_takeMark {c : Char} (solid : isBlank c = false) : Local (take? [c]) :=
  local_take? (by simpa using solid)

theorem local_numberEnd {digits : List Char} : Local (numberEnd digits) :=
  (local_takeMark rfl).bind fun _ => local_pure

theorem local_scaled {digits : List Char} : Local (scaled d previous digits) := by
  refine local_exponent.bind fun exponent => ?_
  refine (local_sees fun _ => false_of_isBlank (by decide)).bind fun unscaled => ?_
  refine .ite local_numberEnd (.ite ?_ (.ite local_pure local_numberEnd))
  exact local_wordEnd.bind fun _ => .ite local_numberEnd local_pure

theorem local_digits {separators : Bool} : Local (takeDigits separators isAsciiDigit) :=
  local_takeDigits rfl

theorem local_fraction : Local (fraction d previous) := by
  have underscore : ∀ b, isBlank b = true → (b == '_') = false := fun b blank =>
    beq_false_of_ne (ne_of_isBlank blank rfl)
  refine (local_sees underscore).bind fun _ => ?_
  refine .ite (.ite local_pure local_failBehind) (.ite local_pure ?_)
  exact local_digits.bind fun _ => .ite local_pure local_scaled

theorem local_wholeNumber {whole : List Char} : Local (number.wholeNumber d previous whole) :=
  (local_takeMark rfl).bind fun _ => .ite (local_digits.bind fun _ => local_scaled) local_scaled

theorem local_number {first : Char} : Local (number d previous first) := by
  have hexDigits : Local (takeDigits d.digitSeparators isHexDigit) :=
    local_takeDigits rfl
  refine local_digits.bind fun whole => .ite local_wholeNumber ?_
  exact (local_takeMark rfl).bind fun _ => .ite (hexDigits.bind fun _ => local_pure) local_wholeNumber

/-- The name of a tag has no blank, so its closing is found or not whatever stands behind. -/
theorem local_dollar : Local (dollar d) := by
  have solid : ∀ b, isBlank b = true →
      (isLetter b || isNumber b || b == '_' || (b == '$' && d.dollarIsParameter)) = false := by
    intro b blank
    have underscore : b ≠ '_' := ne_of_isBlank blank rfl
    have sign : b ≠ '$' := ne_of_isBlank blank rfl
    simp [isLetter_of_isBlank blank, isNumber_of_isBlank blank, underscore, sign]
  refine (local_takeWhile (solid ' ' rfl)).bind_of fun text name left read => ?_
  cases read
  have named : ∀ c ∈ text.takeWhile fun c =>
      isLetter c || isNumber c || c == '_' || (c == '$' && d.dollarIsParameter), isBlank c = false := by
    intro c taken
    have met := List.all_eq_true.mp List.all_takeWhile c taken
    cases blank : isBlank c with
    | false => rfl
    | true =>
      rw [solid c blank] at met
      cases met
  refine (local_takeMark rfl).bind fun _ => .ite local_pure (.ite ?_ ?_)
  · exact (local_endedBy rfl).bind fun _ => local_pure
  · refine (local_endedBy (isSolid_cons.mpr ⟨rfl, ?_⟩)).bind fun _ => local_pure
    exact List.forall_mem_append.mpr ⟨named, List.forall_mem_singleton.mpr rfl⟩

theorem local_unlisted {c : Char} : Local (unlisted d previous c) := by
  have numbers : Local (takeWhile isNumber) := local_takeWhile (isNumber_of_isBlank rfl)
  exact .ite local_fraction (.ite local_number (.ite (numbers.bind fun _ => local_pure)
    (.ite local_word (.ite local_dollar local_pure))))

theorem sound_rows : ∀ row ∈ literalRows d ++ quoteRows d ++ symbolRows d, Sound row :=
  sound_append (sound_append sound_literalRows sound_quoteRows) sound_symbolRows

theorem local_token : Local (token d previous) := by
  refine local_choose sound_rows (local_next?.bind fun c => ?_)
  cases c with
  | none => exact local_pure
  | some c => exact local_unlisted

theorem takes_token : Takes (token d previous) := by
  refine takes_choose sound_rows (takes_next? fun c => ?_)
  cases c with
  | none => exact local_pure
  | some c => exact local_unlisted

/-! Comments. -/

theorem steady_commentPart {nests : Bool} (depth : Nat) : Steady (commentPart nests depth) := by
  refine steady_choose ?_ (steady_next fun c => local_pure)
  cases nests <;> simp [Sound, local_pure] <;> decide

/-- A part of a comment means what is written. -/
theorem commentPart_verbatim {nests : Bool} {depth after : Nat} {text meaning left : List Char}
    (read : commentPart nests depth text = .ok (some (meaning, after), left)) :
    text = meaning ++ left := by
  rcases of_choose read with ⟨row, listed, rest, rfl, part⟩ | part
  · have rows : row = (['/', '*'], pure (some (['/', '*'], depth + 1))) ∨
        row = (['*', '/'], pure (if depth ≤ 1 then none else some (['*', '/'], depth - 1))) := by
      cases nests <;> simp at listed <;> simp [listed]
    rcases rows with rfl | rfl
    · cases part
      rfl
    · by_cases last : depth ≤ 1
      · rw [if_pos last] at part
        cases part
      · rw [if_neg last] at part
        cases part
        rfl
  · obtain ⟨c, between, first, part⟩ := bind_eq_ok.mp part
    cases part
    cases text with
    | nil => cases first
    | cons d rest =>
      cases first
      rfl

/-- The content of a comment is a part of it. -/
theorem length_comment_le {nests : Bool} {depth budget : Nat} {text content left : List Char}
    (read : partsWithin (commentPart nests) budget depth text = .ok (content, left)) :
    content.length + left.length ≤ text.length := by
  induction budget generalizing depth text content with
  | zero =>
    cases read
    simp
  | succ budget ih =>
    obtain ⟨part, between, first, read⟩ := bind_eq_ok.mp read
    cases part with
    | none =>
      cases read
      simpa using (steady_commentPart depth).isLocal.length_le first
    | some part =>
      obtain ⟨others, left, later, read⟩ := bind_eq_ok.mp read
      cases read
      have shorter := ih later
      rw [commentPart_verbatim first, List.length_append, List.length_append]
      omega

theorem sound_comment : ∀ row ∈ [((['/', '*'] : List Char), (do
    return commentPiece d (← parts (commentPart d.nestsComments) 1) : Reader Piece))], Sound row :=
  List.forall_mem_singleton.mpr
    ⟨rfl, (local_parts steady_commentPart 1).bind fun _ => local_pure⟩

/-- A comment or a token is read without looking beyond a blank. -/
theorem local_commentOrToken : Local (commentOrToken d previous) :=
  local_choose sound_comment (local_token.bind fun _ => local_pure)

theorem takes_commentOrToken : Takes (commentOrToken d previous) :=
  takes_choose sound_comment (takes_token.bind fun _ => local_pure)

/-- A hint is shorter than its comment. -/
theorem length_hint_le {c : Char} {rest content left : List Char}
    (read : commentOrToken d previous (c :: rest) = .ok (.hint content, left)) :
    content.length ≤ rest.length := by
  rcases of_choose read with ⟨row, listed, after, whole, comment⟩ | other
  · obtain rfl := List.mem_singleton.mp listed
    obtain ⟨written, between, parts, comment⟩ := bind_eq_ok.mp comment
    have shorter := length_comment_le parts
    have hint : commentPiece d written = .hint content := (Prod.mk.inj (Except.ok.inj comment)).1
    have part : content.length ≤ written.length := by
      unfold commentPiece at hint
      split at hint
      · next inner =>
        split at hint
        · cases hint
          exact (List.dropWhile_sublist _).length_le.trans (Nat.le_succ _)
        · cases hint
      · cases hint
    have length := congrArg List.length whole
    simp only [List.length_cons, List.length_append] at length
    omega
  · obtain ⟨token, between, _, other⟩ := bind_eq_ok.mp other
    cases other

end TableAccess.Sql.Lexer
