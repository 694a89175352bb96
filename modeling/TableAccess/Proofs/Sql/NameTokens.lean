import TableAccess.Proofs.Sql.Tokens
import TableAccess.Sql.Grammar.Name

/-! The quotes of names. What a reader may give is told from its last step, so only the readers that
stand behind an opening quote of the dialect give quoted names: whatever the text is, each identifier among
its tokens is unquoted, in quotes that open identifiers in the dialect, or a string. -/
namespace TableAccess.Sql
open TableAccess.Text

namespace Reader
variable {α β : Type} {r : Reader α} {next' : α → Reader β} {P : α → Prop} {Q : β → Prop} {a : α}

/-- Whether a reader gives only what satisfies a condition. -/
def Yields (P : α → Prop) (r : Reader α) : Prop := ∀ ⦃text a left⦄, r text = .ok (a, left) → P a

theorem yields_pure (holds : P a) : Yields P (pure a) := by
  rintro _ _ _ ⟨⟩
  exact holds

theorem yields_failBehind {taken : List Char} {reason : LexicalFault} :
    Yields P (failBehind taken reason) := by
  intro _ _ _ read
  cases read

/-- Only the last step counts. -/
theorem yields_bind (later : ∀ a, Yields Q (next' a)) : Yields Q (r >>= next') := by
  intro _ _ _ read
  obtain ⟨a, _, _, read⟩ := bind_eq_ok.mp read
  exact later a read

theorem Yields.map {f : α → β} (yields : Yields P r) (keeps : ∀ a, P a → Q (f a)) :
    Yields Q (r >>= fun a => pure (f a)) := by
  intro _ _ _ read
  obtain ⟨a, _, first, ⟨⟩⟩ := bind_eq_ok.mp read
  exact keeps a (yields first)

theorem Yields.ite {condition : Prop} [Decidable condition] {r' : Reader α} (yes : Yields P r)
    (no : Yields P r') : Yields P (if condition then r else r') := by
  split <;> assumption

theorem Yields.behind {opening : List Char} {reason : LexicalFault} (yields : Yields P r) :
    Yields P (behind opening reason r) := by
  intro text a left read
  rw [Reader.behind] at read
  split at read
  · next given =>
    cases read
    exact yields given
  · cases read

theorem yields_choose {rows : List (List Char × Reader α)} (listed : ∀ row ∈ rows, Yields P row.2)
    (other : Yields P r) : Yields P (choose rows r) := by
  intro text a left read
  rcases of_choose read with ⟨row, member, _, _, read⟩ | read
  · exact listed row member read
  · exact other read

end Reader

/-- The quote of a quoted name. -/
def Token.quote? : Token → Option Char
  | .word _ quote => quote
  | _ => none

/-- Whether a token, if it is a quoted name, has a quote that opens identifiers in the dialect. -/
def Token.OpensIn (d : Dialect) (t : Token) : Prop := ∀ q, t.quote? = some q → d.opensIdentifier q = true

namespace Lexer
open Reader

variable {d : Dialect} {previous : Token}

/-- Whether a reader gives no other quoted names than those of the dialect. -/
abbrev Opens (d : Dialect) (r : Reader Token) : Prop := Yields (Token.OpensIn d) r

theorem opens_pure {t : Token} (unquoted : t.quote? = none) : Opens d (pure t) :=
  yields_pure fun q quoted => by
    rw [unquoted] at quoted
    cases quoted

theorem opens_row {mark : List Char} {r : Reader Token} (opens : Opens d r) : Opens d (mark, r).2 := opens

theorem opens_string {form : TextForm} {quote : Char} {escapes : Bool} :
    Opens d (string d form quote escapes) :=
  .behind (yields_bind fun _ => opens_pure rfl)

theorem opens_lettered {capital small : Char} {rest : List Char} {read : List Char → Reader Token}
    (reads : ∀ opening, Opens d (read opening)) :
    ∀ row ∈ lettered capital small rest read, Opens d row.2 :=
  List.forall_mem_cons.mpr ⟨reads _, List.forall_mem_singleton.mpr (reads _)⟩

theorem opens_rawRows {quote : Char} {once thrice : TextForm} :
    ∀ row ∈ rawRows d quote once thrice, Opens d row.2 :=
  List.forall_mem_append.mpr ⟨List.forall_mem_append.mpr
    ⟨opens_lettered fun _ => .behind (yields_bind fun _ => opens_pure rfl),
      opens_lettered fun _ => opens_pure rfl⟩,
    opens_lettered fun _ => .behind (yields_bind fun _ => opens_pure rfl)⟩

theorem opens_if {rows : List (List Char × Reader Token)} {condition : Bool}
    (opens : ∀ row ∈ rows, Opens d row.2) :
    ∀ row ∈ (if condition then rows else []), Opens d row.2 := by
  split
  · exact opens
  · exact List.forall_mem_nil _

theorem opens_literalRows : ∀ row ∈ literalRows d, Opens d row.2 := by
  simp only [literalRows, List.forall_mem_append]
  refine ⟨⟨⟨⟨⟨opens_if ?_, opens_if ?_⟩, ?_⟩, opens_if ?_⟩, opens_if ?_⟩, ?_⟩
  · exact List.forall_mem_append.mpr
      ⟨opens_lettered fun _ => opens_string, opens_lettered fun _ => opens_string⟩
  · exact List.forall_mem_append.mpr ⟨opens_rawRows, opens_rawRows⟩
  · exact opens_lettered fun _ => opens_string
  · exact opens_lettered fun _ => .behind (yields_bind fun _ => opens_pure rfl)
  · exact opens_lettered fun _ => yields_bind fun _ => opens_pure rfl
  · exact opens_lettered fun _ => opens_string

/-- The one place where quoted names are read. -/
theorem opens_quoteRows : ∀ row ∈ quoteRows d, Opens d row.2 := by
  simp only [quoteRows, List.cons_append, List.forall_mem_cons, List.forall_mem_append,
    List.forall_mem_map]
  refine ⟨opens_string, fun quote listed => ?_, opens_string, List.forall_mem_nil _⟩
  refine .behind (yields_bind fun content => yields_pure ?_)
  rintro _ ⟨⟩
  exact (List.mem_filter.mp listed).2

theorem opens_continuation {spelling : String} (kind : Continuation) :
    Opens d (continuation d spelling kind) := by
  cases kind with
  | none => exact opens_pure rfl
  | operator => exact yields_bind fun _ => .ite (opens_pure rfl) (opens_pure rfl)
  | onlyOperator => exact yields_bind fun _ => .ite yields_failBehind (opens_pure rfl)

theorem opens_listedRows {symbols : List (List Char × Continuation)} :
    ∀ row ∈ listedRows d symbols, Opens d row.2 :=
  List.forall_mem_map.mpr fun _ _ => opens_continuation _

theorem opens_word {start : List Char} : Opens d (word d start) :=
  yields_bind fun _ => opens_pure rfl

theorem opens_sign {start : Char} {spelling stops : List Char} :
    Opens d (sign d start spelling stops) := by
  refine yields_bind fun _ => .ite (opens_pure rfl) (.ite ?_ (opens_continuation _))
  refine yields_bind fun _ => .ite (opens_pure rfl) (yields_bind fun c => ?_)
  cases c with
  | none => exact opens_pure rfl
  | some c => exact opens_word

theorem opens_symbolRows : ∀ row ∈ symbolRows d, Opens d row.2 := by
  simp only [symbolRows, List.forall_mem_append, List.forall_mem_cons]
  refine ⟨⟨⟨opens_if ?_, ?_⟩, opens_continuation _, opens_listedRows⟩, opens_sign, opens_sign,
    opens_sign, List.forall_mem_nil _⟩
  · exact List.forall_mem_cons.mpr ⟨opens_row (opens_continuation _), opens_listedRows⟩
  · split
    · exact List.forall_mem_singleton.mpr (opens_row (opens_continuation _))
    · exact List.forall_mem_nil _

theorem opens_numberEnd {digits : List Char} : Opens d (numberEnd digits) :=
  yields_bind fun _ => opens_pure rfl

theorem opens_scaled {digits : List Char} : Opens d (scaled d previous digits) := by
  refine yields_bind fun _ => yields_bind fun _ => .ite opens_numberEnd (.ite ?_ ?_)
  · exact yields_bind fun _ => .ite opens_numberEnd (opens_pure rfl)
  · exact .ite (opens_pure rfl) opens_numberEnd

theorem opens_fraction : Opens d (fraction d previous) := by
  refine yields_bind fun _ => .ite (.ite (opens_pure rfl) yields_failBehind) ?_
  exact .ite (opens_pure rfl) (yields_bind fun _ => .ite (opens_pure rfl) opens_scaled)

theorem opens_number {first : Char} : Opens d (number d previous first) := by
  have whole {digits : List Char} : Opens d (number.wholeNumber d previous digits) :=
    yields_bind fun _ => .ite (yields_bind fun _ => opens_scaled) opens_scaled
  exact yields_bind fun _ => .ite whole (yields_bind fun _ => .ite
    (yields_bind fun _ => opens_pure rfl) whole)

theorem opens_dollar : Opens d (dollar d) :=
  yields_bind fun _ => yields_bind fun _ => .ite (opens_pure rfl)
    (.ite (yields_bind fun _ => opens_pure rfl) (yields_bind fun _ => opens_pure rfl))

theorem opens_unlisted {c : Char} : Opens d (unlisted d previous c) :=
  .ite opens_fraction (.ite opens_number (.ite (yields_bind fun _ => opens_pure rfl)
    (.ite opens_word (.ite opens_dollar (opens_pure rfl)))))

theorem opens_token : Opens d (token d previous) := by
  refine yields_choose ?_ (yields_bind fun c => ?_)
  · exact List.forall_mem_append.mpr
      ⟨List.forall_mem_append.mpr ⟨opens_literalRows, opens_quoteRows⟩, opens_symbolRows⟩
  · cases c with
    | none => exact opens_pure rfl
    | some c => exact opens_unlisted

/-- Whether a piece of a text is no quoted name but one of the dialect. -/
def Piece.OpensIn (d : Dialect) : Piece → Prop
  | .token t => t.OpensIn d
  | _ => True

theorem yields_commentOrToken : Yields (Piece.OpensIn d) (commentOrToken d previous) := by
  refine yields_choose (List.forall_mem_singleton.mpr (yields_bind fun content => yields_pure ?_))
    (opens_token.map fun _ opens => opens)
  unfold commentPiece
  split
  · split <;> exact trivial
  · exact trivial

theorem yields_piece : Yields (Piece.OpensIn d) (piece d previous) := by
  intro text found left read
  rw [piece] at read
  split at read
  · cases read
    exact trivial
  · split at read
    · cases read
      exact trivial
    · exact yields_commentOrToken read

/-- The tokens of a text piece by piece, those of hints included. -/
theorem opensIn_of_plain {budget : Nat} {origin : Origin} {touching : Bool} {text : List Char}
    {tokens : List (Token × Bool)}
    (read : plain (placedWithin d budget origin previous touching text) = some tokens) :
    ∀ t ∈ tokens, t.1.OpensIn d := by
  induction budget generalizing origin previous touching text tokens with
  | zero =>
    cases read
    exact List.forall_mem_nil _
  | succ budget ih =>
    cases text with
    | nil =>
      cases read
      exact List.forall_mem_nil _
    | cons c rest =>
      cases first : piece d previous (c :: rest) with
      | error fault =>
        rw [plain_of_fault first] at read
        cases read
      | ok found =>
        obtain ⟨found, left⟩ := found
        cases found with
        | token t =>
          rw [plain_of_token first] at read
          obtain ⟨others, later, rfl⟩ := Option.map_eq_some_iff.mp read
          exact List.forall_mem_cons.mpr ⟨yields_piece first, ih later⟩
        | blank => exact ih (plain_of_blank first ▸ read)
        | hint content =>
          rw [plain_of_hint first] at read
          obtain ⟨hinted, inner, read⟩ := Option.bind_eq_some_iff.mp read
          obtain ⟨others, later, rfl⟩ := Option.map_eq_some_iff.mp read
          exact List.forall_mem_append.mpr ⟨ih inner, ih later⟩

end Lexer

theorem exists_of_mem_lexemesFrom {placed : List Lexer.Placed} {number : Nat} {l : Lexeme}
    (held : l ∈ lexemesFrom number placed) : ∃ p ∈ placed, p.token = l.token := by
  induction placed generalizing number with
  | nil => cases held
  | cons p rest ih =>
    rcases List.mem_cons.mp held with rfl | held
    · exact ⟨p, List.mem_cons_self, rfl⟩
    · obtain ⟨p', found, same⟩ := ih held
      exact ⟨p', List.mem_cons_of_mem p found, same⟩

/-- Each quoted name of a text has a quote that opens identifiers in its dialect. -/
theorem opensIn_of_lexemes {d : Dialect} {text : String} {tokens : List Lexeme} {l : Lexeme}
    (read : lexemes d text = .ok tokens) (held : l ∈ tokens) : l.token.OpensIn d := by
  rw [lexemes] at read
  cases given : placedTokens d text with
  | error fault =>
    rw [given] at read
    cases read
  | ok placed =>
    rw [given] at read
    cases read
    obtain ⟨p, found, same⟩ := exists_of_mem_lexemesFrom held
    have plain : Lexer.plain (placedTokens d text) = some (placed.map fun p => (p.token, p.touching)) := by
      rw [given]
      rfl
    rw [← same]
    exact Lexer.opensIn_of_plain plain _ (List.mem_map_of_mem found)

end TableAccess.Sql
