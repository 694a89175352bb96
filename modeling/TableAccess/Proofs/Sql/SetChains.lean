import Mathlib.Data.List.Forall2
import TableAccess.Proofs.Sql.LoneWords
import TableAccess.Sql.Outline

/-! How a chain of set operations is read. A chain is selections with set operators between them, and no parentheses:
each selection is columns of one table. Its tokens are read whole in every dialect, however long the chain is: each
operation becomes the left side of the next one, and a run that the tightest operator makes is one side of the
operators around it. -/
namespace TableAccess.Sql

/-- Words that a column of a plain selection cannot be: they go on with the list of columns in another way, or
end it. -/
def wordsOfSelections : List String := wordsOfExpressions ++ wordsAfterItem ++ ["ALL", "DISTINCT", "TOP"]

/-- Words that a table cannot be where a source of rows starts. -/
def wordsOfSources : List String := ["LATERAL", "TABLE", "UNNEST"]

/-- A selection of columns from one table, without further clauses. -/
structure PlainSelect where
  first : Ident
  more : List Ident
  table : Ident
  columns_free : ∀ c ∈ first :: more, c.token.keyword ∉ wordsOfSelections
  table_free : table.token.keyword ∉ wordsOfSources

/-- A part of a written chain. -/
inductive Piece where
  | keyword (word : String)
  | name (i : Ident)
  | comma

/-- Whether a token is a part of a written chain. Keywords may be written in any case. -/
def Piece.IsSpelledBy : Piece → Lexeme → Prop
  | keyword word, t => t.token.keyword = word
  | name i, t => t.token = i.token
  | comma, t => t.token = .symbol ","

instance (piece : Piece) (t : Lexeme) : Decidable (piece.IsSpelledBy t) :=
  match piece with
  | .keyword word => inferInstanceAs (Decidable (t.token.keyword = word))
  | .name i => inferInstanceAs (Decidable (t.token = i.token))
  | .comma => inferInstanceAs (Decidable (t.token = .symbol ","))

/-- Whether tokens are the parts of something written. -/
abbrev Spells (pieces : List Piece) (tokens : List Lexeme) : Prop := List.Forall₂ Piece.IsSpelledBy pieces tokens

instance (pieces : List Piece) (tokens : List Lexeme) : Decidable (Spells pieces tokens) :=
  decidable_of_iff
    (pieces.length = tokens.length ∧ ∀ pair ∈ pieces.zip tokens, pair.1.IsSpelledBy pair.2)
    (by rw [Spells, List.forall₂_iff_zip, Prod.forall])

namespace PlainSelect

/-- The columns of a selection. -/
def columns (p : PlainSelect) : List Ident := p.first :: p.more

/-- A selection as it is written. -/
def pieces (p : PlainSelect) : List Piece :=
  .keyword "SELECT" :: .name p.first :: p.more.flatMap (fun c => [.comma, .name c]) ++
    [.keyword "FROM", .name p.table]

/-- A selection as it is read. -/
def select (p : PlainSelect) : Select :=
  { Rule.bareSelect with
    items := p.columns.map fun c => ⟨.name c, none⟩
    tables := [⟨.table [p.table] "" none "", []⟩] }

end PlainSelect

/-- Words between the branches of a chain. -/
def setWords : List String := ["UNION", "INTERSECT", "EXCEPT"]

/-! Chains of set operations. -/

/-- Bodies with set operators between them: each operation is the left side of the next. -/
def Body.joined (left : Body) : List (String × Body) → Body
  | [] => left
  | (operator, right) :: more => joined (.operation left operator right) more

/-- Selections with the set operator between them that binds tightest. -/
structure Intersection where
  first : PlainSelect
  more : List PlainSelect

/-- The other set operators. -/
inductive LooseOperator where
  | union
  | unionAll
  | except

/-- Selections with set operators between them, and no parentheses: the runs that the tightest operator makes, and
the other operators between those. Every sequence of selections and operators falls into such runs. -/
structure SetChain where
  first : Intersection
  more : List (LooseOperator × Intersection)

namespace Intersection

def pieces (i : Intersection) : List Piece :=
  i.first.pieces ++ i.more.flatMap fun p => .keyword "INTERSECT" :: p.pieces

/-- A run as it is read. -/
def body (i : Intersection) : Body :=
  .joined (.select i.first.select) (i.more.map fun p => ("INTERSECT", .select p.select))

/-- The selections of a run. -/
def branches (i : Intersection) : List PlainSelect := i.first :: i.more

end Intersection

namespace LooseOperator

def words : LooseOperator → List String
  | union => ["UNION"]
  | unionAll => ["UNION", "ALL"]
  | except => ["EXCEPT"]

def text : LooseOperator → String
  | union => "UNION"
  | unionAll => "UNION ALL"
  | except => "EXCEPT"

end LooseOperator

namespace SetChain

/-- A chain as it is written. -/
def pieces (c : SetChain) : List Piece :=
  c.first.pieces ++ c.more.flatMap fun (o, i) => o.words.map .keyword ++ i.pieces

/-- A chain as it is read. -/
def body (c : SetChain) : Body := .joined c.first.body (c.more.map fun (o, i) => (o.text, i.body))

/-- A chain alone as a query. -/
def query (c : SetChain) : Query :=
  ⟨false, [], c.body, .unordered, [], .unlimited, [], ""⟩

/-- The selections of a chain. -/
def branches (c : SetChain) : List PlainSelect := c.first.branches ++ c.more.flatMap fun (_, i) => i.branches

end SetChain

/-- Whether nothing is written behind a selection, or a set operator. -/
def Closes (behind : List Piece) : Prop := ∀ piece ∈ behind.head?, ∃ word ∈ setWords, piece = .keyword word

namespace Closes
variable {behind : List Piece} {tokens : List Lexeme}

theorem nil : Closes [] := by simp [Closes]

theorem keyword {word : String} (listed : word ∈ setWords) : Closes (.keyword word :: behind) := by
  simpa [Closes] using listed

theorem intersections (closes : Closes behind) (more : List PlainSelect) :
    Closes (more.flatMap (fun p => .keyword "INTERSECT" :: p.pieces) ++ behind) := by
  cases more with
  | nil => exact closes
  | cons p more => exact keyword (by decide)

theorem looser (more : List (LooseOperator × Intersection)) :
    Closes (more.flatMap fun (o, i) => o.words.map .keyword ++ i.pieces) := by
  match more with
  | [] => exact nil
  | (.union, _) :: _ => exact keyword (by decide)
  | (.unionAll, _) :: _ => exact keyword (by decide)
  | (.except, _) :: _ => exact keyword (by decide)

theorem keyword_mem (closes : Closes behind) (spelled : Spells behind tokens) :
    (tokens = [] ∧ behind = []) ∨ (Rule.front tokens).token.keyword ∈ setWords := by
  cases spelled with
  | nil => exact .inl ⟨rfl, rfl⟩
  | @cons piece t pieces later seen _ =>
    obtain ⟨word, listed, rfl⟩ := closes _ rfl
    have seen : (Rule.front (t :: later)).token.keyword = word := seen
    exact .inr (seen ▸ listed)

theorem stops (closes : Closes behind) (spelled : Spells behind tokens) :
    Stops tokens ∧ (Rule.front tokens).token ≠ .symbol "," := by
  rcases closes.keyword_mem spelled with ⟨rfl, -⟩ | listed
  · exact ⟨.finish rfl, Token.noConfusion⟩
  · refine ⟨.word (List.mem_cons_of_mem _ listed), fun same => ?_⟩
    rw [same] at listed
    exact absurd listed (by decide)

end Closes

namespace Rule
variable {s : Setting} {t : Lexeme} {tokens : List Lexeme} {g g' g'' : Grammar} {i : Ident} {d : Dialect} {n : Nat}
  {pieces behind : List Piece}

/-- A column is an item wherever a comma or the sources follow. -/
theorem gives_column (read : g.expr = expression g' 0) (known : g' .dataType = dataType g'')
    (named : t.token = i.token) (free : i.token.keyword ∉ wordsOfSelections) (stops : Stops tokens) :
    (selectItem g).Gives ⟨d, n + 1, .ordinary⟩ (t :: tokens) ⟨.name i, none⟩ tokens := by
  rw [← named] at free
  refine gives_selectItem read known named stops (fun mem => free ?_) fun same => free ?_
  · exact List.mem_append_left _ (List.mem_append_left _ mem)
  · rw [same]
    decide

/-- Columns are read one after the other, for as long as a comma follows. -/
theorem gives_columns {more : Rule Bool} {c : Ident} {cs : List Ident} {steps : Nat}
    (read : g.expr = expression g' 0) (known : g' .dataType = dataType g'')
    (goesOn : ∀ {comma t later} {i : Ident}, comma.token = .symbol "," → t.token = i.token →
      i.token.keyword ∉ wordsOfSelections →
      more.Gives ⟨d, n + 1, .ordinary⟩ (comma :: t :: later) true (t :: later))
    (ends : ∀ {tokens}, (front tokens).token.keyword = "FROM" →
      more.Gives ⟨d, n + 1, .ordinary⟩ tokens false tokens)
    (free : ∀ c' ∈ c :: cs, c'.token.keyword ∉ wordsOfSelections) (enough : cs.length < steps)
    (spelled : Spells (.name c :: (cs.flatMap (fun c => [.comma, .name c]) ++ .keyword "FROM" :: behind)) tokens) :
    ∃ rest, Spells (.keyword "FROM" :: behind) rest ∧
      (listWithin (selectItem g) more steps).Gives ⟨d, n + 1, .ordinary⟩ tokens
        ((c :: cs).map fun c => ⟨.name c, none⟩) rest := by
  induction cs generalizing c tokens steps with
  | nil =>
    obtain ⟨steps, rfl⟩ := Nat.exists_eq_succ_of_ne_zero (Nat.ne_zero_of_lt enough)
    obtain ⟨t, later, named, sources, rfl⟩ := List.forall₂_cons_left_iff.mp spelled
    have last : (front later).token.keyword = "FROM" := by
      cases sources with
      | cons seen _ => exact seen
    have stops : Stops later := .word (last ▸ by decide)
    have item := gives_column (d := d) (n := n) read known named (free c List.mem_cons_self) stops
    exact ⟨later, sources, item.step ((ends last).step gives_pure)⟩
  | cons c' cs ih =>
    obtain ⟨steps, rfl⟩ := Nat.exists_eq_succ_of_ne_zero (Nat.ne_zero_of_lt enough)
    obtain ⟨t, later, named, afterColumn, rfl⟩ := List.forall₂_cons_left_iff.mp spelled
    obtain ⟨comma, later, seen, afterComma, rfl⟩ := List.forall₂_cons_left_iff.mp afterColumn
    obtain ⟨free, others⟩ := List.forall_mem_cons.mp free
    obtain ⟨rest, sources, given⟩ := ih others (Nat.lt_of_succ_lt_succ enough) afterComma
    obtain ⟨t', later, named', -, rfl⟩ := List.forall₂_cons_left_iff.mp afterComma
    have stops : Stops (comma :: t' :: later) := .comma seen
    have item := gives_column (d := d) (n := n) read known named free stops
    refine ⟨rest, sources, item.step ?_⟩
    exact (goesOn seen named' (others c' List.mem_cons_self)).step (given.step gives_pure)

theorem symbol?_behindColumns (last : (front tokens).token.keyword = "FROM") :
    (symbol? ",").Gives s tokens false tokens := by
  refine gives_symbol?_other fun same => ?_
  rw [same] at last
  exact absurd last (by decide)

/-- The columns of a selection as they are written, before its table. -/
abbrev SpellsColumns (p : PlainSelect) (behind : List Piece) (tokens : List Lexeme) : Prop :=
  Spells (.name p.first :: (p.more.flatMap (fun c => [.comma, .name c]) ++ .keyword "FROM" :: behind)) tokens

theorem SpellsColumns.length_lt {p : PlainSelect} (spelled : SpellsColumns p behind tokens) :
    p.more.length < tokens.length + 1 := by
  have counted := spelled.length_eq
  simp only [List.length_cons, List.length_append, List.length_flatMap, List.length_nil, List.map_const',
    List.sum_replicate_nat] at counted
  omega

theorem gives_commaList {p : PlainSelect} (read : g.expr = expression g' 0) (known : g' .dataType = dataType g'')
    (spelled : SpellsColumns p behind tokens) : ∃ rest, Spells (.keyword "FROM" :: behind) rest ∧
      (commaList (selectItem g)).Gives ⟨d, n + 1, .ordinary⟩ tokens p.select.items rest := by
  refine (gives_columns read known ?_ symbol?_behindColumns p.columns_free spelled.length_lt spelled).imp
    fun rest found => ⟨found.1, gives_get.step found.2⟩
  intro comma t later i seen _ _
  have front : (front (comma :: t :: later)).token = .symbol "," := seen
  exact gives_symbol? front

/-- No column ends the list that it is in. -/
theorem gives_commaListUntil {p : PlainSelect} (read : g.expr = expression g' 0)
    (known : g' .dataType = dataType g'') (spelled : SpellsColumns p behind tokens) :
    ∃ rest, Spells (.keyword "FROM" :: behind) rest ∧
      (commaListUntil (fun token => wordsAfterItem.contains token.keyword) (selectItem g)).Gives
        ⟨d, n + 1, .ordinary⟩ tokens p.select.items rest := by
  refine (gives_columns read known ?_ ?_ p.columns_free spelled.length_lt spelled).imp
    fun rest found => ⟨found.1, gives_get.step found.2⟩
  · intro comma t later i seen named free
    have first : (front (comma :: t :: later)).token = .symbol "," := seen
    have second : (front (t :: later)).token = .word i.value i.quote := named
    have unlisted : wordsAfterItem.contains i.token.keyword = false := by
      rw [List.contains_eq_mem, decide_eq_false_iff_not]
      exact fun mem => free (List.mem_append_left _ (List.mem_append_right _ mem))
    refine (gives_symbol? first).step (gives_peek.step ?_)
    rw [List.tail_cons, second]
    change (pure (!(wordsAfterItem.contains i.token.keyword || false || false)) : Rule Bool).Gives _ _ _ _
    rw [unlisted]
    exact gives_pure
  · exact fun last => (symbol?_behindColumns last).step gives_pure

/-- The columns of a selection are read alike in the dialects that take a comma behind the last one. -/
theorem gives_selectItems {p : PlainSelect} (read : g.expr = expression g' 0) (known : g' .dataType = dataType g'')
    (spelled : SpellsColumns p behind tokens) : ∃ rest, Spells (.keyword "FROM" :: behind) rest ∧
      (selectItems g).Gives ⟨d, n + 1, .ordinary⟩ tokens p.select.items rest := by
  have started : ¬ (d.allowsEmptySelect && (front tokens).token.keyword == "FROM") = true := by
    obtain ⟨t, later, named, -, rfl⟩ := List.forall₂_cons_left_iff.mp spelled
    intro both
    have free := p.columns_free p.first List.mem_cons_self
    rw [← (named : t.token = p.first.token), show t.token.keyword = "FROM" from
      beq_iff_eq.mp (Bool.and_eq_true_iff.mp both).2] at free
    exact free (by decide)
  by_cases trailing : d.trailingSelectComma = true
  · obtain ⟨rest, sources, given⟩ := gives_commaListUntil (d := d) (n := n) read known spelled
    refine ⟨rest, sources, gives_dialect.step (gives_seesWord.step ?_)⟩
    rwa [if_neg started, if_pos trailing]
  · obtain ⟨rest, sources, given⟩ := gives_commaList (d := d) (n := n) read known spelled
    refine ⟨rest, sources, gives_dialect.step (gives_seesWord.step ?_)⟩
    rwa [if_neg started, if_neg trailing]

theorem gives_conditionAfter (stops : Stops tokens) (word : String) (other : word ∉ "" :: stopWords) :
    (conditionAfter g word).Gives s tokens none tokens := gives_given_unmet (stops.word? word other)

theorem gives_grouping (stops : Stops tokens) : (grouping g).Gives s tokens (false, [], "") tokens :=
  (stops.words? "GROUP" _ (by decide)).step gives_pure

theorem gives_lateralViews (stops : Stops tokens) : (many (lateralView g)).Gives s tokens [] tokens :=
  gives_many_none ((stops.words? "LATERAL" _ (by decide)).step gives_pure)

theorem gives_namedWindows (stops : Stops tokens) : (namedWindows g).Gives s tokens [] tokens :=
  gives_givenList_unmet (stops.word? "WINDOW" (by decide))

theorem gives_into_other (other : (front tokens).token.keyword ≠ "INTO") : (into).Gives s tokens "" tokens :=
  (gives_word?_other other).step gives_pure

theorem gives_hierarchy (stops : Stops tokens) : (hierarchy g).Gives s tokens [] tokens := by
  refine gives_allows.step (gives_peekWord.step ?_)
  have listed := stops.keyword_mem
  generalize (front tokens).token.keyword = keyword at listed ⊢
  simp only [stopWords, List.mem_cons, List.not_mem_nil, or_false] at listed
  rcases listed with rfl | rfl | rfl | rfl | rfl <;> cases s.dialect <;> exact gives_pure

theorem gives_sources (read : g .joinedTable = joinedTable g') (known : g' .relation = relation g'')
    (named : t.token = i.token) (stops : Stops tokens) (last : (front tokens).token ≠ .symbol ",")
    (free : t.token.keyword ∉ wordsOfSources) :
    (sources g).Gives s (t :: tokens) [⟨.table [i] "" none "", []⟩] tokens := by
  have item : (g .joinedTable).Gives s (t :: tokens) ⟨.table [i] "" none "", []⟩ tokens := by
    rw [read]
    exact gives_joinedTable known named stops free
  exact gives_get.step (item.step ((gives_symbol?_other last).step gives_pure))

theorem gives_repetition (free : (front tokens).token.keyword ∉ wordsOfSelections) :
    (repetition g).Gives s tokens (.kept, []) tokens := by
  have none : (duplicates).Gives s tokens none tokens := by
    refine gives_peek.step ((gives_word?_other fun same => free (same ▸ by decide)).step ?_)
    exact (gives_word?_other fun same => free (same ▸ by decide)).step gives_pure
  exact none.step gives_pure

theorem gives_top (free : (front tokens).token.keyword ∉ wordsOfSelections) :
    (top g).Gives s tokens "" tokens :=
  (gives_word?_other fun same => free (same ▸ by decide)).step gives_pure

/-- Nothing but the sources follows the columns of a selection, and nothing follows those. -/
theorem gives_selectAfter {p : PlainSelect} {later between : List Lexeme} {t' : Lexeme}
    (opening : t.token.keyword = "SELECT") (free : (front later).token.keyword ∉ wordsOfSelections)
    (items : (selectItems g).Gives s later p.select.items (t' :: between)) (from' : t'.token.keyword = "FROM")
    (tables : (sources g).Gives s between p.select.tables tokens) (stops : Stops tokens) :
    (selectAfter g none).Gives s (t :: later) p.select tokens := by
  have first : (front (t :: later)).token.keyword = "SELECT" := opening
  have second : (front (t' :: between)).token.keyword = "FROM" := from'
  refine (gives_word first).step ((gives_repetition free).step ((gives_top free).step ?_))
  refine items.step ((gives_into_other (second ▸ by decide)).step ?_)
  refine (gives_givenList_met (gives_word? second) tables).step ((gives_lateralViews stops).step ?_)
  refine gives_allows.step (.either (gives_conditionAfter stops "PREWHERE" (by decide)) ?_)
  refine (gives_conditionAfter stops "WHERE" (by decide)).step ((gives_grouping stops).step ?_)
  refine (gives_givenList_unmet (stops.words? "CLUSTER" _ (by decide))).step ?_
  refine (gives_givenList_unmet (stops.words? "DISTRIBUTE" _ (by decide))).step ?_
  refine (gives_givenList_unmet (stops.words? "SORT" _ (by decide))).step ?_
  refine (gives_conditionAfter stops "HAVING" (by decide)).step ((gives_namedWindows stops).step ?_)
  refine (gives_conditionAfter stops "QUALIFY" (by decide)).step (gives_pure.step ?_)
  exact (gives_hierarchy stops).step gives_pure

/-- A selection is read whole, and nothing behind it. -/
theorem gives_select {p : PlainSelect} (expressions : g.expr = expression g' 0)
    (types : g' .dataType = dataType g'') (tables : g .joinedTable = joinedTable g')
    (relations : g' .relation = relation g'')
    (closes : Closes behind)
    (spelled : Spells (p.pieces ++ behind) tokens) :
    ∃ rest, Spells behind rest ∧ (select g).Gives ⟨d, n + 1, .ordinary⟩ tokens p.select rest := by
  rw [PlainSelect.pieces, List.append_assoc] at spelled
  obtain ⟨t, later, opening, columns, rfl⟩ := List.forall₂_cons_left_iff.mp spelled
  obtain ⟨between, sources, items⟩ := gives_selectItems (d := d) (p := p) (n := n) expressions types columns
  obtain ⟨t', later', seen, named, rfl⟩ := List.forall₂_cons_left_iff.mp sources
  obtain ⟨t'', rest, table, last, rfl⟩ := List.forall₂_cons_left_iff.mp named
  obtain ⟨stops, single⟩ := closes.stops last
  have free : t''.token.keyword ∉ wordsOfSources := (show t''.token = p.table.token from table) ▸ p.table_free
  have column : (front later).token.keyword ∉ wordsOfSelections := by
    obtain ⟨t, later, named, -, rfl⟩ := List.forall₂_cons_left_iff.mp columns
    have named : t.token = p.first.token := named
    rw [front, List.getD_cons_zero, named]
    exact p.columns_free p.first List.mem_cons_self
  have source := gives_sources (s := ⟨d, n + 1, .ordinary⟩) tables relations table stops single free
  have given := gives_selectAfter opening column items seen source stops
  have first : ¬ (front (t :: later)).token.keyword = "FROM" := by
    rw [show (front (t :: later)).token.keyword = "SELECT" from opening]
    decide
  refine ⟨rest, last, gives_allows.step ?_⟩
  exact (gives_andThen_unmet (gives_word?_other first)).step given

/-! Set operators. -/

/-- Whether no operator follows that binds tighter than the ones before. -/
def EndsAt (rank : Nat) (tokens : List Lexeme) : Prop :=
  ∀ ahead ∈ setOperatorRank (front tokens).token.keyword, ahead ≤ rank

theorem gives_setOperations_none {rank budget : Nat} {left : Body} (ends : EndsAt rank tokens) :
    (setOperations g rank budget left).Gives s tokens left tokens := by
  cases budget with
  | zero => exact gives_pure
  | succ budget =>
    refine gives_peekWord.step ?_
    cases ranked : setOperatorRank (front tokens).token.keyword with
    | none => exact gives_pure
    | some ahead =>
      dsimp only
      rw [if_pos (ends ahead ranked)]
      exact gives_pure

/-- An operator that binds tighter takes the body behind it. -/
theorem gives_setOperations_step {rank ahead budget : Nat} {word quantifier : String} {left right whole : Body}
    {between after rest : List Lexeme} (seen : t.token.keyword = word) (ranked : setOperatorRank word = some ahead)
    (tighter : rank < ahead) (quantified : setQuantifier.Gives s tokens quantifier between)
    (read : (g (.body ahead)).Gives s between right after)
    (later : (setOperations g rank budget (.operation left (word ++ quantifier) right)).Gives s after whole rest) :
    (setOperations g rank (budget + 1) left).Gives s (t :: tokens) whole rest := by
  have seen : (front (t :: tokens)).token.keyword = word := seen
  refine gives_peekWord.step ?_
  rw [seen, ranked]
  dsimp only
  rw [if_neg (Nat.not_le.mpr tighter)]
  exact gives_next.step (quantified.step (read.step later))

theorem gives_plainBody {p : PlainSelect} (k : Nat) (closes : Closes behind)
    (spelled : Spells (p.pieces ++ behind) tokens) :
    ∃ rest, Spells behind rest ∧
      (plainBody (Grammar.within (k + 3))).Gives ⟨d, n + 1, .ordinary⟩ tokens (.select p.select) rest := by
  obtain ⟨rest, last, given⟩ := gives_select (g := Grammar.within (k + 3)) (d := d) (n := n) rfl rfl rfl rfl closes
    spelled
  obtain ⟨t, later, seen, -, rfl⟩ := List.forall₂_cons_left_iff.mp spelled
  have opens : ((front (t :: later)).token.keyword == "SELECT") = true := beq_iff_eq.mpr seen
  refine ⟨rest, last, gives_dialect.step (gives_peekWord.step ?_)⟩
  rw [opens, Bool.true_or, if_pos rfl]
  exact given.step gives_pure

theorem length_le_of_spells {rest : List Lexeme} (spelled : Spells (pieces ++ behind) tokens)
    (last : Spells behind rest) : rest.length ≤ tokens.length := by
  rw [← last.length_eq, ← spelled.length_eq, List.length_append]
  exact Nat.le_add_left _ _

theorem endsAt_tightest (closes : Closes behind) (spelled : Spells behind tokens) : EndsAt 20 tokens := by
  rcases closes.keyword_mem spelled with ⟨rfl, -⟩ | listed
  · exact fun ahead ranked => nomatch ranked
  · intro ahead ranked
    generalize (front tokens).token.keyword = keyword at listed ranked
    simp only [setWords, List.mem_cons, List.not_mem_nil, or_false] at listed
    rcases listed with rfl | rfl | rfl <;> cases ranked <;> decide

theorem gives_setQuantifier (opens : (front tokens).token.keyword = "SELECT") :
    setQuantifier.Gives s tokens "" tokens := by
  refine (gives_words?_other (opens ▸ by decide)).step ((gives_words?_other (opens ▸ by decide)).step ?_)
  refine (gives_word?_other (opens ▸ by decide)).step ((gives_word?_other (opens ▸ by decide)).step ?_)
  exact gives_pure

theorem gives_setQuantifier_all (all : t.token.keyword = "ALL") (opens : (front tokens).token.keyword = "SELECT") :
    setQuantifier.Gives s (t :: tokens) " ALL" tokens := by
  have first : (front (t :: tokens)).token.keyword = "ALL" := all
  refine (gives_words?_other (first ▸ by decide)).step ((gives_words?_other (first ▸ by decide)).step ?_)
  exact (gives_word? first).step ((gives_words?_other (opens ▸ by decide)).step gives_pure)

theorem opens_of_spells (spelled : Spells (.keyword "SELECT" :: behind) tokens) :
    (front tokens).token.keyword = "SELECT" := by
  cases spelled with
  | cons seen _ => exact seen

/-- A run goes on for as long as its operator follows. -/
theorem gives_intersections {budget : Nat} (k rank : Nat) (looser : rank < 20) (closes : Closes behind)
    (more : List PlainSelect) (left : Body) (enough : tokens.length < budget)
    (spelled : Spells (more.flatMap (fun p => .keyword "INTERSECT" :: p.pieces) ++ behind) tokens) :
    ∃ rest remaining, Spells behind rest ∧ rest.length < remaining ∧ ∀ {whole last},
      (setOperations (Grammar.within (k + 4)) rank remaining
        (left.joined (more.map fun p => ("INTERSECT", .select p.select)))).Gives
          ⟨d, n + 1, .ordinary⟩ rest whole last →
      (setOperations (Grammar.within (k + 4)) rank budget left).Gives ⟨d, n + 1, .ordinary⟩ tokens whole last := by
  induction more generalizing left tokens budget with
  | nil => exact ⟨tokens, budget, spelled, enough, fun given => given⟩
  | cons p more ih =>
    rw [List.flatMap_cons, List.cons_append, List.cons_append, List.append_assoc] at spelled
    obtain ⟨t, later, seen, branch, rfl⟩ := List.forall₂_cons_left_iff.mp spelled
    obtain ⟨budget, rfl⟩ := Nat.exists_eq_succ_of_ne_zero (Nat.ne_zero_of_lt enough)
    obtain ⟨between, others, plain⟩ := gives_plainBody (d := d) (n := n) k (closes.intersections more) branch
    have right : (Grammar.within (k + 4) (.body 20)).Gives ⟨d, n + 1, .ordinary⟩ later (.select p.select) between :=
      plain.step (gives_get.step (gives_setOperations_none
        (endsAt_tightest (closes.intersections more) others)))
    have shorter : between.length < budget :=
      Nat.lt_of_le_of_lt (length_le_of_spells branch others) (Nat.lt_of_succ_lt_succ enough)
    obtain ⟨rest, remaining, last, fewer, goesOn⟩ := ih (.operation left "INTERSECT" (.select p.select)) shorter others
    refine ⟨rest, remaining, last, fewer, fun given => ?_⟩
    exact gives_setOperations_step seen rfl looser (gives_setQuantifier (opens_of_spells branch)) right
      (goesOn given)

/-- A run is read whole as the right side of another operator, and nothing behind it. -/
theorem gives_intersection {i : Intersection} (k : Nat) (closes : Closes behind)
    (ends : ∀ {rest}, Spells behind rest → EndsAt 10 rest) (spelled : Spells (i.pieces ++ behind) tokens) :
    ∃ rest, Spells behind rest ∧
      (Grammar.within (k + 5) (.body 10)).Gives ⟨d, n + 1, .ordinary⟩ tokens i.body rest := by
  rw [Intersection.pieces, List.append_assoc] at spelled
  obtain ⟨between, others, plain⟩ := gives_plainBody (d := d) (n := n) (k + 1) (closes.intersections _) spelled
  obtain ⟨rest, remaining, last, fewer, goesOn⟩ := gives_intersections (d := d) (n := n) k 10 (by decide)
    closes i.more (.select i.first.select) (Nat.lt_succ_self _) others
  refine ⟨rest, last, plain.step (gives_get.step (goesOn ?_))⟩
  exact gives_setOperations_none (ends last)

/-- An operator is its first word with the quantifier behind it. -/
theorem gives_looseOperator {i : Intersection} (o : LooseOperator)
    (spelled : Spells (o.words.map .keyword ++ (i.pieces ++ behind)) tokens) :
    ∃ t later word quantifier between, tokens = t :: later ∧ t.token.keyword = word ∧
      setOperatorRank word = some 10 ∧ setQuantifier.Gives s later quantifier between ∧
      word ++ quantifier = o.text ∧ Spells (i.pieces ++ behind) between ∧ between.length ≤ later.length := by
  cases o with
  | union =>
    obtain ⟨t, later, seen, branch, rfl⟩ := List.forall₂_cons_left_iff.mp spelled
    exact ⟨t, later, _, _, later, rfl, seen, rfl, gives_setQuantifier (opens_of_spells branch), rfl, branch,
      Nat.le_refl _⟩
  | except =>
    obtain ⟨t, later, seen, branch, rfl⟩ := List.forall₂_cons_left_iff.mp spelled
    exact ⟨t, later, _, _, later, rfl, seen, rfl, gives_setQuantifier (opens_of_spells branch), rfl, branch,
      Nat.le_refl _⟩
  | unionAll =>
    obtain ⟨t, later, seen, all, rfl⟩ := List.forall₂_cons_left_iff.mp spelled
    obtain ⟨t', between, quantified, branch, rfl⟩ := List.forall₂_cons_left_iff.mp all
    exact ⟨t, _, _, _, between, rfl, seen, rfl, gives_setQuantifier_all quantified (opens_of_spells branch), rfl,
      branch, Nat.le_succ _⟩

theorem endsAt_loose {more : List (LooseOperator × Intersection)}
    (spelled : Spells (more.flatMap fun (o, i) => o.words.map .keyword ++ i.pieces) tokens) : EndsAt 10 tokens := by
  intro ahead ranked
  cases more with
  | nil =>
    cases spelled
    cases ranked
  | cons pair more =>
    obtain ⟨o, i⟩ := pair
    rw [List.flatMap_cons, List.append_assoc] at spelled
    obtain ⟨t, later, word, _, _, rfl, seen, rank, -⟩ := gives_looseOperator (s := ⟨.generic, 0, .ordinary⟩) o spelled
    rw [show (front (t :: later)).token.keyword = word from seen, rank] at ranked
    exact Nat.le_of_eq (Option.some.inj ranked).symm

/-- The other operators are read from the first to the last. -/
theorem gives_looser {budget : Nat} (k : Nat) (more : List (LooseOperator × Intersection)) (left : Body)
    (enough : tokens.length < budget)
    (spelled : Spells (more.flatMap fun (o, i) => o.words.map .keyword ++ i.pieces) tokens) :
    (setOperations (Grammar.within (k + 5)) 0 budget left).Gives ⟨d, n + 1, .ordinary⟩ tokens
      (left.joined (more.map fun (o, i) => (o.text, i.body))) [] := by
  induction more generalizing left tokens budget with
  | nil =>
    cases spelled with
    | nil => exact gives_setOperations_none fun ahead ranked => nomatch ranked
  | cons pair more ih =>
    obtain ⟨o, i⟩ := pair
    rw [List.flatMap_cons, List.append_assoc] at spelled
    obtain ⟨t, later, word, quantifier, between, rfl, seen, rank, quantified, text, branches, shorter⟩ :=
      gives_looseOperator (s := ⟨d, n + 1, .ordinary⟩) o spelled
    obtain ⟨budget, rfl⟩ := Nat.exists_eq_succ_of_ne_zero (Nat.ne_zero_of_lt enough)
    obtain ⟨rest, others, right⟩ := gives_intersection (d := d) (n := n) k (Closes.looser more) endsAt_loose branches
    have fewer : rest.length < budget :=
      Nat.lt_of_le_of_lt (Nat.le_trans (length_le_of_spells branches others) shorter)
        (Nat.lt_of_succ_lt_succ enough)
    refine gives_setOperations_step seen rank (by decide) quantified right ?_
    rw [text]
    exact ih _ fewer others

/-- A chain is read whole. -/
theorem gives_chain (c : SetChain) (k : Nat) (spelled : Spells c.pieces tokens) :
    (Grammar.within (k + 6) (.body 0)).Gives ⟨d, n + 1, .ordinary⟩ tokens c.body [] := by
  rw [SetChain.pieces, Intersection.pieces, List.append_assoc] at spelled
  have closes := Closes.looser c.more
  obtain ⟨between, others, plain⟩ := gives_plainBody (d := d) (n := n) (k + 2) (closes.intersections _) spelled
  obtain ⟨rest, remaining, last, fewer, goesOn⟩ := gives_intersections (d := d) (n := n) (k + 1) 0
    (by decide) closes c.first.more (.select c.first.first.select) (Nat.lt_succ_self _) others
  refine plain.step (gives_get.step (goesOn ?_))
  exact gives_looser k c.more _ fewer last

/-! A chain as a whole text. -/

/-- Nothing stands around the body of a chain. -/
theorem gives_query (c : SetChain) (k : Nat) (spelled : Spells c.pieces tokens) :
    (Grammar.within (k + 8) .query).Gives ⟨d, n + 2, .ordinary⟩ tokens c.query [] := by
  have opens : (front tokens).token.keyword = "SELECT" := opens_of_spells spelled
  have ended : Stops [] := .finish rfl
  refine .deeper rfl ((gives_word?_other (opens ▸ by decide)).step (gives_pure.step (gives_pure.step ?_)))
  have unchanged : (changeBody (Grammar.within (k + 7))).Gives ⟨d, n + 1, .ordinary⟩ tokens none tokens :=
    (gives_oneOf?_other (opens ▸ by decide)).step gives_pure
  refine unchanged.step ((gives_chain c (k + 1) spelled).step ?_)
  have unordered : (ordering (Grammar.within (k + 7))).Gives ⟨d, n + 1, .ordinary⟩ [] (.unordered, []) [] :=
    (ended.words? "ORDER" _ (by decide)).step gives_pure
  have unlimited : (limit (Grammar.within (k + 7))).Gives ⟨d, n + 1, .ordinary⟩ [] (.unlimited, []) [] := by
    refine gives_dialect.step ((gives_given_unmet (ended.word? "OFFSET" (by decide))).step ?_)
    refine (ended.word? "LIMIT" (by decide)).step ?_
    exact gives_pure.step (gives_pure.step (gives_pure.step (gives_pure.step gives_pure)))
  refine unordered.step (unlimited.step ?_)
  have unset : (settings (Grammar.within (k + 7))).Gives ⟨d, n + 1, .ordinary⟩ [] "" [] :=
    gives_allows.step ((gives_andThen_unmet (ended.word? "SETTINGS" (by decide))).step gives_pure)
  have unfetched : fetch.Gives ⟨d, n + 1, .ordinary⟩ [] "" [] := (ended.word? "FETCH" (by decide)).step gives_pure
  have unpurposed : (purposes 1).Gives ⟨d, n + 1, .ordinary⟩ [] "" [] := (ended.word? "FOR" (by decide)).step gives_pure
  have unformatted : resultFormat.Gives ⟨d, n + 1, .ordinary⟩ [] "" [] :=
    gives_allows.step ((gives_andThen_unmet (ended.word? "FORMAT" (by decide))).step gives_pure)
  exact unset.step (unfetched.step (gives_get.step (unpurposed.step (unformatted.step gives_pure))))

theorem gives_statement (c : SetChain) (k : Nat) (spelled : Spells c.pieces tokens) :
    (Grammar.within (k + 9) .statement).Gives ⟨d, n + 3, .ordinary⟩ tokens (.query c.query) [] := by
  have opens : (front tokens).token.keyword = "SELECT" := opens_of_spells spelled
  refine .deeper rfl (gives_dialect.step (gives_peek.step ((gives_peekAt 1).step ?_)))
  rw [opens]
  exact (gives_query c k spelled).step gives_pure

theorem gives_statements (c : SetChain) (k budget : Nat) (spelled : Spells c.pieces tokens) :
    (statementsWithin (Grammar.within (k + 9)) (budget + 1)).Gives ⟨d, n + 3, .ordinary⟩ tokens [.query c.query]
      [] := by
  have opens : (front tokens).token.keyword = "SELECT" := opens_of_spells spelled
  have unseparated : (front tokens).token ≠ .symbol ";" := by
    intro same
    rw [same] at opens
    exact absurd opens (by decide)
  have unfinished : ¬ ((front tokens).token == .finish) = true := by
    intro same
    rw [beq_iff_eq.mp same] at opens
    exact absurd opens (by decide)
  refine (gives_many_none (gives_given_unmet (gives_symbol?_other unseparated))).step (gives_peek.step ?_)
  rw [if_neg unfinished]
  exact (gives_statement c k spelled).step (gives_peek.step gives_pure)

end Rule

namespace SetChain
variable {c : SetChain} {d : Dialect} {text : String} {tokens : List Lexeme}

theorem parse_eq (spelled : Spells c.pieces tokens) : parse d tokens = .ok [.query c.query] := by
  have given := Rule.gives_statements (d := d) (n := 47) c (4 * tokens.length + 391) tokens.length spelled
  have run : Rule.statementsWithin (Grammar.within (4 * tokens.length + 8 * nestingLimit)) (tokens.length + 1)
      ⟨d, nestingLimit, .ordinary⟩ tokens = .ok ([.query c.query], []) := given
  rw [parse, run]
  rfl

/-- A chain is read as one query, in every dialect and however many selections it has. -/
theorem readStatement_eq (read : lexemes d text = .ok tokens) (spelled : Spells c.pieces tokens) :
    readStatement d text = .ok (.select c.query.scope) := by
  have said : (statements d text).toOption = some [.query c.query] := by
    rw [toOption_statements, read]
    exact congrArg Except.toOption (parse_eq spelled)
  rw [readStatement]
  cases parsed : statements d text with
  | error message =>
    rw [parsed] at said
    cases said
  | ok all =>
    rw [parsed] at said
    obtain rfl := Option.some.inj said
    rfl

end SetChain
end TableAccess.Sql
