import TableAccess.Proofs.Mapper.Marks

/-! Texts that are cut off behind a mark. Each mark is found by what it is made of, so what comes before
the cut is read as it was, and elements that the cut leaves open are no fault. -/
namespace TableAccess.Markup
open TableAccess.Text

variable {part rest text after inside : List Char} {outer left : List (List Char)}

/-! What is found at the start of a text. -/

theorem afterStart?_eq_none_iff {start : List Char} : afterStart? start text = none ↔ ¬ start <+: text := by
  constructor
  · rintro none ⟨rest, rfl⟩
    exact absurd ((afterStart?_append start rest).symm.trans none) (by simp)
  · intro other
    rw [Option.eq_none_iff_forall_ne_some]
    intro rest found
    exact other ⟨rest, (of_afterStart? found).symm⟩

/-- Where a text is split does not depend on what follows the mark. -/
theorem splitAt?_append {mark before : List Char} (found : splitAt? mark text = some (before, after))
    (rest : List Char) : splitAt? mark (before ++ mark ++ rest) = some (before, rest) := by
  have atOnce : splitAt? mark (mark ++ rest) = some ([], rest) := by
    cases whole : mark ++ rest with
    | nil =>
      obtain ⟨rfl, rfl⟩ := List.append_eq_nil_iff.mp whole
      rfl
    | cons c behind => rw [splitAt?, ← whole, afterStart?_append]
  induction text generalizing before with
  | nil =>
    rw [splitAt?] at found
    split at found
    · obtain ⟨rfl, _⟩ := Prod.mk.inj (Option.some.inj found)
      exact atOnce
    · cases found
  | cons c text ih =>
    rw [splitAt?] at found
    split at found
    · obtain ⟨rfl, _⟩ := Prod.mk.inj (Option.some.inj found)
      exact atOnce
    · next other =>
      obtain ⟨⟨before, after⟩, split, same⟩ := Option.map_eq_some_iff.mp found
      obtain ⟨rfl, rfl⟩ := Prod.mk.inj same
      have other : ¬ mark <+: c :: (before ++ mark) := fun start =>
        afterStart?_eq_none_iff.mp other (start.trans ⟨after, by rw [of_splitAt? split]; simp⟩)
      have here : afterStart? mark (c :: (before ++ mark ++ rest)) = none := by
        rw [afterStart?_eq_none_iff]
        intro start
        exact other (List.prefix_of_prefix_length_le start ⟨rest, by simp⟩ (by simp; omega))
      rw [List.cons_append, List.cons_append, splitAt?, here]
      simp only [ih split, Option.map_some]

/-- A tag goes on behind its inside until a bracket closes it. -/
theorem tag?_append {quote : Option Char} (found : tag? quote text = some (inside, after)) :
    text = inside ++ '>' :: after ∧ ∀ rest, tag? quote (inside ++ rest) =
      (tag? none rest).map fun (part, after) => (inside ++ part, after) := by
  induction text generalizing quote inside with
  | nil => cases quote <;> cases found
  | cons c text ih =>
    by_cases closes : quote = none ∧ c = '>'
    · obtain ⟨rfl, rfl⟩ := closes
      obtain ⟨rfl, rfl⟩ := Prod.mk.inj (Option.some.inj found)
      exact ⟨rfl, fun rest => by simp⟩
    · obtain ⟨next_, step⟩ : ∃ next_, ∀ rest, tag? quote (c :: rest) =
          (tag? next_ rest).map fun (part, after) => (c :: part, after) := by
        cases quote with
        | some q => exact ⟨_, fun _ => rfl⟩
        | none =>
          have other : ¬ (c == '>') = true := by simpa using closes
          exact ⟨_, fun rest => by rw [tag?, if_neg other]⟩
      rw [step] at found
      obtain ⟨⟨part, behind⟩, within, same⟩ := Option.map_eq_some_iff.mp found
      obtain ⟨rfl, rfl⟩ := Prod.mk.inj same
      obtain ⟨split, later⟩ := ih within
      refine ⟨congrArg (c :: ·) split, fun rest => ?_⟩
      rw [List.cons_append, step, later, Option.map_map]
      rfl

/-- Where a declaration ends does not depend on what follows it. -/
theorem declaration?_append {depth : Nat} (found : declaration? depth text = some (inside, after)) :
    text = inside ++ '>' :: after ∧
    ∀ rest, declaration? depth (inside ++ '>' :: rest) = some (inside, rest) := by
  induction text generalizing depth inside with
  | nil => cases found
  | cons c text ih =>
    rw [declaration?] at found
    split at found
    · next closes =>
      obtain ⟨rfl, rfl⟩ := Prod.mk.inj (Option.some.inj found)
      simp only [Bool.and_eq_true, beq_iff_eq] at closes
      obtain ⟨rfl, rfl⟩ := closes
      exact ⟨rfl, fun rest => rfl⟩
    · next other =>
      obtain ⟨⟨part, behind⟩, within, same⟩ := Option.map_eq_some_iff.mp found
      obtain ⟨rfl, rfl⟩ := Prod.mk.inj same
      obtain ⟨split, later⟩ := ih within
      refine ⟨congrArg (c :: ·) split, fun rest => ?_⟩
      rw [List.cons_append, declaration?, if_neg other]
      exact congrArg (Option.map _) (later rest)

/-- A declaration says what it is in front. -/
theorem afterDeclaration?_append (found : afterDeclaration? text = some after) :
    ∃ c inside, c ∉ ['-', '['] ∧ text = c :: inside ++ '>' :: after ∧
      ∀ rest, afterDeclaration? (c :: inside ++ '>' :: rest) = some rest := by
  obtain ⟨⟨inside, behind⟩, taken, found⟩ := Option.bind_eq_some_iff.mp found
  obtain ⟨named, opens, found⟩ := Option.bind_eq_some_iff.mp found
  split at found
  · cases found
  · next some_ =>
    obtain rfl := Option.some.inj found
    obtain ⟨split, later⟩ := declaration?_append taken
    have letters := of_afterStart? opens
    cases inside with
    | nil => cases letters
    | cons c inside =>
      have lower : c.toLower = 'd' := (List.cons.inj letters).1
      refine ⟨c, inside, fun special => ?_, split, fun rest => ?_⟩
      · simp only [List.mem_cons, List.not_mem_nil, or_false] at special
        rcases special with rfl | rfl <;> cases lower
      · simp only [afterDeclaration?, later, Option.bind_eq_bind, Option.bind_some, opens, if_neg some_]
        rfl

/-- Where a comment ends does not depend on what follows it. -/
theorem afterComment?_append (found : afterComment? text = some after) :
    ∃ part, text = part ++ after ∧ ∀ rest, afterComment? (part ++ rest) = some rest := by
  obtain ⟨text, opens, found⟩ := Option.bind_eq_some_iff.mp found
  obtain ⟨⟨before, behind⟩, split, rfl⟩ := Option.map_eq_some_iff.mp found
  obtain rfl := of_afterStart? opens
  refine ⟨'-' :: (before ++ "-->".toList), ?_, fun rest => ?_⟩
  · rw [of_splitAt? split]
    rfl
  · have again := splitAt?_append split rest
    simp only [List.cons_append, afterComment?, afterStart?, beq_self_eq_true, if_true,
      Option.bind_eq_bind, Option.bind_some, again]
    rfl

/-- An instruction has something in it, and where it ends does not depend on what follows it. -/
theorem afterInstruction?_append (found : afterInstruction? text = some after) :
    ∃ c part, text = c :: part ++ after ∧ ∀ rest, afterInstruction? (c :: part ++ rest) = some rest := by
  obtain ⟨⟨inside, behind⟩, split, found⟩ := Option.bind_eq_some_iff.mp found
  cases inside with
  | nil => cases found
  | cons c inside =>
    obtain rfl := Option.some.inj found
    refine ⟨c, inside ++ "?>".toList, of_splitAt? split, fun rest => ?_⟩
    have again := splitAt?_append split rest
    rw [← List.cons_append, afterInstruction?, again]
    rfl

/-- What starts with an exclamation mark, but is no comment and no section, is a declaration. -/
theorem markup?_declaration {c : Char} (plain : c ∉ ['-', '[']) (text : List Char) :
    markup? ('!' :: c :: text) = (afterDeclaration? (c :: text)).map fun after => (none, after) := by
  simp only [List.mem_cons, List.not_mem_nil, or_false, not_or] at plain
  unfold markup?
  split <;> simp_all

/-- Markup is made of a part of the text, and is the same whatever follows that part. -/
theorem markup?_append {mark : Option Mark} (found : markup? text = some (mark, after)) :
    ∃ part, text = part ++ after ∧ ∀ rest, markup? (part ++ rest) = some (mark, rest) := by
  have whole := found
  unfold markup? at found
  split at found
  · -- A comment.
    obtain ⟨behind, comment, same⟩ := Option.map_eq_some_iff.mp found
    obtain ⟨rfl, rfl⟩ := Prod.mk.inj same
    obtain ⟨part, rfl, later⟩ := afterComment?_append comment
    exact ⟨'!' :: '-' :: part, rfl, fun rest => congrArg (Option.map _) (later rest)⟩
  · -- A literal section.
    obtain ⟨text, opens, _⟩ := Option.bind_eq_some_iff.mp found
    rw [of_afterStart? opens] at whole ⊢
    rw [markup?_section] at whole
    obtain ⟨⟨content, behind⟩, split, same⟩ := Option.map_eq_some_iff.mp whole
    obtain ⟨rfl, rfl⟩ := Prod.mk.inj same
    refine ⟨"![CDATA[".toList ++ (content ++ "]]>".toList), ?_, fun rest => ?_⟩
    · rw [of_splitAt? split]
      simp only [List.append_assoc]
    · rw [List.append_assoc, markup?_section, splitAt?_append split rest, Option.map_some]
  · -- A declaration.
    obtain ⟨behind, declaration, same⟩ := Option.map_eq_some_iff.mp found
    obtain ⟨rfl, rfl⟩ := Prod.mk.inj same
    obtain ⟨c, inside, plain, rfl, later⟩ := afterDeclaration?_append declaration
    refine ⟨'!' :: (c :: inside ++ ['>']), by simp, fun rest => ?_⟩
    have whole : '!' :: (c :: inside ++ ['>']) ++ rest = '!' :: c :: (inside ++ '>' :: rest) := by simp
    rw [whole, markup?_declaration plain, ← List.cons_append, later, Option.map_some]
  · -- An instruction.
    obtain ⟨behind, instruction, same⟩ := Option.map_eq_some_iff.mp found
    obtain ⟨rfl, rfl⟩ := Prod.mk.inj same
    obtain ⟨c, part, split, later⟩ := afterInstruction?_append instruction
    obtain rfl : '?' = c := (List.cons.inj split).1
    exact ⟨'?' :: part, split, fun rest => congrArg (Option.map _) (later rest)⟩
  · -- A tag.
    next comment section_ declaration instruction =>
    obtain ⟨⟨tag, behind⟩, taken, found⟩ := Option.bind_eq_some_iff.mp found
    obtain ⟨rfl, unclosed⟩ := tag?_append taken
    have noMark : tag.head? ≠ some '!' := by
      intro first
      obtain ⟨_, rfl⟩ := List.head?_eq_some_iff.mp first
      exact declaration _ rfl
    have noQuestion : tag.head? ≠ some '?' := by
      intro first
      obtain ⟨_, rfl⟩ := List.head?_eq_some_iff.mp first
      exact instruction _ rfl
    have again := markup?_tag noMark noQuestion unclosed
    obtain ⟨rfl, rfl⟩ := Prod.mk.inj (Option.some.inj ((again behind).symm.trans whole))
    exact ⟨tag ++ ['>'], by simp, fun rest => by simpa using again rest⟩

/-! How a text is read, mark by mark. -/

/-- The marks of a text, and the elements that are open before and after it. -/
inductive Scans : List (List Char) → List Char → List Mark → List (List Char) → Prop where
  | done {outer : List (List Char)} : Scans outer [] [] outer
  | skip {outer left : List (List Char)} {part rest : List Char} {marks : List Mark}
      (found : ∀ rest, markup? (part ++ rest) = some (none, rest)) (behind : Scans outer rest marks left) :
      Scans outer ('<' :: (part ++ rest)) marks left
  | mark {outer inner left : List (List Char)} {part rest : List Char} {m : Mark} {marks : List Mark}
      (found : ∀ rest, markup? (part ++ rest) = some (some m, rest))
      (opens : openAfter? outer m = some inner) (behind : Scans inner rest marks left) :
      Scans outer ('<' :: (part ++ rest)) (m :: marks) left
  | plain {outer left : List (List Char)} {t : Plain} {rest : List Char} {marks : List Mark}
      (some_ : t.chars ≠ []) (ends : ∀ c ∈ rest.head?, c = '<') (behind : Scans outer rest marks left) :
      Scans outer (t.chars ++ rest) (.text t.chars :: marks) left

namespace Scans
variable {front back marks : List Mark}

theorem of_marksWithin? {budget : Nat} (read : marksWithin? budget outer text = some marks) :
    ∃ left, Scans outer text marks left := by
  induction budget generalizing outer text marks with
  | zero =>
    cases text with
    | nil =>
      obtain rfl := Option.some.inj read
      exact ⟨outer, .done⟩
    | cons c text => cases read
  | succ budget ih =>
    cases text with
    | nil =>
      obtain rfl := Option.some.inj read
      exact ⟨outer, .done⟩
    | cons c text =>
      by_cases bracket : c = '<'
      · subst bracket
        obtain ⟨⟨mark, after⟩, found, read⟩ := Option.bind_eq_some_iff.mp read
        obtain ⟨part, rfl, always⟩ := markup?_append found
        cases mark with
        | none =>
          obtain ⟨left, behind⟩ := ih read
          exact ⟨left, .skip always behind⟩
        | some m =>
          obtain ⟨inner, opens, read⟩ := Option.bind_eq_some_iff.mp read
          obtain ⟨later, readLater, same⟩ := Option.bind_eq_some_iff.mp read
          obtain rfl := Option.some.inj same
          obtain ⟨left, behind⟩ := ih readLater
          exact ⟨left, .mark always opens behind⟩
      · have noBracket : ∀ rest, c :: text ≠ '<' :: rest := fun rest same => bracket (List.cons.inj same).1
        rw [marksWithin?.eq_4 _ _ _ (List.cons_ne_nil c text) noBracket] at read
        obtain ⟨later, readLater, rfl⟩ := Option.map_eq_some_iff.mp read
        obtain ⟨left, behind⟩ := ih readLater
        have inside : '<' ∉ (c :: text).takeWhile (· != '<') := fun member => by
          simpa using List.all_eq_true.mp List.all_takeWhile _ member
        have some_ : (c :: text).takeWhile (· != '<') ≠ [] := by simp [bracket]
        have ends : ∀ d ∈ ((c :: text).dropWhile (· != '<')).head?, d = '<' := by
          intro d first
          have := List.head?_dropWhile_not (· != '<') (c :: text)
          rw [first] at this
          simpa using this
        have read : Scans outer (Plain.chars ⟨_, inside⟩ ++ (c :: text).dropWhile (· != '<')) _ left :=
          .plain some_ ends behind
        rw [List.takeWhile_append_dropWhile] at read
        exact ⟨left, read⟩

theorem nested (scans : Scans outer text marks left) : marks.foldlM openAfter? outer = some left := by
  induction scans with
  | done => rfl
  | skip _ _ ih => exact ih
  | mark _ opens _ ih =>
    rw [List.foldlM_cons, opens]
    exact ih
  | plain _ _ _ ih => exact ih

theorem reads (scans : Scans outer text marks left) : Reads outer text marks left [] := by
  induction scans with
  | done => exact .refl _ []
  | skip found _ ih => exact (Reads.skip (found _)).trans ih
  | mark found opens _ ih => exact (Reads.mark (found _) opens).trans ih
  | @plain outer left t rest marks some_ ends _ ih =>
    have one : t.marks = [.text t.chars] := by simp [Plain.marks, some_]
    have whole : Reads outer (t.chars ++ rest) (t.marks ++ marks) left [] := (Reads.plain t ends).trans ih
    rwa [one] at whole

/-- A text may be cut off behind any of its marks. -/
theorem cut (scans : Scans outer text (front ++ back) left) :
    ∃ start inner, start <+: text ∧ Scans outer start front inner := by
  generalize whole : front ++ back = marks at scans
  induction scans generalizing front with
  | @done outer =>
    obtain ⟨rfl, _⟩ := List.append_eq_nil_iff.mp whole
    exact ⟨[], outer, List.nil_prefix, .done⟩
  | @skip _ _ part rest _ found _ ih =>
    obtain ⟨start, inner, starts, scans⟩ := ih whole
    have starts' : '<' :: (part ++ start) <+: '<' :: (part ++ rest) :=
      List.cons_prefix_cons.mpr ⟨rfl, (List.prefix_append_right_inj part).mpr starts⟩
    exact ⟨_, inner, starts', .skip found scans⟩
  | mark found opens _ ih =>
    cases front with
    | nil => exact ⟨[], _, List.nil_prefix, .done⟩
    | cons m front =>
      obtain ⟨rfl, later⟩ := List.cons.inj whole
      obtain ⟨start, inner, starts, scans⟩ := ih later
      exact ⟨_, inner, List.cons_prefix_cons.mpr ⟨rfl, (List.prefix_append_right_inj _).mpr starts⟩,
        .mark found opens scans⟩
  | plain some_ ends _ ih =>
    cases front with
    | nil => exact ⟨[], _, List.nil_prefix, .done⟩
    | cons m front =>
      obtain ⟨rfl, later⟩ := List.cons.inj whole
      obtain ⟨start, inner, starts, scans⟩ := ih later
      have ends' : ∀ c ∈ start.head?, c = '<' := fun c first => ends c (by
        obtain ⟨_, rfl⟩ := List.head?_eq_some_iff.mp first
        obtain ⟨_, rfl⟩ := starts
        rfl)
      exact ⟨_, inner, (List.prefix_append_right_inj _).mpr starts, .plain some_ ends' scans⟩

end Scans

/-- At the end of a text that is read some elements are open. -/
theorem exists_open_of_marks? {marks : List Mark} (read : marks? text = some marks) :
    ∃ left, marks.foldlM openAfter? [] = some left := by
  obtain ⟨left, scans⟩ := Scans.of_marksWithin? read
  exact ⟨left, scans.nested⟩

/-- **A text that is cut off behind a mark is read as the marks before the cut**, whatever elements the cut
leaves open. -/
theorem marks?_cut {front back : List Mark} (read : marks? text = some (front ++ back)) :
    ∃ start, start <+: text ∧ marks? start = some front := by
  have unmarked {body : List Char} {outer left : List (List Char)}
      (scans : Scans outer body (front ++ back) left) : ∃ start, start <+: body ∧
        ∀ budget, start.length ≤ budget → marksWithin? budget outer start = some front := by
    obtain ⟨start, inner, starts, scans⟩ := scans.cut
    refine ⟨start, starts, fun budget enough => ?_⟩
    obtain ⟨budget, _, again⟩ := scans.reads budget enough
    rw [again]
    cases budget <;> simp [marksWithin?]
  by_cases marked : text.head? = some '\ufeff'
  · obtain ⟨body, rfl⟩ := List.head?_eq_some_iff.mp marked
    obtain ⟨left, scans⟩ := Scans.of_marksWithin? read
    obtain ⟨start, starts, again⟩ := unmarked scans
    exact ⟨'\ufeff' :: start, List.cons_prefix_cons.mpr ⟨rfl, starts⟩, again _ (Nat.le_refl _)⟩
  · have plain {body : List Char} (unmarked : body.head? ≠ some '\ufeff') :
        marks? body = marksWithin? body.length [] body := by simp [marks?, unmarked]
    obtain ⟨left, scans⟩ := Scans.of_marksWithin? ((plain marked).symm.trans read)
    obtain ⟨start, starts, again⟩ := unmarked scans
    have unmarked : start.head? ≠ some '\ufeff' := by
      intro first
      obtain ⟨_, rfl⟩ := List.head?_eq_some_iff.mp first
      obtain ⟨_, rfl⟩ := starts
      exact marked rfl
    exact ⟨start, starts, (plain unmarked).trans (again _ (Nat.le_refl _))⟩

end TableAccess.Markup
