import TableAccess.Sql.Reader
import TableAccess.Proofs.Text.Blank
import TableAccess.Proofs.Template.Scanning

/-! Readers that look no further than to the next blank. What such a reader gives depends on the
characters that it takes, and on those behind them only up to a blank: whichever blank it is, whatever
follows it, and whether the text ends there makes no difference. Small readers are of this kind when
their tests hold of no blank and their marks have none, and readers put together from such readers
are. -/
namespace TableAccess.Sql
open TableAccess.Text

/-- Two texts are the same up to a blank. From there on the second one has a space and anything, or
ends. -/
inductive SameWord : List Char → List Char → Prop
  | nil : SameWord [] []
  | ends {b text} : isBlank b = true → SameWord (b :: text) []
  | blank {b text text'} : isBlank b = true → SameWord (b :: text) (' ' :: text')
  | cons {c text text'} : SameWord text text' → SameWord (c :: text) (c :: text')

variable {text text' : List Char}

theorem SameWord.append (same : SameWord text text') : ∀ written,
    SameWord (written ++ text) (written ++ text')
  | [] => same
  | _ :: written => .cons (same.append written)

/-- A test that holds of no blank sees the same character in both. -/
theorem SameWord.any_head? (same : SameWord text text') {test : Char → Bool}
    (solid : ∀ b, isBlank b = true → test b = false) :
    text'.head?.any test = text.head?.any test := by
  cases same with
  | nil => rfl
  | ends blank => simp [solid _ blank]
  | blank blank => simp [solid _ blank, solid ' ' rfl]
  | cons same => rfl

/-- A blank that follows in the second text follows in the first one. -/
theorem SameWord.isBlank_head? (same : SameWord text text') (follows : text'.head?.any isBlank) :
    text.head?.any isBlank := by
  cases same with
  | nil => exact follows
  | ends blank => exact blank
  | blank blank => exact blank
  | cons same => exact follows

/-- What the second text starts with is a space or starts the first one too. -/
theorem SameWord.exists_cons {c : Char} (same : SameWord text (c :: text')) (solid : c ≠ ' ') :
    ∃ rest, text = c :: rest ∧ SameWord rest text' := by
  cases same with
  | blank _ => exact absurd rfl solid
  | cons same => exact ⟨_, rfl, same⟩

/-- Characters without a blank, at least one. -/
def isSolid (mark : List Char) : Bool := !mark.isEmpty && mark.all fun c => !isBlank c

theorem isSolid_cons {c : Char} {mark : List Char} :
    isSolid (c :: mark) = true ↔ isBlank c = false ∧ ∀ d ∈ mark, isBlank d = false := by
  simp [isSolid]

theorem blankless {mark : List Char} (solid : isSolid mark) : ∀ c ∈ mark, isBlank c = false := by
  simpa [isSolid] using (Bool.and_eq_true_iff.mp solid).2

/-- A mark without a blank stands at the front of both or of none. -/
theorem SameWord.afterStart? (same : SameWord text text') {mark : List Char}
    (solid : ∀ c ∈ mark, isBlank c = false) :
    (afterStart? mark text = none ∧ afterStart? mark text' = none) ∨
      ∃ rest rest', afterStart? mark text = some rest ∧ afterStart? mark text' = some rest' ∧
        SameWord rest rest' := by
  induction mark generalizing text text' with
  | nil => exact .inr ⟨text, text', by cases text <;> rfl, by cases text' <;> rfl, same⟩
  | cons m mark ih =>
    have solidHead := solid m List.mem_cons_self
    cases same with
    | nil => exact .inl ⟨rfl, rfl⟩
    | ends blank =>
      have other : (m == _) = false := beq_false_of_ne (ne_of_isBlank blank solidHead).symm
      exact .inl ⟨by simp [Text.afterStart?, other], rfl⟩
    | blank blank =>
      have other : (m == _) = false := beq_false_of_ne (ne_of_isBlank blank solidHead).symm
      have space : (m == ' ') = false := beq_false_of_ne (ne_of_isBlank rfl solidHead).symm
      exact .inl ⟨by simp [Text.afterStart?, other], by simp [Text.afterStart?, space]⟩
    | @cons c text text' same =>
      cases met : m == c with
      | false => exact .inl ⟨by simp [Text.afterStart?, met], by simp [Text.afterStart?, met]⟩
      | true =>
        simpa [Text.afterStart?, met] using ih same fun c listed => solid c (.tail m listed)

theorem SameWord.afterStart?_none (same : SameWord text text') {mark : List Char}
    (solid : ∀ c ∈ mark, isBlank c = false) (missed : Text.afterStart? mark text = none) :
    Text.afterStart? mark text' = none := by
  rcases same.afterStart? solid with ⟨_, missed'⟩ | ⟨rest, _, found, _⟩
  · exact missed'
  · rw [missed] at found
    cases found

namespace Reader

variable {α β σ : Type} {r : Reader α} {next' : α → Reader β} {a : α} {left : List Char}

/-- What a reader gives depends on the characters that it takes, and on those behind them up to a
blank. -/
def Local (r : Reader α) : Prop :=
  ∀ ⦃text a left⦄, r text = .ok (a, left) → ∃ written, text = written ++ left ∧
    ∀ left', SameWord left left' → r (written ++ left') = .ok (a, left')

/-- From a text with a character a reader takes one. -/
def Takes (r : Reader α) : Prop :=
  ∀ ⦃c rest a left⦄, r (c :: rest) = .ok (a, left) → left.length ≤ rest.length

theorem Local.length_le (isLocal : Local r) (read : r text = .ok (a, left)) :
    left.length ≤ text.length := by
  obtain ⟨written, rfl, _⟩ := isLocal read
  simp

theorem bind_eq_ok {b : β} : (r >>= next') text = .ok (b, left) ↔
    ∃ a between, r text = .ok (a, between) ∧ next' a between = .ok (b, left) := by
  show (r text >>= fun read => next' read.1 read.2) = _ ↔ _
  cases r text with
  | error e => simp [bind, Except.bind]
  | ok read =>
    obtain ⟨a, between⟩ := read
    simp [bind, Except.bind, and_assoc]

/-- A step whose outcome is known is taken. -/
theorem bind_of_ok {between : List Char} (read : r text = .ok (a, between)) :
    (r >>= next') text = next' a between := by
  show (r text >>= fun read => next' read.1 read.2) = _
  rw [read]
  rfl

theorem local_pure : Local (pure a : Reader α) := by
  rintro text _ _ ⟨⟩
  exact ⟨[], rfl, fun _ _ => rfl⟩

theorem local_failBehind {taken : List Char} {reason : LexicalFault} :
    Local (failBehind taken reason : Reader α) := by
  intro text a left read
  cases read

theorem local_fail {reason : LexicalFault} : Local (fail reason : Reader α) := local_failBehind

/-- A step may rely on what the step before it gives. -/
theorem Local.bind_of (first : Local r)
    (later : ∀ ⦃text a left⦄, r text = .ok (a, left) → Local (next' a)) : Local (r >>= next') := by
  intro text b left read
  obtain ⟨a, between, firstRead, laterRead⟩ := bind_eq_ok.mp read
  obtain ⟨written, rfl, same⟩ := first firstRead
  obtain ⟨more, rfl, sameLater⟩ := later firstRead laterRead
  refine ⟨written ++ more, by simp, fun left' word => ?_⟩
  rw [List.append_assoc, bind_of_ok (same _ (word.append more))]
  exact sameLater left' word

theorem Local.bind (first : Local r) (later : ∀ a, Local (next' a)) : Local (r >>= next') :=
  first.bind_of fun _ a _ _ => later a

theorem Local.ite {condition : Prop} [Decidable condition] {r' : Reader α} (yes : Local r)
    (no : Local r') : Local (if condition then r else r') := by
  split <;> assumption

theorem Local.behind {opening : List Char} {reason : LexicalFault} (isLocal : Local r) :
    Local (behind opening reason r) := by
  intro text a left read
  have same : ∀ {text a left}, r text = .ok (a, left) → Reader.behind opening reason r text = .ok (a, left) := by
    intro text a left read
    rw [Reader.behind, read]
  have run : r text = .ok (a, left) := by
    rw [Reader.behind] at read
    split at read
    · next given => rw [given, read]
    · cases read
  obtain ⟨written, rfl, word⟩ := isLocal run
  exact ⟨written, rfl, fun left' sameWord => same (word left' sameWord)⟩

theorem local_next? : Local next? := by
  rintro text _ _ ⟨⟩
  cases text with
  | nil => exact ⟨[], rfl, fun _ same => by cases same; rfl⟩
  | cons c text => exact ⟨[c], rfl, fun _ _ => rfl⟩

theorem local_next {reason : LexicalFault} : Local (next reason) := by
  refine local_next?.bind fun c => ?_
  cases c with
  | none => exact local_fail
  | some c => exact local_pure

theorem local_sees {test : Char → Bool} (solid : ∀ b, isBlank b = true → test b = false) :
    Local (sees test) := by
  rintro text _ _ ⟨⟩
  refine ⟨[], rfl, fun left' same => ?_⟩
  show Except.ok (_, _) = _
  rw [List.nil_append, same.any_head? solid]

theorem local_take? {mark : List Char} (solid : ∀ c ∈ mark, isBlank c = false) :
    Local (take? mark) := by
  intro text a left read
  rw [take?] at read
  split at read
  · next rest found =>
    cases read
    refine ⟨mark, of_afterStart? found, fun left' _ => ?_⟩
    rw [take?, afterStart?_append]
  · next missed =>
    cases read
    refine ⟨[], rfl, fun left' same => ?_⟩
    rw [List.nil_append, take?, same.afterStart?_none solid missed]

theorem local_takeBefore? {mark : List Char} {test : Char → Bool}
    (solid : ∀ c ∈ mark, isBlank c = false) (solidTest : ∀ b, isBlank b = true → test b = false) :
    Local (takeBefore? mark test) := by
  intro text a left read
  rw [takeBefore?] at read
  split at read
  · next rest found =>
    split at read
    · next follows =>
      cases read
      refine ⟨mark, of_afterStart? found, fun left' same => ?_⟩
      rw [takeBefore?, afterStart?_append]
      simp [same.any_head? solidTest, follows]
    · next other =>
      cases read
      obtain rfl := of_afterStart? found
      refine ⟨[], rfl, fun left' same => ?_⟩
      rcases same.afterStart? solid with ⟨missed, _⟩ | ⟨_, rest', found', given, sameRest⟩
      · rw [missed] at found
        cases found
      · obtain rfl := Option.some.inj (found.symm.trans found')
        rw [takeBefore?, List.nil_append, given]
        simp [sameRest.any_head? solidTest, other]
  · next missed =>
    cases read
    refine ⟨[], rfl, fun left' same => ?_⟩
    rw [List.nil_append, takeBefore?, same.afterStart?_none solid missed]

/-- A blank that does not stop the test belongs to what is taken; behind it the text may have a
space in place of another blank, and so the test must not hold of that. -/
theorem local_takeWhile {test : Char → Bool} (space : test ' ' = false) :
    Local (takeWhile test) := by
  have stable : ∀ text left' : List Char, SameWord (text.dropWhile test) left' →
      (text.takeWhile test ++ left').takeWhile test = text.takeWhile test ∧
        (text.takeWhile test ++ left').dropWhile test = left' := by
    intro text left' same
    induction text with
    | nil =>
      cases same
      exact ⟨rfl, rfl⟩
    | cons c rest ih =>
      cases met : test c with
      | true => simpa [met] using ih (by simpa [met] using same)
      | false =>
        simp only [List.dropWhile_cons, List.takeWhile_cons, met] at same ⊢
        cases same <;> simp [space, met]
  rintro text _ _ ⟨⟩
  refine ⟨text.takeWhile test, List.takeWhile_append_dropWhile.symm, fun left' same => ?_⟩
  obtain ⟨taken, left⟩ := stable text left' same
  rw [takeWhile, taken, left]

theorem local_takeAtMost {test : Char → Bool} (solid : ∀ b, isBlank b = true → test b = false)
    (limit : Nat) : Local (takeAtMost test limit) := by
  induction limit with
  | zero => exact local_pure
  | succ limit ih =>
    refine (local_sees solid).bind fun more => .ite (local_next?.bind fun c => ?_) local_pure
    cases c with
    | none => exact local_pure
    | some c => exact ih.bind fun _ => local_pure

theorem digitCount_le {separators : Bool} {test : Char → Bool} (text : List Char) :
    digitCount separators test text ≤ text.length := by
  induction text with
  | nil => exact Nat.le_refl 0
  | cons c rest ih =>
    rw [digitCount]
    split
    · exact Nat.succ_le_succ ih
    · exact Nat.zero_le _

/-- Behind the digits a space may stand for another blank. -/
theorem digitCount_of_sameWord {separators : Bool} {test : Char → Bool} (space : test ' ' = false)
    {text left' : List Char}
    (same : SameWord (text.drop (digitCount separators test text)) left') :
    digitCount separators test (text.take (digitCount separators test text) ++ left') =
      digitCount separators test text := by
  have solid : ∀ b, isBlank b = true → isHexDigit b = false := fun _ => isHexDigit_of_isBlank
  induction text with
  | nil =>
    cases same
    rfl
  | cons c rest ih =>
    rw [digitCount] at same ⊢
    split at same
    · next digit =>
      have tail := same.append (rest.take (digitCount separators test rest))
      rw [List.drop_succ_cons, List.take_append_drop] at tail
      rw [if_pos digit, List.take_succ_cons, List.cons_append, digitCount, tail.any_head? solid,
        if_pos digit, ih same]
    · next other =>
      rw [if_neg other, List.take_zero, List.nil_append]
      cases same with
      | ends _ => rfl
      | blank _ => simp [digitCount, space]
      | cons same => rw [digitCount, same.any_head? solid, if_neg other]

theorem local_takeDigits {separators : Bool} {test : Char → Bool} (space : test ' ' = false) :
    Local (takeDigits separators test) := by
  rintro text _ _ ⟨⟩
  refine ⟨text.take (digitCount separators test text), (List.take_append_drop _ _).symm,
    fun left' same => ?_⟩
  have length : (text.take (digitCount separators test text)).length =
      digitCount separators test text := List.length_take_of_le (digitCount_le text)
  rw [takeDigits, digitCount_of_sameWord space same]
  simp only [List.take_left' length, List.drop_left' length]

/-! Tables of openings. -/

/-- A row of a table has a mark without a blank, and a reader that looks no further than to the next
blank. -/
def Sound (row : List Char × Reader α) : Prop := isSolid row.1 ∧ Local row.2

theorem local_choose {rows : List (List Char × Reader α)} (sound : ∀ row ∈ rows, Sound row)
    (other : Local r) : Local (choose rows r) := by
  induction rows with
  | nil => exact other
  | cons row rows ih =>
    obtain ⟨⟨solid, isLocal⟩, later⟩ := List.forall_mem_cons.mp sound
    exact (local_take? (blankless solid)).bind fun taken => .ite isLocal (ih later)

/-- Nothing in a table is chosen at the end of a text. -/
theorem choose_nil {rows : List (List Char × Reader α)} (sound : ∀ row ∈ rows, Sound row) :
    choose rows r [] = r [] := by
  induction rows with
  | nil => rfl
  | cons row rows ih =>
    obtain ⟨⟨solid, _⟩, later⟩ := List.forall_mem_cons.mp sound
    obtain ⟨mark, read⟩ := row
    cases mark with
    | nil => cases solid
    | cons c mark => exact ih later

/-- What a table reads, one of its readers reads behind its mark, or the other one from the start. -/
theorem of_choose {rows : List (List Char × Reader α)} (read : choose rows r text = .ok (a, left)) :
    (∃ row ∈ rows, ∃ after, text = row.1 ++ after ∧ row.2 after = .ok (a, left)) ∨
      r text = .ok (a, left) := by
  induction rows with
  | nil => exact .inr read
  | cons row rows ih =>
    rw [choose, bind_eq_ok] at read
    obtain ⟨taken, between, start, read⟩ := read
    rw [take?] at start
    split at start
    · next after found =>
      cases start
      exact .inl ⟨row, List.mem_cons_self, between, of_afterStart? found, read⟩
    · cases start
      rcases ih read with ⟨row, listed, opened⟩ | other
      · exact .inl ⟨row, .tail _ listed, opened⟩
      · exact .inr other

theorem takes_choose {rows : List (List Char × Reader α)} (sound : ∀ row ∈ rows, Sound row)
    (other : Takes r) : Takes (choose rows r) := by
  intro c rest a left read
  rcases of_choose read with ⟨⟨mark, reader⟩, listed, after, whole, read⟩ | read
  · obtain ⟨solid, isLocal⟩ := sound _ listed
    have shorter := isLocal.length_le read
    cases mark with
    | nil => cases solid
    | cons d mark =>
      rw [List.cons_append, List.cons.injEq] at whole
      rw [whole.2, List.length_append]
      omega
  · exact other read

theorem takes_next? {f : Option Char → Reader β} (later : ∀ c, Local (f c)) :
    Takes (next? >>= f) := by
  intro c rest b left read
  exact (later (some c)).length_le read

theorem takes_next {reason : LexicalFault} {f : Char → Reader β} (later : ∀ c, Local (f c)) :
    Takes (next reason >>= f) := by
  intro c rest b left read
  exact (later c).length_le read

theorem Takes.bind (takes : Takes r) (later : ∀ a, Local (next' a)) : Takes (r >>= next') := by
  intro c rest b left read
  obtain ⟨a, between, first, read⟩ := bind_eq_ok.mp read
  exact ((later a).length_le read).trans (takes first)

/-! Contents. -/

/-- A part of a content: it takes a character, so it fails where the text ends. -/
structure Steady (part : Reader (Option β)) : Prop where
  isLocal : Local part
  takes : Takes part
  ends : ∃ fault, part [] = .error fault

theorem Steady.length_lt {part : Reader (Option β)} (steady : Steady part) {b : Option β}
    (read : part text = .ok (b, left)) : left.length < text.length := by
  cases text with
  | nil =>
    obtain ⟨fault, failed⟩ := steady.ends
    rw [failed] at read
    cases read
  | cons c rest => exact Nat.lt_succ_of_le (steady.takes read)

variable {part : σ → Reader (Option (List Char × σ))} {meaning : List Char}

/-- The budget plays no part as long as there is one for each character. -/
theorem local_partsWithin (steady : ∀ state, Steady (part state)) {budget : Nat} {state : σ}
    (enough : text.length < budget) (read : partsWithin part budget state text = .ok (meaning, left)) :
    ∃ written, text = written ++ left ∧ ∀ left', SameWord left left' → ∀ budget',
      (written ++ left').length < budget' →
        partsWithin part budget' state (written ++ left') = .ok (meaning, left') := by
  induction budget generalizing state text meaning with
  | zero => cases Nat.not_lt_zero _ enough
  | succ budget ih =>
    obtain ⟨found, between, first, read⟩ := bind_eq_ok.mp read
    obtain ⟨written, rfl, same⟩ := (steady state).isLocal first
    cases found with
    | none =>
      cases read
      refine ⟨written, rfl, fun left' word budget' enough' => ?_⟩
      obtain ⟨budget', rfl⟩ := Nat.exists_eq_succ_of_ne_zero (Nat.ne_zero_of_lt enough')
      rw [partsWithin, bind_of_ok (same left' word)]
      rfl
    | some found =>
      obtain ⟨others, left, later, read⟩ := bind_eq_ok.mp read
      cases read
      have shorter := (steady state).length_lt first
      obtain ⟨more, rfl, sameLater⟩ := ih (Nat.lt_of_lt_of_le shorter (Nat.le_of_lt_succ enough)) later
      refine ⟨written ++ more, (List.append_assoc _ _ _).symm, fun left' word budget' enough' => ?_⟩
      obtain ⟨budget', rfl⟩ := Nat.exists_eq_succ_of_ne_zero (Nat.ne_zero_of_lt enough')
      rw [List.append_assoc] at enough' ⊢
      have first' := same _ (word.append more)
      have shorter' := (steady state).length_lt first'
      rw [partsWithin, bind_of_ok first']
      exact bind_of_ok (sameLater left' word budget'
        (Nat.lt_of_lt_of_le shorter' (Nat.le_of_lt_succ enough')))

theorem local_parts (steady : ∀ state, Steady (part state)) (start : σ) :
    Local (parts part start) := by
  intro text meaning left read
  obtain ⟨written, rfl, same⟩ := local_partsWithin steady (Nat.lt_succ_self _) read
  exact ⟨written, rfl, fun left' word => same left' word _ (Nat.lt_succ_self _)⟩

theorem local_content {part : Reader (Option (List Char))} (steady : Steady part) :
    Local (content part) := by
  refine local_parts (fun _ => ⟨steady.isLocal.bind fun _ => local_pure,
    steady.takes.bind fun _ => local_pure, ?_⟩) ()
  obtain ⟨fault, failed⟩ := steady.ends
  refine ⟨fault, ?_⟩
  show (part [] >>= _) = _
  rw [failed]
  rfl

/-- A part that a table of openings says how to read. -/
theorem steady_choose {rows : List (List Char × Reader (Option β))} {other : Reader (Option β)}
    (sound : ∀ row ∈ rows, Sound row) (steady : Steady other) : Steady (choose rows other) where
  isLocal := local_choose sound steady.isLocal
  takes := takes_choose sound steady.takes
  ends := by
    rw [choose_nil sound]
    exact steady.ends

theorem steady_next {reason : LexicalFault} {f : Char → Reader (Option β)}
    (later : ∀ c, Local (f c)) : Steady (next reason >>= f) where
  isLocal := local_next.bind later
  takes := takes_next later
  ends := ⟨⟨reason, []⟩, rfl⟩

end Reader
end TableAccess.Sql
