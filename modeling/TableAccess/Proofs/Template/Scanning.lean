import TableAccess.Text.Segment
import Mathlib.Algebra.Order.Ring.Nat
import Mathlib.Data.List.Basic

/-! Searching a text part by part. A pattern that opens with one character is not found in a part
without that character, and a part that a pattern takes is taken whatever follows it; so what is
written for a text, and which place in it is the last, can be told from its parts. -/
namespace TableAccess.Text

variable {α : Type} {pattern : Pattern α} {write : α → List Char} {c : Char} {v : α}
  {part text rest after : List Char}

theorem afterStart?_append (start rest : List Char) :
    afterStart? start (start ++ rest) = some rest := by
  induction start with
  | nil => rfl
  | cons c start ih => rw [List.cons_append, afterStart?, beq_self_eq_true, if_pos rfl, ih]

theorem of_afterStart? {start : List Char} (found : afterStart? start text = some rest) :
    text = start ++ rest := by
  induction start generalizing text with
  | nil => exact Option.some.inj found
  | cons c start ih =>
    cases text with
    | nil => cases found
    | cons d text =>
      rw [afterStart?] at found
      split at found
      · next same => rw [List.cons_append, ← ih found, beq_iff_eq.mp same]
      · cases found

/-- What follows a text makes no difference to how it starts, if no end of the start begins there. -/
theorem afterStart?_append_of_apart {start : List Char}
    (apart : ∀ behind, behind <:+ start → behind ≠ [] → afterStart? behind rest = none) :
    afterStart? start (part ++ rest) = (afterStart? start part).map (· ++ rest) := by
  induction part generalizing start with
  | nil =>
    cases start with
    | nil => rfl
    | cons c start => exact apart _ (List.suffix_refl _) (List.cons_ne_nil c start)
  | cons d part ih =>
    cases start with
    | nil => rfl
    | cons c start =>
      have later := ih fun behind ends => apart behind (ends.trans (List.suffix_cons c start))
      rw [List.cons_append, afterStart?, afterStart?, later]
      split <;> rfl

/-- A run of some characters ends where another character follows, or nothing does. -/
theorem takeWhile_run {β : Type} {part rest : List β} {test : β → Bool}
    (inside : ∀ c ∈ part, test c = true) (ends : ∀ c ∈ rest.head?, test c = false) :
    (part ++ rest).takeWhile test = part := by
  rw [List.takeWhile_append_of_pos inside]
  cases rest with
  | nil => exact List.append_nil part
  | cons c rest => rw [List.takeWhile_cons_of_neg (by simp [ends c rfl]), List.append_nil]

theorem dropWhile_run {β : Type} {part rest : List β} {test : β → Bool}
    (inside : ∀ c ∈ part, test c = true) (ends : ∀ c ∈ rest.head?, test c = false) :
    (part ++ rest).dropWhile test = rest := by
  rw [List.dropWhile_append_of_pos inside]
  cases rest with
  | nil => rfl
  | cons c rest => exact List.dropWhile_cons_of_neg (by simp [ends c rfl])

/-- What follows a run makes no difference to it. -/
theorem takeWhile_append_of_stop {β : Type} {part rest : List β} {test : β → Bool}
    (ends : ∀ c ∈ rest.head?, test c = false) :
    (part ++ rest).takeWhile test = part.takeWhile test := by
  induction part with
  | nil => exact takeWhile_run (List.forall_mem_nil _) ends
  | cons c part ih => simp only [List.cons_append, List.takeWhile_cons, ih]

theorem dropWhile_append_of_stop {β : Type} {part rest : List β} {test : β → Bool}
    (ends : ∀ c ∈ rest.head?, test c = false) :
    (part ++ rest).dropWhile test = part.dropWhile test ++ rest := by
  induction part with
  | nil => exact dropWhile_run (List.forall_mem_nil _) ends
  | cons c part ih =>
    rw [List.cons_append, List.dropWhile_cons, List.dropWhile_cons, ih]
    split <;> rfl

theorem of_splitAt? {mark before : List Char} (found : splitAt? mark text = some (before, after)) :
    text = before ++ mark ++ after := by
  induction text generalizing before with
  | nil =>
    rw [splitAt?] at found
    split at found
    · next empty =>
      obtain ⟨rfl, rfl⟩ := Prod.mk.inj (Option.some.inj found)
      rw [List.isEmpty_iff.mp empty]
      rfl
    · cases found
  | cons c text ih =>
    rw [splitAt?] at found
    split at found
    · next here =>
      obtain ⟨rfl, rfl⟩ := Prod.mk.inj (Option.some.inj found)
      exact of_afterStart? here
    · obtain ⟨⟨before, after⟩, split, same⟩ := Option.map_eq_some_iff.mp found
      obtain ⟨rfl, rfl⟩ := Prod.mk.inj same
      rw [ih split]
      rfl

/-- A part of a text has a first place in it. -/
theorem exists_first (nonempty : part ≠ []) (held : part <:+: text) :
    ∃ before after, text = before ++ part ++ after ∧ ¬ part <:+: before := by
  obtain ⟨before, after, rfl⟩ := held
  induction size : before.length using Nat.strong_induction_on generalizing before after with
  | _ n ih =>
    by_cases earlier : part <:+: before
    · obtain ⟨front, between, rfl⟩ := earlier
      have shorter : front.length < n := by
        have := List.length_pos_iff.mpr nonempty
        simp only [List.length_append] at size
        omega
      obtain ⟨first, behind, split, absent⟩ := ih front.length shorter front (between ++ part ++ after) rfl
      exact ⟨first, behind, by rw [← split]; simp, absent⟩
    · exact ⟨before, after, rfl, earlier⟩

theorem splitAt?_of_absent (absent : ¬ part <:+: text) : splitAt? part text = none := by
  rw [Option.eq_none_iff_forall_ne_some]
  rintro ⟨before, after⟩ found
  exact absent ⟨before, after, (of_splitAt? found).symm⟩

/-- A text is split at a mark where the mark stands first. The last character of the mark is in it just
once, so the mark does not begin earlier and end inside itself. -/
theorem splitAt?_mark {mark before : List Char} (once : c ∉ mark) (absent : ¬ mark ++ [c] <:+: before)
    (rest : List Char) : splitAt? (mark ++ [c]) (before ++ (mark ++ c :: rest)) = some (before, rest) := by
  have whole : mark ++ c :: rest = mark ++ [c] ++ rest := by simp
  induction before with
  | nil =>
    rw [List.nil_append, whole]
    cases spelled : mark ++ [c] with
    | nil => simp at spelled
    | cons d behind =>
      have start := afterStart?_append (d :: behind) rest
      rw [List.cons_append] at start ⊢
      rw [splitAt?, start]
  | cons d before ih =>
    have later := ih fun part => absent (part.trans (List.suffix_cons d before).isInfix)
    have here : afterStart? (mark ++ [c]) (d :: before ++ (mark ++ c :: rest)) = none := by
      rw [Option.eq_none_iff_forall_ne_some]
      intro behind start
      have split := of_afterStart? start
      rcases List.append_eq_append_iff.mp split with ⟨beyond, ends, begins⟩ | ⟨inside, front, _⟩
      · -- The mark would end inside the one that follows.
        rcases List.eq_nil_or_concat beyond with rfl | ⟨beyond, z, rfl⟩
        · rw [List.append_nil] at ends
          exact absent (ends ▸ List.infix_refl _)
        · rw [List.concat_eq_append, ← List.append_assoc] at ends
          obtain ⟨front, same⟩ := List.append_inj' ends rfl
          obtain rfl : c = z := List.head_eq_of_cons_eq same
          rw [List.concat_eq_append, List.append_assoc] at begins
          have shorter : beyond.length < mark.length := by
            simp only [front, List.length_append, List.length_cons]
            omega
          rcases List.append_eq_append_iff.mp begins with ⟨_, longer, _⟩ | ⟨between, inside, next_⟩
          · rw [longer, List.length_append] at shorter
            omega
          · cases between with
            | nil => simp [inside] at shorter
            | cons z between =>
              obtain rfl : c = z := (List.cons.inj next_).1
              exact once (inside ▸ List.mem_append_right beyond List.mem_cons_self)
      · exact absent (front ▸ (List.prefix_append _ inside).isInfix)
    rw [List.cons_append] at here ⊢
    rw [splitAt?, here]
    simp only [later, Option.map_some]

/-- A text is split at a character where the character stands first. -/
theorem splitAt?_char {before : List Char} (absent : c ∉ before) (rest : List Char) :
    splitAt? [c] (before ++ c :: rest) = some (before, rest) :=
  splitAt?_mark List.not_mem_nil (fun part => absent (part.subset List.mem_cons_self)) rest

/-- Whether a pattern is found only where one character stands. -/
def Pattern.OpensWith (pattern : Pattern α) (c : Char) : Prop :=
  ∀ d rest, d ≠ c → pattern (d :: rest) = none

theorem segmentsFrom_eq (skip : Nat) (text : List Char) :
    segmentsFrom pattern skip text = segments pattern (text.drop skip) := by
  induction text generalizing skip with
  | nil => rw [List.drop_nil, segments, segmentsFrom, segmentsFrom]
  | cons c rest ih =>
    cases skip with
    | zero => rfl
    | succ skip => exact ih skip

theorem segments_cons_of_none (absent : pattern (c :: rest) = none) :
    segments pattern (c :: rest) = .plain c :: segments pattern rest := by
  rw [segments, segmentsFrom, absent]
  rfl

theorem segments_of_some (found : pattern (c :: part ++ after) = some (v, after)) :
    segments pattern (c :: part ++ after) = .found v :: segments pattern after := by
  rw [List.cons_append] at found ⊢
  have behind : (part ++ after).drop ((part ++ after).length - after.length) = after := by
    rw [List.length_append, Nat.add_sub_cancel]
    exact List.drop_left
  rw [segments, segmentsFrom, found]
  simp only [segmentsFrom_eq, behind]

theorem replace_cons_of_none (absent : pattern (c :: rest) = none) :
    replace pattern write (c :: rest) = c :: replace pattern write rest := by
  rw [replace, segments_cons_of_none absent]
  rfl

theorem replace_of_some (found : pattern (c :: part ++ after) = some (v, after)) :
    replace pattern write (c :: part ++ after) = write v ++ replace pattern write after := by
  rw [replace, segments_of_some found]
  rfl

/-- A text is read from place to place, and character by character where a pattern is not found. -/
theorem Pattern.places_induction (pattern : Pattern α) {motive : List Char → Prop}
    (shorter : ∀ text v after, pattern text = some (v, after) → after.length < text.length)
    (nil : motive [])
    (char : ∀ c rest, pattern (c :: rest) = none → motive rest → motive (c :: rest))
    (place : ∀ text v after, pattern text = some (v, after) → motive after → motive text)
    (text : List Char) : motive text := by
  induction size : text.length using Nat.strong_induction_on generalizing text with
  | _ bound ih =>
    subst size
    cases text with
    | nil => exact nil
    | cons c rest =>
      cases found : pattern (c :: rest) with
      | none => exact char c rest found (ih _ (Nat.lt_succ_self _) rest rfl)
      | some taken =>
        obtain ⟨v, after⟩ := taken
        exact place _ v after found (ih _ (shorter _ v after found) after rfl)

/-- Whether a pattern is not found within a part, whatever follows the part. -/
def Pattern.Misses (pattern : Pattern α) : List Char → Prop
  | [] => True
  | c :: part => (∀ rest, pattern (c :: part ++ rest) = none) ∧ pattern.Misses part

namespace Pattern

theorem Misses.of_absent (opens : pattern.OpensWith c) (absent : c ∉ part) :
    pattern.Misses part := by
  induction part with
  | nil => trivial
  | cons d part ih =>
    obtain ⟨other, absent⟩ := not_or.mp (mt List.mem_cons.mpr absent)
    exact ⟨fun rest => opens d _ (Ne.symm other), ih absent⟩

theorem Misses.append {first second : List Char} (missed : pattern.Misses first)
    (missed' : pattern.Misses second) : pattern.Misses (first ++ second) := by
  induction first with
  | nil => exact missed'
  | cons c first ih =>
    refine ⟨fun rest => ?_, ih missed.2⟩
    have whole := missed.1 (second ++ rest)
    rwa [← List.append_assoc] at whole

theorem Misses.segments (missed : pattern.Misses part) (rest : List Char) :
    segments pattern (part ++ rest) = part.map Segment.plain ++ segments pattern rest := by
  induction part with
  | nil => rfl
  | cons c part ih =>
    have absent : pattern (c :: (part ++ rest)) = none := missed.1 rest
    rw [List.cons_append, segments_cons_of_none absent, ih missed.2]
    rfl

/-- Nothing is written for a part in which a pattern cannot be found. -/
theorem Misses.replace (missed : pattern.Misses part) (rest : List Char) :
    replace pattern write (part ++ rest) = part ++ replace pattern write rest := by
  rw [Text.replace, missed.segments, List.flatMap_append, List.flatMap_map]
  exact congrArg (· ++ Text.replace pattern write rest) (List.flatMap_singleton' part)

theorem Misses.replace_self (missed : pattern.Misses text) :
    Text.replace pattern write text = text := by
  have whole : Text.replace pattern write (text ++ []) = text ++ Text.replace pattern write [] :=
    missed.replace []
  rwa [List.append_nil, show Text.replace pattern write [] = [] from rfl, List.append_nil] at whole

theorem Misses.occurrences (missed : pattern.Misses part) (rest : List Char) :
    occurrences pattern (part ++ rest) = occurrences pattern rest := by
  rw [Text.occurrences, missed.segments, List.filterMap_append, List.filterMap_map]
  simp [Text.occurrences]

/-- The first place is not in a part in which the pattern cannot be found. -/
theorem Misses.firstPlace? (missed : pattern.Misses part) (found : pattern rest = some (v, after))
    (nonempty : rest ≠ []) : firstPlace? pattern (part ++ rest) = some (part, v, after) := by
  induction part with
  | nil =>
    cases rest with
    | nil => exact absurd rfl nonempty
    | cons d rest => rw [List.nil_append, Text.firstPlace?, found]
  | cons d part ih =>
    have absent : pattern (d :: (part ++ rest)) = none := missed.1 rest
    rw [List.cons_append, Text.firstPlace?, absent]
    simp only [ih missed.2, Option.map_some]

end Pattern

theorem replace_append (opens : pattern.OpensWith c) (absent : c ∉ part) (rest : List Char) :
    replace pattern write (part ++ rest) = part ++ replace pattern write rest :=
  (Pattern.Misses.of_absent opens absent).replace rest

theorem replace_of_absent (opens : pattern.OpensWith c) (absent : c ∉ text) :
    replace pattern write text = text :=
  (Pattern.Misses.of_absent opens absent).replace_self

theorem replace_of_nonempty (nonempty : part ≠ [])
    (found : pattern (part ++ after) = some (v, after)) :
    replace pattern write (part ++ after) = write v ++ replace pattern write after := by
  obtain ⟨c, part, rfl⟩ := List.exists_cons_of_ne_nil nonempty
  exact replace_of_some found

theorem occurrences_of_some (found : pattern (c :: part ++ after) = some (v, after)) :
    occurrences pattern (c :: part ++ after) = v :: occurrences pattern after := by
  rw [occurrences, segments_of_some found]
  rfl

/-- A text in which a pattern is found nowhere has only characters as segments. -/
theorem segments_of_missed (missed : ∀ behind, behind <:+ text → pattern behind = none) :
    segments pattern text = text.map Segment.plain := by
  induction text with
  | nil => rfl
  | cons c rest ih =>
    have later := ih fun behind part => missed behind (part.trans (List.suffix_cons c rest))
    rw [segments_cons_of_none (missed _ (List.suffix_refl _)), later, List.map_cons]

theorem replace_of_missed (missed : ∀ behind, behind <:+ text → pattern behind = none) :
    replace pattern write text = text := by
  rw [replace, segments_of_missed missed, List.flatMap_map]
  exact List.flatMap_singleton' text

private theorem exists_of_mem_segmentsFrom {skip : Nat}
    (listed : Segment.found v ∈ segmentsFrom pattern skip text) :
    ∃ behind after, behind <:+ text ∧ pattern behind = some (v, after) := by
  induction text generalizing skip with
  | nil => cases listed
  | cons c rest ih =>
    have later {skip : Nat} (listed : Segment.found v ∈ segmentsFrom pattern skip rest) :
        ∃ behind after, behind <:+ c :: rest ∧ pattern behind = some (v, after) := by
      obtain ⟨behind, after, part, found⟩ := ih listed
      exact ⟨behind, after, part.trans (List.suffix_cons c rest), found⟩
    cases skip with
    | succ skip => exact later listed
    | zero =>
      rw [segmentsFrom] at listed
      split at listed
      · rcases List.mem_cons.mp listed with same | listed
        · cases same
        · exact later listed
      · next value after found =>
        rcases List.mem_cons.mp listed with same | listed
        · obtain rfl := Segment.found.inj same
          exact ⟨c :: rest, after, List.suffix_refl _, found⟩
        · exact later listed

/-- Every occurrence stands somewhere in the text. -/
theorem exists_of_mem_occurrences (listed : v ∈ occurrences pattern text) :
    ∃ behind after, behind <:+ text ∧ pattern behind = some (v, after) := by
  obtain ⟨s, member, value⟩ := List.mem_filterMap.mp listed
  cases s with
  | plain c => cases value
  | found w =>
    obtain rfl := Option.some.inj value
    exact exists_of_mem_segmentsFrom member

private theorem sum_segmentsFrom_le {size : α → Nat}
    (taken : ∀ text v after, pattern text = some (v, after) → size v + after.length ≤ text.length)
    (skip : Nat) (text : List Char) : (((segmentsFrom pattern skip text).filterMap fun s =>
      match s with
      | .found value => some value
      | .plain _ => none).map size).sum ≤ text.length - skip := by
  induction text generalizing skip with
  | nil => simp [segmentsFrom]
  | cons c rest ih =>
    cases skip with
    | succ skip =>
      have := ih skip
      simp only [segmentsFrom, List.length_cons]
      omega
    | zero =>
      rw [segmentsFrom]
      split
      · have := ih 0
        simp only [List.filterMap_cons, List.length_cons]
        omega
      · next v after found =>
        have := ih (rest.length - after.length)
        have := taken _ _ _ found
        simp only [List.filterMap_cons, List.map_cons, List.sum_cons, List.length_cons] at *
        omega

/-- Occurrences stand one behind the other, so together they are not longer than the text. -/
theorem sum_occurrences_le {size : α → Nat}
    (taken : ∀ text v after, pattern text = some (v, after) → size v + after.length ≤ text.length)
    (text : List Char) : ((occurrences pattern text).map size).sum ≤ text.length :=
  sum_segmentsFrom_le taken 0 text

/-- What comes before a place and what is found there make up the text. -/
theorem of_firstPlace? {before : List Char}
    (first : firstPlace? pattern text = some (before, v, after)) :
    ∃ behind, text = before ++ behind ∧ pattern behind = some (v, after) := by
  induction text generalizing before with
  | nil => cases first
  | cons c rest ih =>
    rw [firstPlace?] at first
    split at first
    · next value rest' found =>
      obtain ⟨rfl, same⟩ := Prod.mk.inj (Option.some.inj first)
      obtain ⟨rfl, rfl⟩ := Prod.mk.inj same
      exact ⟨_, rfl, found⟩
    · obtain ⟨⟨before, place⟩, first, same⟩ := Option.map_eq_some_iff.mp first
      obtain ⟨rfl, rfl⟩ := Prod.mk.inj same
      obtain ⟨behind, rfl, found⟩ := ih first
      exact ⟨behind, rfl, found⟩

private theorem of_lastPlaceFrom? {skip : Nat} {before : List Char}
    (last : lastPlaceFrom? pattern skip text = some (before, v, after)) :
    ∃ behind, text = before ++ behind ∧ pattern behind = some (v, after) := by
  induction text generalizing skip before with
  | nil => cases last
  | cons c rest ih =>
    have later {skip : Nat} {before : List Char}
        (last : lastPlaceFrom? pattern skip rest = some (before, v, after)) :
        ∃ behind, c :: rest = c :: before ++ behind ∧ pattern behind = some (v, after) := by
      obtain ⟨behind, rfl, found⟩ := ih last
      exact ⟨behind, rfl, found⟩
    cases skip with
    | succ skip =>
      obtain ⟨⟨before, place⟩, last, same⟩ := Option.map_eq_some_iff.mp last
      obtain ⟨rfl, rfl⟩ := Prod.mk.inj same
      exact later last
    | zero =>
      rw [lastPlaceFrom?] at last
      split at last
      · obtain ⟨⟨before, place⟩, last, same⟩ := Option.map_eq_some_iff.mp last
        obtain ⟨rfl, rfl⟩ := Prod.mk.inj same
        exact later last
      · next value rest' found =>
        split at last
        · next before place last' =>
          obtain ⟨rfl, rfl⟩ := Prod.mk.inj (Option.some.inj last)
          exact later last'
        · obtain ⟨rfl, same⟩ := Prod.mk.inj (Option.some.inj last)
          obtain ⟨rfl, rfl⟩ := Prod.mk.inj same
          exact ⟨_, rfl, found⟩

/-- What comes before the last place and what is found there make up the text. -/
theorem of_lastPlace? {before : List Char}
    (last : lastPlace? pattern text = some (before, v, after)) :
    ∃ behind, text = before ++ behind ∧ pattern behind = some (v, after) :=
  of_lastPlaceFrom? last

/-- Whether the search goes on behind a part that holds nothing: the last place of a text that
starts with it is the last place of what follows. -/
def Pattern.Passes (pattern : Pattern α) (part : List Char) : Prop :=
  ∀ rest, lastPlace? pattern (part ++ rest) =
    (lastPlace? pattern rest).map fun (before, found) => (part ++ before, found)

/-- Whether a place that follows a part is still the last one of the whole text. -/
def Pattern.Resumes (pattern : Pattern α) (part : List Char) : Prop :=
  ∀ rest before found, lastPlace? pattern rest = some (before, found) →
    lastPlace? pattern (part ++ rest) = some (part ++ before, found)

theorem lastPlaceFrom?_eq (skip : Nat) (text : List Char) : lastPlaceFrom? pattern skip text =
    (lastPlace? pattern (text.drop skip)).map fun (before, found) =>
      (text.take skip ++ before, found) := by
  induction text generalizing skip with
  | nil => rw [List.drop_nil, lastPlace?, lastPlaceFrom?, lastPlaceFrom?, Option.map_none]
  | cons c rest ih =>
    cases skip with
    | zero => simp [lastPlace?]
    | succ skip =>
      rw [lastPlaceFrom?, ih skip, Option.map_map]
      rfl

theorem lastPlace?_cons_of_none (absent : pattern (c :: rest) = none) :
    lastPlace? pattern (c :: rest) =
      (lastPlace? pattern rest).map fun (before, found) => (c :: before, found) := by
  rw [lastPlace?, lastPlaceFrom?, absent]
  rfl

theorem lastPlace?_of_missed (missed : ∀ behind, behind <:+ text → pattern behind = none) :
    lastPlace? pattern text = none := by
  induction text with
  | nil => rfl
  | cons c rest ih =>
    have later := ih fun behind part => missed behind (part.trans (List.suffix_cons c rest))
    rw [lastPlace?_cons_of_none (missed _ (List.suffix_refl _)), later, Option.map_none]

/-- A pattern that has no last place is found nowhere. -/
theorem missed_of_lastPlace? {behind : List Char} (absent : lastPlace? pattern text = none)
    (part : behind <:+ text) (nonempty : behind ≠ []) : pattern behind = none := by
  induction text with
  | nil => exact absurd (List.suffix_nil.mp part) nonempty
  | cons c rest ih =>
    rw [lastPlace?, lastPlaceFrom?] at absent
    split at absent
    · next here =>
      rcases List.suffix_cons_iff.mp part with rfl | later
      · exact here
      · exact ih (Option.map_eq_none_iff.mp absent) later
    · split at absent <;> cases absent

/-- A place is the last one unless another one follows. -/
theorem lastPlace?_of_some (found : pattern (c :: part ++ after) = some (v, after)) :
    lastPlace? pattern (c :: part ++ after) = some
      (((lastPlace? pattern after).map fun (before, found) => (c :: part ++ before, found)).getD
        ([], v, after)) := by
  rw [List.cons_append] at found ⊢
  have skipped : (part ++ after).length - after.length = part.length := by
    rw [List.length_append, Nat.add_sub_cancel]
  rw [lastPlace?, lastPlaceFrom?, found]
  simp only [skipped, lastPlaceFrom?_eq, List.drop_left, List.take_left]
  cases lastPlace? pattern after with
  | none => rfl
  | some place => rfl

namespace Pattern

theorem Passes.of_absent (opens : pattern.OpensWith c) (absent : c ∉ part) :
    pattern.Passes part := by
  intro rest
  induction part with
  | nil => simp
  | cons d part ih =>
    obtain ⟨other, absent⟩ := not_or.mp (mt List.mem_cons.mpr absent)
    rw [List.cons_append, lastPlace?_cons_of_none (opens d _ (Ne.symm other)), ih absent,
      Option.map_map]
    rfl

theorem Passes.cons (absent : ∀ rest, pattern (c :: part ++ rest) = none)
    (passed : pattern.Passes part) : pattern.Passes (c :: part) := by
  intro rest
  have absent : pattern (c :: (part ++ rest)) = none := absent rest
  rw [List.cons_append, lastPlace?_cons_of_none absent, passed, Option.map_map]
  rfl

theorem Passes.lastPlace?_eq_none (passed : pattern.Passes part)
    (absent : lastPlace? pattern rest = none) : lastPlace? pattern (part ++ rest) = none := by
  rw [passed, absent, Option.map_none]

theorem Passes.resumes (passed : pattern.Passes part) : pattern.Resumes part := by
  intro rest before found last
  rw [passed, last, Option.map_some]

theorem Resumes.append {first second : List Char} (resumed : pattern.Resumes first)
    (resumed' : pattern.Resumes second) : pattern.Resumes (first ++ second) := by
  intro rest before found last
  rw [List.append_assoc, List.append_assoc]
  exact resumed _ _ _ (resumed' _ _ _ last)

theorem resumes_of_some (found : ∀ after, pattern (c :: part ++ after) = some (v, after)) :
    pattern.Resumes (c :: part) := by
  intro rest before place last
  rw [lastPlace?_of_some (found rest), last]
  rfl

end Pattern

theorem firstPlace?_append (opens : pattern.OpensWith c) (absent : c ∉ part)
    (found : pattern rest = some (v, after)) (nonempty : rest ≠ []) :
    firstPlace? pattern (part ++ rest) = some (part, v, after) :=
  (Pattern.Misses.of_absent opens absent).firstPlace? found nonempty

end TableAccess.Text
