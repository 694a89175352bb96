import TableAccess.Template

/-! Blanks, and what becomes of a text when each run of them is one: every other character stays as
often as it was. -/
namespace TableAccess.Text

/-- The code points of blanks. -/
def blankPoints : List Nat :=
  [0x9, 0xa, 0xb, 0xc, 0xd, 0x20, 0x85, 0xa0, 0x1680, 0x2000, 0x2001, 0x2002, 0x2003, 0x2004,
    0x2005, 0x2006, 0x2007, 0x2008, 0x2009, 0x200a, 0x2028, 0x2029, 0x202f, 0x205f, 0x3000]

theorem mem_blankPoints {c : Char} (blank : isBlank c = true) : c.toNat ∈ blankPoints := by
  simp [isBlank] at blank
  simp [blankPoints]
  omega

/-- A test that fails at each listed blank fails at every blank. -/
theorem false_of_isBlank {test : Char → Bool} (listed : ∀ n ∈ blankPoints, test (Char.ofNat n) = false)
    {c : Char} (blank : isBlank c = true) : test c = false := by
  rw [← Char.ofNat_toNat c]
  exact listed _ (mem_blankPoints blank)

theorem wordClasses_of_blankPoint : ∀ n ∈ blankPoints, isWordChar (Char.ofNat n) = false ∧
    isLetter (Char.ofNat n) = false ∧ isNumber (Char.ofNat n) = false := by
  decide +kernel

theorem isWordChar_of_isBlank {c : Char} (blank : isBlank c = true) : isWordChar c = false :=
  false_of_isBlank (fun n listed => (wordClasses_of_blankPoint n listed).1) blank

theorem isLetter_of_isBlank {c : Char} (blank : isBlank c = true) : isLetter c = false :=
  false_of_isBlank (fun n listed => (wordClasses_of_blankPoint n listed).2.1) blank

theorem isNumber_of_isBlank {c : Char} (blank : isBlank c = true) : isNumber c = false :=
  false_of_isBlank (fun n listed => (wordClasses_of_blankPoint n listed).2.2) blank

theorem isHexDigit_of_isBlank {c : Char} (blank : isBlank c = true) : isHexDigit c = false :=
  false_of_isBlank (by decide) blank

theorem ne_of_isBlank {b c : Char} (blank : isBlank b = true) (solid : isBlank c = false) :
    b ≠ c := by
  rintro rfl
  rw [solid] at blank
  cases blank

/-! Texts without the blanks around them. -/

variable {chars text : List Char}

theorem trimStart_of_head (first : ∀ c ∈ chars.head?, isBlank c = false) :
    trimStart chars = chars := by
  cases chars with
  | nil => rfl
  | cons c rest => exact List.dropWhile_cons_of_neg (by simp [first c rfl])

theorem trim_of_ends (first : ∀ c ∈ chars.head?, isBlank c = false)
    (last : ∀ c ∈ chars.getLast?, isBlank c = false) : trim chars = chars := by
  rw [trim, trimStart_of_head first, trimEnd, trimStart_of_head (by simpa using last),
    List.reverse_reverse]

theorem trim_of_solid (solid : ∀ c ∈ chars, isBlank c = false) :
    trim chars = chars :=
  trim_of_ends (fun c first => solid c (List.mem_of_mem_head? first))
    fun c last => solid c (List.mem_of_getLast? last)

theorem head?_trimStart (text : List Char) : ∀ c ∈ (trimStart text).head?, isBlank c = false := by
  intro c first
  have stopped := List.head?_dropWhile_not isBlank text
  rw [trimStart, Option.mem_def] at first
  rw [first] at stopped
  exact stopped

theorem trim_front (text : List Char) : trim text <+: trimStart text := by
  rw [trim, trimEnd, ← List.reverse_suffix, List.reverse_reverse]
  exact List.dropWhile_suffix _

theorem trim_part (text : List Char) : trim text <:+: text :=
  (trim_front text).isInfix.trans (List.dropWhile_suffix _).isInfix

theorem head?_trim (text : List Char) : ∀ c ∈ (trim text).head?, isBlank c = false := by
  intro c first
  obtain ⟨rest, front⟩ := List.head?_eq_some_iff.mp first
  obtain ⟨behind, whole⟩ := trim_front text
  refine head?_trimStart text c ?_
  rw [← whole, front]
  rfl

theorem getLast?_trim (text : List Char) : ∀ c ∈ (trim text).getLast?, isBlank c = false := by
  rw [trim, trimEnd, List.getLast?_reverse]
  exact head?_trimStart _

/-- Trimming once is enough. -/
theorem trim_trim (text : List Char) : trim (trim text) = trim text :=
  trim_of_ends (head?_trim text) (getLast?_trim text)

theorem trim_append_blank {c : Char} (blank : isBlank c = true) (text : List Char) :
    trim (text ++ [c]) = trim text := by
  have onlyBlank : trimStart [c] = [] := List.dropWhile_cons_of_pos blank
  rw [trim, trim, trimStart, List.dropWhile_append, ← trimStart, ← trimStart]
  split
  · next empty =>
    rw [onlyBlank, List.isEmpty_iff.mp empty]
  · rw [trimEnd, List.reverse_append, trimStart]
    simp [blank, trimEnd, trimStart]

end TableAccess.Text
namespace TableAccess.Template
open TableAccess.Text

variable {c : Char}

theorem count_trimStart (solid : isBlank c = false) (text : List Char) :
    (trimStart text).count c = text.count c := by
  induction text with
  | nil => rfl
  | cons d rest ih =>
    cases blank : isBlank d with
    | false => rw [trimStart, List.dropWhile_cons_of_neg (by simp [blank])]
    | true =>
      rw [trimStart, List.dropWhile_cons_of_pos blank, ← trimStart, ih,
        List.count_cons_of_ne (ne_of_isBlank blank solid)]

theorem count_squeeze (solid : isBlank c = false) (pending : Bool) (text : List Char) :
    (squeeze pending text).count c = text.count c := by
  induction text generalizing pending with
  | nil => rfl
  | cons d rest ih =>
    rw [squeeze]
    split
    · next blank => rw [ih, List.count_cons_of_ne (ne_of_isBlank blank solid)]
    · split
      · rw [List.count_cons_of_ne (ne_of_isBlank rfl solid), List.count_cons, List.count_cons, ih]
      · rw [List.count_cons, List.count_cons, ih]

/-- Only blanks are taken away or added between words. -/
theorem count_words (solid : isBlank c = false) (text : List Char) :
    (words text).count c = text.count c := by
  rw [words, count_squeeze solid, count_trimStart solid]

/-! What squeezing leaves as it is. -/

variable {text written left : List Char} {pending : Bool}

theorem squeeze_cons (solid : isBlank c = false) (rest : List Char) :
    squeeze pending (c :: rest) = (if pending then [' ', c] else [c]) ++ squeeze false rest := by
  cases pending <;> simp [squeeze, solid]

/-- Only spaces are left of blanks. -/
theorem eq_space_of_mem_squeeze (member : c ∈ squeeze pending text) (blank : isBlank c = true) :
    c = ' ' := by
  induction text generalizing pending with
  | nil => cases member
  | cons d rest ih =>
    cases solid : isBlank d with
    | true =>
      rw [squeeze, if_pos solid] at member
      exact ih member
    | false =>
      rw [squeeze_cons solid, List.mem_append] at member
      rcases member with first | later
      · have other : c ≠ d := ne_of_isBlank blank solid
        cases pending with
        | false => simp [other] at first
        | true => simpa [other] using first
      · exact ih later

/-- A blank at the end of a text is squeezed away. -/
theorem getLast?_squeeze (pending : Bool) (text : List Char) :
    ∀ c ∈ (squeeze pending text).getLast?, isBlank c = false := by
  induction text generalizing pending with
  | nil => simp [squeeze]
  | cons d rest ih =>
    cases solid : isBlank d with
    | true =>
      rw [squeeze, if_pos solid]
      exact ih true
    | false =>
      intro c last
      rw [squeeze_cons solid, List.getLast?_append] at last
      cases later : (squeeze false rest).getLast? with
      | some e =>
        rw [later] at last
        cases last
        exact ih false c later
      | none =>
        rw [later] at last
        cases pending <;> (cases last; exact solid)

/-- Behind a character that is no blank, squeezing starts anew. -/
theorem squeeze_append (solid : ∀ c ∈ written.getLast?, isBlank c = false) (some_ : written ≠ []) :
    squeeze pending (written ++ left) = squeeze pending written ++ squeeze false left := by
  induction written generalizing pending with
  | nil => cases some_ rfl
  | cons c rest ih =>
    cases rest with
    | nil =>
      have last : isBlank c = false := solid c rfl
      rw [List.cons_append, squeeze_cons last, squeeze_cons last, List.nil_append]
      simp [squeeze]
    | cons d rest =>
      have later : ∀ pending, squeeze pending (d :: rest ++ left) =
          squeeze pending (d :: rest) ++ squeeze false left :=
        fun _ => ih (by simpa using solid) (List.cons_ne_nil d rest)
      rw [List.cons_append, squeeze, squeeze]
      split
      · exact later true
      · split <;> rw [later false] <;> rfl

/-- What squeezing keeps, it keeps in front of anything. -/
theorem squeeze_append_of_kept (kept : squeeze false written = written) (some_ : written ≠ []) :
    squeeze false (written ++ left) = written ++ squeeze false left := by
  have solid := getLast?_squeeze false written
  rw [kept] at solid
  rw [squeeze_append solid some_, kept]

/-- The first character of what squeezing keeps is a space or no blank. -/
theorem isBlank_of_kept (kept : squeeze false (c :: left) = c :: left) (other : c ≠ ' ') :
    isBlank c = false := by
  cases blank : isBlank c with
  | false => rfl
  | true =>
    have member : c ∈ squeeze false (c :: left) := by
      rw [kept]
      exact List.mem_cons_self
    exact absurd (eq_space_of_mem_squeeze member blank) other

/-- A run of blanks is one space, unless it ends the text. -/
theorem squeeze_true (text : List Char) :
    squeeze true text = [] ∧ trimStart text = [] ∨ squeeze true text = ' ' :: words text := by
  induction text with
  | nil => exact .inl ⟨rfl, rfl⟩
  | cons c rest ih =>
    cases blank : isBlank c with
    | true =>
      have dropped : trimStart (c :: rest) = trimStart rest := List.dropWhile_cons_of_pos blank
      rw [words, dropped, squeeze, if_pos blank]
      exact ih
    | false =>
      have kept : trimStart (c :: rest) = c :: rest :=
        List.dropWhile_cons_of_neg (by simp [blank])
      rw [words, kept, squeeze_cons blank, squeeze_cons blank]
      exact .inr rfl

end TableAccess.Template
