import TableAccess.Document.Json
import TableAccess.Document.JsonText
import TableAccess.Proofs.Template.Scanning

/-! Tables of lists as they are written in JSON. Between the parts of a document there may be blanks, and
every character of a text may be spelled in several ways: by itself, by a letter behind a backslash, or by
its code units. Reading gives the texts that are spelled, in the order in which they are written, and stops
where the last bracket closes. -/
namespace TableAccess.Document.Json
open TableAccess.Text

/-- Blanks between the parts of a document. -/
structure Gap where
  chars : List Char
  blank : ∀ c ∈ chars, c ∈ [' ', '\n', '\t', '\r']

/-- A code unit in four digits. -/
structure CodeUnit where
  first : Char
  second : Char
  third : Char
  fourth : Char
  value : Nat
  spelled : hexValue? [first, second, third, fourth] = some value

def CodeUnit.written (u : CodeUnit) : List Char := ['\\', 'u', u.first, u.second, u.third, u.fourth]

/-- A character as it is spelled between quotes. -/
inductive Spelling where
  | plain (c : Char) (shown : 0x20 ≤ c.toNat ∧ c ≠ '"' ∧ c ≠ '\\')
  | letter (e c : Char) (known : escaped? e = some c)
  | unit (u : CodeUnit) (single : u.value < 0xd800 ∨ 0xe000 ≤ u.value)
  | pair (high low : CodeUnit) (first : 0xd800 ≤ high.value ∧ high.value < 0xdc00)
      (second : 0xdc00 ≤ low.value ∧ low.value < 0xe000)

namespace Spelling

def written : Spelling → List Char
  | plain c _ => [c]
  | letter e _ _ => ['\\', e]
  | unit u _ => u.written
  | pair high low _ _ => high.written ++ low.written

/-- The character that is spelled. -/
def char : Spelling → Char
  | plain c _ => c
  | letter _ c _ => c
  | unit u _ => Char.ofNat u.value
  | pair high low _ _ => Char.ofNat (0x10000 + (high.value - 0xd800) * 0x400 + (low.value - 0xdc00))

/-- What reading finds in place of the character. -/
def pieces : Spelling → List Piece
  | plain c _ => [.char c]
  | letter _ c _ => [.char c]
  | unit u _ => [.unit u.value]
  | pair high low _ _ => [.unit high.value, .unit low.value]

end Spelling

/-- A text between quotes. -/
structure Quoted where
  spellings : List Spelling

namespace Quoted

def written (q : Quoted) : List Char := '"' :: (q.spellings.flatMap Spelling.written ++ ['"'])

/-- The text that is spelled. -/
def content (q : Quoted) : String := String.ofList (q.spellings.map Spelling.char)

/-- A text of characters that are spelled by themselves. -/
def plain (text : String) (shown : ∀ c ∈ text.toList, 0x20 ≤ c.toNat ∧ c ≠ '"' ∧ c ≠ '\\') : Quoted :=
  ⟨text.toList.attach.map fun ⟨c, held⟩ => .plain c (shown c held)⟩

end Quoted

/-- A part of a list with the blanks around it. -/
structure Spaced (α : Type) where
  front : Gap
  part : α
  behind : Gap

/-- The parts of a list with the commas between them. Where there are none, there may be blanks. -/
def listed {α : Type} (write : α → List Char) (gap : Gap) : List (Spaced α) → List Char
  | [] => gap.chars
  | [s] => s.front.chars ++ (write s.part ++ s.behind.chars)
  | s :: rest => s.front.chars ++ (write s.part ++ (s.behind.chars ++ ',' :: listed write gap rest))

/-- A list of texts. -/
structure Texts where
  gap : Gap
  items : List (Spaced Quoted)

namespace Texts

def written (t : Texts) : List Char := '[' :: (listed Quoted.written t.gap t.items ++ [']'])

def contents (t : Texts) : List String := t.items.map fun s => s.part.content

end Texts

/-- A list of texts with its name. -/
structure Entry where
  name : Quoted
  before : Gap
  behind : Gap
  texts : Texts

def Entry.written (e : Entry) : List Char :=
  e.name.written ++ (e.before.chars ++ ':' :: (e.behind.chars ++ e.texts.written))

/-- A document that lists texts under names. -/
structure Listing where
  front : Gap
  gap : Gap
  entries : List (Spaced Entry)
  behind : Gap

namespace Listing

def written (l : Listing) : List Char :=
  l.front.chars ++ '\x7b' :: (listed Entry.written l.gap l.entries ++ '\x7d' :: l.behind.chars)

/-- What is listed, in the order of the document. -/
def contents (l : Listing) : List (String × List String) :=
  l.entries.map fun s => (s.part.name.content, s.part.texts.contents)

end Listing

/-! Texts. -/

variable {rest : List Char}

theorem quoted?_unit (u : CodeUnit) (rest : List Char) : quoted? (u.written ++ rest) =
    (quoted? rest).map fun (pieces, after) => (.unit u.value :: pieces, after) := by
  rw [CodeUnit.written]
  simp only [List.cons_append, List.nil_append, quoted?, u.spelled]
  cases quoted? rest <;> rfl

theorem quoted?_spelling (s : Spelling) (rest : List Char) : quoted? (s.written ++ rest) =
    (quoted? rest).map fun (pieces, after) => (s.pieces ++ pieces, after) := by
  cases s with
  | plain c shown =>
    obtain ⟨visible, quote, backslash⟩ := shown
    rw [Spelling.written, List.singleton_append, quoted?]
    · simp [Spelling.pieces, Nat.not_lt.mpr visible, backslash]
    · exact quote
    · exact fun _ _ _ _ _ same _ => backslash same
    · exact fun _ _ same _ => backslash same
  | letter e c known =>
    have other : e ≠ 'u' := by
      rintro rfl
      cases known
    simp only [Spelling.written, List.cons_append, List.nil_append]
    rw [quoted?]
    · rw [known]
      cases quoted? rest <;> rfl
    · exact fun _ _ _ _ _ same _ => other same
  | unit u _ => exact quoted?_unit u rest
  | pair high low _ _ =>
    rw [Spelling.written, List.append_assoc, quoted?_unit, quoted?_unit, Option.map_map]
    rfl

theorem quoted?_spellings (spellings : List Spelling) (rest : List Char) :
    quoted? (spellings.flatMap Spelling.written ++ '"' :: rest) =
      some (spellings.flatMap Spelling.pieces, rest) := by
  induction spellings with
  | nil => rfl
  | cons s more ih => rw [List.flatMap_cons, List.append_assoc, quoted?_spelling, ih]; rfl

/-- A code unit that stands by itself is a character, whatever follows it. -/
theorem characters?_unit {n : Nat} (single : n < 0xd800 ∨ 0xe000 ≤ n) (rest : List Piece) :
    characters? (.unit n :: rest) = (characters? rest).map (Char.ofNat n :: ·) := by
  match rest with
  | [] => simp [characters?]; omega
  | .char _ :: _ => simp [characters?]; omega
  | .unit _ :: _ =>
    have notHigh : ¬ (0xd800 ≤ n ∧ n < 0xdc00) := by omega
    have notLow : ¬ (0xdc00 ≤ n ∧ n < 0xe000) := by omega
    simp [characters?, notHigh, notLow]

theorem characters?_spelling (s : Spelling) (rest : List Piece) :
    characters? (s.pieces ++ rest) = (characters? rest).map (s.char :: ·) := by
  cases s with
  | plain _ _ => rfl
  | letter _ _ _ => rfl
  | unit u single => exact characters?_unit single rest
  | pair high low first second => simp [Spelling.pieces, Spelling.char, characters?, first, second]

theorem pieceText?_spellings (q : Quoted) :
    pieceText? (q.spellings.flatMap Spelling.pieces) = some q.content := by
  have all (spellings : List Spelling) : characters? (spellings.flatMap Spelling.pieces) =
      some (spellings.map Spelling.char) := by
    induction spellings with
    | nil => rfl
    | cons s more ih => rw [List.flatMap_cons, characters?_spelling, ih]; rfl
  rw [pieceText?, all]
  rfl

/-! Values. -/

theorem skipBlanks_gap (g : Gap) (rest : List Char) : skipBlanks (g.chars ++ rest) = skipBlanks rest := by
  refine List.dropWhile_append_of_pos fun c held => ?_
  have blank := g.blank c held
  simp only [List.mem_cons, List.not_mem_nil, or_false] at blank
  rcases blank with rfl | rfl | rfl | rfl <;> rfl

theorem value_gap (g : Gap) (budget : Nat) (text : List Char) :
    value (budget + 1) (g.chars ++ text) = value (budget + 1) text := by
  rw [value, value, skipBlanks_gap]

theorem value_quoted (q : Quoted) (budget : Nat) (rest : List Char) :
    value (budget + 1) (q.written ++ rest) = (.text q.content, some rest) := by
  have opened : skipBlanks (q.written ++ rest) =
      '"' :: (q.spellings.flatMap Spelling.written ++ '"' :: rest) := by
    simp [Quoted.written, skipBlanks]
  rw [value, opened]
  simp only [quoted?_spellings, pieceText?_spellings]

theorem key?_quoted (q : Quoted) (g : Gap) (rest : List Char) :
    key? (q.written ++ (g.chars ++ ':' :: rest)) = some (some q.content, rest) := by
  have opened : q.written ++ (g.chars ++ ':' :: rest) =
      '"' :: (q.spellings.flatMap Spelling.written ++ '"' :: (g.chars ++ ':' :: rest)) := by
    simp [Quoted.written]
  have colon : skipBlanks (g.chars ++ ':' :: rest) = ':' :: rest := skipBlanks_gap g _
  rw [opened, key?, quoted?_spellings]
  simp [colon, pieceText?_spellings, afterStart?]

/-- The first part of a list is read up to the blanks behind it. -/
theorem value_spaced (s : Spaced Quoted) (budget : Nat) (rest : List Char) :
    value (budget + 1) (s.front.chars ++ (s.part.written ++ (s.behind.chars ++ rest))) =
      (.text s.part.content, some (s.behind.chars ++ rest)) := by
  rw [value_gap, value_quoted]

theorem items_listed (gap : Gap) (first : Spaced Quoted) (more : List (Spaced Quoted)) {budget : Nat}
    (enough : more.length + 1 < budget) (rest : List Char) :
    items budget (listed Quoted.written gap (first :: more) ++ ']' :: rest) =
      ((first :: more).map fun s => .text s.part.content, some rest) := by
  induction more generalizing first budget with
  | nil =>
    obtain ⟨budget, rfl⟩ : ∃ b, budget = b + 2 := ⟨budget - 2, by omega⟩
    have ends : skipBlanks (first.behind.chars ++ ']' :: rest) = ']' :: rest := skipBlanks_gap _ _
    simp only [listed, List.append_assoc, items, value_spaced, ends, List.map_cons, List.map_nil]
  | cons second more ih =>
    obtain ⟨budget, rfl⟩ : ∃ b, budget = b + 2 := ⟨budget - 2, by simp at enough; omega⟩
    have goes (behind : List Char) :
        skipBlanks (first.behind.chars ++ ',' :: behind) = ',' :: behind := skipBlanks_gap _ _
    have fewer : more.length + 1 < budget + 1 := by
      rw [List.length_cons] at enough
      omega
    have later := ih second fewer
    rw [listed]
    · simp only [List.append_assoc, List.cons_append]
      rw [items]
      simp only [value_spaced, goes, later, List.map_cons]
    · exact List.cons_ne_nil _ _

theorem value_texts (t : Texts) {budget : Nat} (enough : t.items.length + 1 < budget) (rest : List Char) :
    value budget (t.written ++ rest) = (.list (t.contents.map .text), some rest) := by
  obtain ⟨budget, rfl⟩ : ∃ b, budget = b + 1 := ⟨budget - 1, by omega⟩
  obtain ⟨gap, items⟩ := t
  have opened (behind : List Char) : skipBlanks ('[' :: behind) = '[' :: behind := rfl
  have whole : (Texts.written ⟨gap, items⟩) ++ rest =
      '[' :: (listed Quoted.written gap items ++ ']' :: rest) := by simp [Texts.written]
  rw [whole, value, opened]
  cases items with
  | nil =>
    have ends : skipBlanks (listed Quoted.written gap [] ++ ']' :: rest) = ']' :: rest := skipBlanks_gap gap _
    simp only [ends]
    rfl
  | cons first more =>
    have inside : ∃ behind, skipBlanks (listed Quoted.written gap (first :: more) ++ ']' :: rest) =
        '"' :: behind := by
      cases more <;> simp only [listed, List.append_assoc, skipBlanks_gap] <;>
        exact ⟨_, by rw [Quoted.written]; rfl⟩
    obtain ⟨behind, starts⟩ := inside
    have read := items_listed gap first more (Nat.lt_of_succ_lt_succ enough) rest
    simp only [starts, read, Texts.contents, List.map_map]
    rfl

/-! Tables. -/

/-- The name of an entry is read up to the colon. -/
theorem key?_spaced (s : Spaced Entry) (rest : List Char) :
    key? (skipBlanks (s.front.chars ++ (s.part.written ++ rest))) =
      some (some s.part.name.content, s.part.behind.chars ++ (s.part.texts.written ++ rest)) := by
  have opened (behind : List Char) : skipBlanks (s.part.name.written ++ behind) =
      s.part.name.written ++ behind := rfl
  rw [skipBlanks_gap, Entry.written, List.append_assoc, opened, List.append_assoc, List.cons_append,
    key?_quoted, List.append_assoc]

theorem fields_listed (gap : Gap) (first : Spaced Entry) (more : List (Spaced Entry)) {budget : Nat}
    (enough : ∀ s ∈ first :: more, s.part.texts.items.length + more.length + 2 < budget)
    (rest : List Char) :
    fields budget (listed Entry.written gap (first :: more) ++ '\x7d' :: rest) =
      ((first :: more).map fun s =>
        (some s.part.name.content, .list (s.part.texts.contents.map .text)), some rest) := by
  have here := enough first List.mem_cons_self
  obtain ⟨budget, rfl⟩ : ∃ b, budget = b + 2 := ⟨budget - 2, by omega⟩
  have texts (behind : List Char) :=
    value_texts first.part.texts (show _ < budget + 1 by omega) behind
  induction more generalizing first budget with
  | nil =>
    have ends : skipBlanks (first.behind.chars ++ '\x7d' :: rest) = '\x7d' :: rest := skipBlanks_gap _ _
    simp only [listed, List.append_assoc, fields, key?_spaced, value_gap, texts, ends, List.map_cons,
      List.map_nil]
  | cons second more ih =>
    have goes (behind : List Char) :
        skipBlanks (first.behind.chars ++ ',' :: behind) = ',' :: behind := skipBlanks_gap _ _
    have others : ∀ s ∈ second :: more, s.part.texts.items.length + more.length + 2 < budget + 1 := by
      intro s held
      have := enough s (List.mem_cons_of_mem _ held)
      rw [List.length_cons] at this
      omega
    obtain ⟨budget, rfl⟩ : ∃ b, budget = b + 1 := ⟨budget - 1, by simp at here; omega⟩
    have later := ih second budget others (by have := others second List.mem_cons_self; omega)
      fun behind => value_texts second.part.texts (by have := others second List.mem_cons_self; omega) behind
    rw [listed]
    · simp only [List.append_assoc, List.cons_append]
      rw [fields]
      simp only [key?_spaced, value_gap, texts, goes, later, List.map_cons]
    · exact List.cons_ne_nil _ _

/-! Documents. -/

theorem Quoted.two_le (q : Quoted) : 2 ≤ q.written.length := by simp [written]

/-- A list has more characters than parts. -/
theorem length_le_listed {α : Type} {write : α → List Char} (some_ : ∀ a, 1 ≤ (write a).length) (gap : Gap)
    (parts : List (Spaced α)) : parts.length ≤ (listed write gap parts).length := by
  induction parts with
  | nil => exact Nat.zero_le _
  | cons s more ih =>
    have := some_ s.part
    cases more with
    | nil => simp [listed]; omega
    | cons t more =>
      rw [listed]
      · simp only [List.length_append, List.length_cons] at ih ⊢
        omega
      · exact List.cons_ne_nil _ _

theorem part_le_listed {α : Type} {write : α → List Char} (gap : Gap) {parts : List (Spaced α)}
    {s : Spaced α} (held : s ∈ parts) : (write s.part).length ≤ (listed write gap parts).length := by
  induction parts with
  | nil => cases held
  | cons t more ih =>
    cases more with
    | nil =>
      obtain rfl := List.mem_singleton.mp held
      simp [listed]
      omega
    | cons u more =>
      rw [listed]
      · simp only [List.length_append, List.length_cons]
        rcases List.mem_cons.mp held with rfl | later
        · omega
        · have := ih later
          omega
      · exact List.cons_ne_nil _ _

theorem value_table (gap : Gap) (entries : List (Spaced Entry)) {budget : Nat}
    (enough : ∀ s ∈ entries, s.part.texts.items.length + entries.length + 2 < budget) (some_ : 0 < budget)
    (rest : List Char) :
    value budget ('\x7b' :: (listed Entry.written gap entries ++ '\x7d' :: rest)) =
      (.table (entries.map fun s => (some s.part.name.content, .list (s.part.texts.contents.map .text))),
        some rest) := by
  obtain ⟨budget, rfl⟩ : ∃ b, budget = b + 1 := ⟨budget - 1, by omega⟩
  have opened (behind : List Char) : skipBlanks ('\x7b' :: behind) = '\x7b' :: behind := rfl
  rw [value, opened]
  cases entries with
  | nil =>
    have ends : skipBlanks (listed Entry.written gap [] ++ '\x7d' :: rest) = '\x7d' :: rest := skipBlanks_gap gap _
    simp only [ends]
    rfl
  | cons first more =>
    have inside : ∃ behind, skipBlanks (listed Entry.written gap (first :: more) ++ '\x7d' :: rest) =
        '"' :: behind := by
      cases more <;> simp only [listed, List.append_assoc, skipBlanks_gap] <;>
        exact ⟨_, by rw [Entry.written, Quoted.written]; rfl⟩
    obtain ⟨behind, starts⟩ := inside
    have fewer : ∀ s ∈ first :: more, s.part.texts.items.length + more.length + 2 < budget := by
      intro s held
      have := enough s held
      rw [List.length_cons] at this
      omega
    simp only [starts, fields_listed gap first more fewer rest]
    rfl

/-- **Reading a listing gives what it lists**, however it is spaced and its texts are spelled. -/
theorem read_listing (l : Listing) : read (String.ofList l.written) =
    ⟨.table (l.contents.map fun (name, texts) => (some name, .list (texts.map .text))), true⟩ := by
  have entryLength (e : Entry) : 1 ≤ e.written.length := by
    have := e.name.two_le
    rw [Entry.written, List.length_append]
    omega
  have entries := length_le_listed entryLength l.gap l.entries
  have texts : ∀ s ∈ l.entries,
      s.part.texts.items.length ≤ (listed Entry.written l.gap l.entries).length := by
    intro s held
    have inList := length_le_listed (fun q => Nat.le_of_succ_le q.two_le) s.part.texts.gap s.part.texts.items
    have inEntry : s.part.written.length ≤ (listed Entry.written l.gap l.entries).length :=
      part_le_listed l.gap held
    simp only [Entry.written, Texts.written, List.length_append, List.length_cons] at inEntry
    omega
  have length : (listed Entry.written l.gap l.entries).length + 2 ≤ l.written.length := by
    simp only [Listing.written, List.length_append, List.length_cons]
    omega
  have enough : ∀ s ∈ l.entries,
      s.part.texts.items.length + l.entries.length + 2 < 2 * l.written.length + 1 := by
    intro s held
    have := texts s held
    omega
  have table := value_table l.gap l.entries enough (Nat.succ_pos _) l.behind.chars
  have ends : skipBlanks l.behind.chars = [] := by
    have none_ := skipBlanks_gap l.behind []
    rwa [List.append_nil] at none_
  have whole : value (2 * l.written.length + 1) l.written = _ :=
    (value_gap l.front (2 * l.written.length) _).trans table
  simp only [read, String.toList_ofList, whole, ends, Listing.contents, List.map_map]
  rfl

/-! Every text can be spelled. -/

theorem Spelling.exists_of_char (c : Char) : ∃ s : Spelling, s.char = c := by
  by_cases quote : escaped? c = some c
  · exact ⟨.letter c c quote, rfl⟩
  by_cases shown : 0x20 ≤ c.toNat
  · refine ⟨.plain c ⟨shown, ?_, ?_⟩, rfl⟩
    · rintro rfl
      exact quote rfl
    · rintro rfl
      exact quote rfl
  · have control : ∀ n < 0x20, hexValue? ['0', '0', JsonText.hexDigit (n / 16), JsonText.hexDigit (n % 16)] =
        some n := by decide +kernel
    have low := Nat.lt_of_not_le shown
    let u : CodeUnit := ⟨'0', '0', _, _, c.toNat, control c.toNat low⟩
    exact ⟨.unit u (.inl (Nat.lt_trans low (by decide))), Char.ofNat_toNat c⟩

theorem Quoted.exists_of_content (content : String) : ∃ q : Quoted, q.content = content := by
  have all (chars : List Char) : ∃ spellings : List Spelling, spellings.map Spelling.char = chars := by
    induction chars with
    | nil => exact ⟨[], rfl⟩
    | cons c rest ih =>
      obtain ⟨s, first⟩ := Spelling.exists_of_char c
      obtain ⟨more, others⟩ := ih
      exact ⟨s :: more, by rw [List.map_cons, first, others]⟩
  obtain ⟨spellings, same⟩ := all content.toList
  exact ⟨⟨spellings⟩, by rw [Quoted.content, same, String.ofList_toList]⟩

/-- Every sequence of lists with names can be written. -/
theorem Listing.exists_of_contents (contents : List (String × List String)) :
    ∃ l : Listing, l.contents = contents := by
  let gap : Gap := ⟨[], List.forall_mem_nil _⟩
  have spaced {α β : Type} {f : α → β} (reached : ∀ b, ∃ a, f a = b) (bs : List β) :
      ∃ parts : List (Spaced α), parts.map (fun s => f s.part) = bs := by
    induction bs with
    | nil => exact ⟨[], rfl⟩
    | cons b rest ih =>
      obtain ⟨a, first⟩ := reached b
      obtain ⟨more, others⟩ := ih
      exact ⟨⟨gap, a, gap⟩ :: more, by rw [List.map_cons, others]; exact congrArg (· :: rest) first⟩
  have entry (pair : String × List String) :
      ∃ e : Entry, (e.name.content, e.texts.contents) = pair := by
    obtain ⟨name, texts⟩ := pair
    obtain ⟨q, same⟩ := Quoted.exists_of_content name
    obtain ⟨items, all⟩ := spaced Quoted.exists_of_content texts
    exact ⟨⟨q, gap, gap, gap, items⟩, Prod.ext same all⟩
  obtain ⟨entries, all⟩ := spaced entry contents
  exact ⟨⟨gap, gap, entries, gap⟩, all⟩

end TableAccess.Document.Json
