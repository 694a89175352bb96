import TableAccess.Lineage.Invocation
import TableAccess.Proofs.Text.Blank

/-! The method that an invocation calls. An invocation is written as a receiver with a separator, type
arguments, the name of the method and a list of arguments, of which only the name must be there. These
parts are taken off from the outside: the list of arguments by its parentheses, read backwards; the type
arguments by their brackets, innermost first; and the receiver at the last separator. What is inside the
parentheses may hold brackets and separators, and what is inside the brackets may hold parentheses and
separators, but each of them is in pairs of its own; so no step stops inside a part that another one is
to take. -/
namespace TableAccess.Text

/-- A text in which brackets of one kind are in pairs. -/
inductive Balanced (opening closing : Char) : List Char → Prop where
  | nil : Balanced opening closing []
  | char {c : Char} {rest : List Char} (plain : c ≠ opening ∧ c ≠ closing)
      (behind : Balanced opening closing rest) : Balanced opening closing (c :: rest)
  | group {inside rest : List Char} (within : Balanced opening closing inside)
      (behind : Balanced opening closing rest) :
      Balanced opening closing (opening :: inside ++ closing :: rest)

variable {front behind text : List Char} {opening closing : Char}

theorem Balanced.of_plain (plain : ∀ c ∈ text, c ≠ opening ∧ c ≠ closing) :
    Balanced opening closing text := by
  induction text with
  | nil => exact .nil
  | cons c rest ih =>
    obtain ⟨first, others⟩ := List.forall_mem_cons.mp plain
    exact .char first (ih others)

theorem trim_surrounded (leads : ∀ c ∈ front, isBlank c = true)
    (trails : ∀ c ∈ behind, isBlank c = true) : trim (front ++ text ++ behind) = trim text := by
  induction behind generalizing text with
  | nil => rw [List.append_nil, trim, trim, trimStart, List.dropWhile_append_of_pos leads, ← trimStart]
  | cons c rest ih =>
    obtain ⟨blank, others⟩ := List.forall_mem_cons.mp trails
    have ends : trim (front ++ (text ++ [c]) ++ rest) = trim (text ++ [c]) := ih others
    rw [trim_append_blank blank, List.append_assoc] at ends
    rw [← ends]
    simp

/-- Trimming a text stops at a part of it that has no blanks at its ends. -/
theorem trim_append_solid (some_ : text ≠ []) (first : ∀ c ∈ text.head?, isBlank c = false)
    (last : ∀ c ∈ text.getLast?, isBlank c = false) : trim (front ++ text) = trimStart front ++ text := by
  have started : trimStart (front ++ text) = trimStart front ++ text := by
    rw [trimStart, List.dropWhile_append, ← trimStart, ← trimStart, trimStart_of_head first]
    split
    · next empty => rw [List.isEmpty_iff.mp empty, List.nil_append]
    · rfl
  rw [trim, started, trimEnd, trimStart_of_head, List.reverse_reverse]
  intro c head
  rw [List.head?_reverse, List.getLast?_append, List.getLast?_eq_some_getLast some_] at head
  exact last c ((List.getLast?_eq_some_getLast some_).trans head)

end TableAccess.Text

namespace TableAccess.Invocation
open TableAccess.Text

/-- What separates a receiver from what is called on it. -/
inductive Separator where
  | period | colons | arrow

def Separator.written : Separator → List Char
  | period => ['.']
  | colons => [':', ':']
  | arrow => ['-', '>']

/-- What a method is called on. It opens no angle bracket, and its end can be told from a separator. -/
structure Receiver where
  text : List Char
  unopened : '<' ∉ text
  apart : text.getLast? ≠ some ':'
  separator : Separator

def Receiver.written (r : Receiver) : List Char := r.text ++ r.separator.written

/-- Type arguments, with others inside. -/
structure TypeArguments where
  inside : List Char
  balanced : Balanced '<' '>' inside

def TypeArguments.written (t : TypeArguments) : List Char := '<' :: t.inside ++ ['>']

/-- A list of arguments, with blanks in front of it. -/
structure Arguments where
  gap : List Char
  blank : ∀ c ∈ gap, isBlank c = true
  inside : List Char
  balanced : Balanced '(' ')' inside

def Arguments.written (a : Arguments) : List Char := a.gap ++ '(' :: a.inside ++ [')']

/-- A call as it is written. -/
structure Call where
  receiver : Option Receiver
  types : Option TypeArguments
  name : List Char
  named : name ≠ []
  plain : ∀ c ∈ name, isBlank c = false ∧ c ∉ ['.', ':', '-', '<', '>', '(', ')']
  arguments : Option Arguments

namespace Call

/-- The type arguments and the name. -/
def core (c : Call) : List Char := (c.types.map TypeArguments.written).getD [] ++ c.name

/-- A call without its arguments. -/
def bare (c : Call) : List Char := (c.receiver.map Receiver.written).getD [] ++ c.core

def written (c : Call) : List Char := c.bare ++ (c.arguments.map Arguments.written).getD []

end Call

/-! Blanks around a call. -/

namespace Call
variable {c : Call}

/-- What a call has in front of the separator. -/
def front (c : Call) : List Char := (c.receiver.map Receiver.text).getD []

/-- What a call has from the separator on. -/
def rest (c : Call) : List Char :=
  (c.receiver.map fun r => r.separator.written).getD [] ++ c.core ++
    (c.arguments.map Arguments.written).getD []

theorem written_eq (c : Call) : c.written = c.front ++ c.rest := by
  cases receiver : c.receiver <;> simp [written, bare, front, rest, receiver, Receiver.written]

theorem core_ne_nil (c : Call) : c.core ≠ [] := by simp [core, c.named]

theorem head?_core (c : Call) : ∀ first ∈ c.core.head?, isBlank first = false := by
  intro first starts
  rw [core] at starts
  cases types : c.types with
  | none =>
    rw [types, Option.map_none, Option.getD_none, List.nil_append] at starts
    exact (c.plain first (List.mem_of_mem_head? starts)).1
  | some t =>
    rw [types] at starts
    obtain rfl := Option.some.inj starts
    rfl

theorem head?_rest (c : Call) : ∀ first ∈ c.rest.head?, isBlank first = false := by
  intro first starts
  rw [rest] at starts
  cases receiver : c.receiver with
  | none =>
    obtain ⟨letter, behind, core⟩ := List.exists_cons_of_ne_nil c.core_ne_nil
    have head := c.head?_core
    rw [receiver, Option.map_none, Option.getD_none, List.nil_append, core] at starts
    rw [core] at head
    exact head first starts
  | some r =>
    rw [receiver, Option.map_some, Option.getD_some] at starts
    cases separator : r.separator <;> (rw [separator] at starts; obtain rfl := Option.some.inj starts; rfl)

theorem getLast?_bare (c : Call) : ∃ last ∈ c.name, c.bare.getLast? = some last := by
  refine ⟨c.name.getLast c.named, List.getLast_mem c.named, ?_⟩
  rw [bare, core, List.getLast?_append, List.getLast?_append, List.getLast?_eq_some_getLast c.named]
  rfl

theorem getLast?_written (c : Call) : ∀ last ∈ c.written.getLast?, isBlank last = false := by
  intro last ends
  rw [written] at ends
  cases arguments : c.arguments with
  | none =>
    obtain ⟨letter, member, final⟩ := c.getLast?_bare
    rw [arguments, Option.map_none, Option.getD_none, List.append_nil, final] at ends
    obtain rfl := Option.some.inj ends
    exact (c.plain letter member).1
  | some a =>
    rw [arguments, Option.map_some, Option.getD_some, Arguments.written, ← List.append_assoc,
      List.getLast?_concat] at ends
    obtain rfl := Option.some.inj ends
    rfl

end Call

/-- A receiver without the blanks before it. -/
def Receiver.started (r : Receiver) : Receiver where
  text := trimStart r.text
  unopened := fun held => r.unopened ((List.dropWhile_sublist _).subset held)
  apart := fun last => r.apart (by
    obtain ⟨before, split⟩ := List.dropWhile_suffix (l := r.text) isBlank
    rw [← split, List.getLast?_append, ← trimStart, last]
    rfl)
  separator := r.separator

/-- A call without the blanks before its receiver. -/
def Call.started (c : Call) : Call := { c with receiver := c.receiver.map Receiver.started }

/-- Trimming a call takes the blanks before its receiver away. -/
theorem Call.trim_written (c : Call) : trim c.written = c.started.written := by
  have front : c.started.front = trimStart c.front := by
    cases receiver : c.receiver <;> simp [Call.front, started, receiver, Receiver.started, trimStart]
  have rest : c.started.rest = c.rest := by
    cases receiver : c.receiver <;> simp [Call.rest, started, core, receiver, Receiver.started]
  have some_ : c.rest ≠ [] := by simp [Call.rest, c.core_ne_nil]
  have last : ∀ last ∈ c.rest.getLast?, isBlank last = false := by
    have ends := c.getLast?_written
    rw [written_eq, List.getLast?_append, List.getLast?_eq_some_getLast some_] at ends
    rw [List.getLast?_eq_some_getLast some_]
    exact ends
  rw [written_eq, written_eq, trim_append_solid some_ c.head?_rest last, front, rest]

/-! The list of arguments. -/

/-- Parentheses in pairs are passed over. -/
theorem beforeArguments?_balanced {inside : List Char} (balanced : Balanced '(' ')' inside) (depth : Nat)
    (rest : List Char) :
    beforeArguments? (depth + 1) (inside.reverse ++ rest) = beforeArguments? (depth + 1) rest := by
  induction balanced generalizing depth rest with
  | nil => rfl
  | char plain _ ih =>
    rw [List.reverse_cons, List.append_assoc, ih]
    simp [beforeArguments?, plain.1, plain.2]
  | @group inside behind _ _ ih later =>
    have backwards : ('(' :: inside ++ ')' :: behind).reverse ++ rest =
        behind.reverse ++ (')' :: (inside.reverse ++ '(' :: rest)) := by simp
    rw [backwards, later, beforeArguments?, ih, beforeArguments?]
    simp

theorem withoutArguments_of_last {text : List Char} (last : text.getLast? ≠ some ')') :
    withoutArguments text = text := by
  rw [withoutArguments]
  split
  · next rest backwards =>
    rw [← List.head?_reverse, backwards] at last
    exact absurd rfl last
  · rfl

theorem withoutArguments_append {text : List Char} (last : ∀ c ∈ text.getLast?, isBlank c = false)
    (a : Arguments) : withoutArguments (text ++ a.written) = text := by
  have backwards : (text ++ a.written).reverse =
      ')' :: (a.inside.reverse ++ '(' :: (a.gap.reverse ++ text.reverse)) := by
    simp [Arguments.written]
  have before : beforeArguments? 0 (')' :: (a.inside.reverse ++ '(' :: (a.gap.reverse ++ text.reverse))) =
      some (a.gap.reverse ++ text.reverse) := by
    rw [beforeArguments?, beforeArguments?_balanced a.balanced, beforeArguments?]
    rfl
  have gap : ∀ c ∈ a.gap.reverse, isBlank c = true := fun c held => a.blank c (List.mem_reverse.mp held)
  simp only [withoutArguments, backwards, before]
  rw [trimStart, List.dropWhile_append_of_pos gap, ← trimStart, trimStart_of_head (by simpa using last),
    List.reverse_reverse]

theorem withoutArguments_written (c : Call) : withoutArguments c.written = c.bare := by
  obtain ⟨last, member, ends⟩ := c.getLast?_bare
  have plain := c.plain last member
  rw [Call.written]
  cases c.arguments with
  | none =>
    rw [Option.map_none, Option.getD_none, List.append_nil]
    refine withoutArguments_of_last fun closes => ?_
    obtain rfl := Option.some.inj (ends.symm.trans closes)
    exact plain.2 (by decide)
  | some a =>
    refine withoutArguments_append (fun letter final => ?_) a
    obtain rfl := Option.some.inj (ends.symm.trans final)
    exact plain.1

/-! The type arguments. -/

/-- A character that is no bracket is kept with what is open. -/
theorem witnessFree_char {c : Char} (plain : c ≠ '<' ∧ c ≠ '>') (part : List Char)
    (outer : List (List Char)) (rest : List Char) :
    witnessFree (part :: outer) (c :: rest) = witnessFree ((c :: part) :: outer) rest := by
  rw [witnessFree]
  · exact plain.1
  · exact plain.2

/-- Outside of all brackets everything is kept up to the next that opens. -/
theorem witnessFree_unopened {text : List Char} (unopened : '<' ∉ text) (part rest : List Char) :
    witnessFree [part] (text ++ rest) = witnessFree [text.reverse ++ part] rest := by
  induction text generalizing part with
  | nil => rfl
  | cons c text ih =>
    have other := List.ne_of_not_mem_cons unopened
    have kept : witnessFree [part] (c :: (text ++ rest)) = witnessFree [c :: part] (text ++ rest) := by
      by_cases closes : c = '>'
      · subst closes
        rfl
      · exact witnessFree_char ⟨other.symm, closes⟩ part [] _
    rw [List.cons_append, kept, ih (List.not_mem_of_not_mem_cons unopened), List.reverse_cons, List.append_assoc]
    rfl

/-- Brackets in pairs leave what was open before them open. -/
theorem exists_witnessFree_balanced {inside : List Char} (balanced : Balanced '<' '>' inside)
    (part : List Char) (outer : List (List Char)) :
    ∃ kept, ∀ rest, witnessFree (part :: outer) (inside ++ rest) = witnessFree (kept :: outer) rest := by
  induction balanced generalizing part outer with
  | nil => exact ⟨part, fun _ => rfl⟩
  | @char c _ plain _ ih =>
    obtain ⟨kept, same⟩ := ih (c :: part) outer
    refine ⟨kept, fun rest => ?_⟩
    rw [List.cons_append, witnessFree_char plain, same]
  | @group inside behind _ _ ih later =>
    obtain ⟨inner, closes⟩ := ih [] (part :: outer)
    obtain ⟨kept, same⟩ := later part outer
    refine ⟨kept, fun rest => ?_⟩
    rw [List.append_assoc, List.cons_append, witnessFree, closes, List.cons_append, witnessFree,
      ← same rest]
    rfl

theorem witnessFree_types (t : TypeArguments) (part : List Char) (outer : List (List Char))
    (rest : List Char) :
    witnessFree (part :: outer) (t.written ++ rest) = witnessFree (part :: outer) rest := by
  obtain ⟨inner, closes⟩ := exists_witnessFree_balanced t.balanced [] (part :: outer)
  rw [TypeArguments.written, List.append_assoc, List.cons_append, witnessFree, closes]
  rfl

theorem Receiver.not_mem_written (r : Receiver) : '<' ∉ r.written := by
  intro held
  rcases List.mem_append.mp held with within | separates
  · exact r.unopened within
  · revert separates
    cases r.separator <;> decide

theorem witnessFree_bare (c : Call) :
    witnessFree [[]] c.bare = (c.receiver.map Receiver.written).getD [] ++ c.name := by
  have unopened : '<' ∉ (c.receiver.map Receiver.written).getD [] := by
    cases c.receiver with
    | none => exact List.not_mem_nil
    | some r => exact r.not_mem_written
  have name : '<' ∉ c.name := fun held => (c.plain _ held).2 (by decide)
  have types (part : List Char) : witnessFree [part] c.core = witnessFree [part] c.name := by
    rw [Call.core]
    cases c.types with
    | none => rfl
    | some t => exact witnessFree_types t part [] c.name
  have ends := witnessFree_unopened name ((c.receiver.map Receiver.written).getD []).reverse []
  rw [List.append_nil] at ends
  rw [Call.bare, witnessFree_unopened unopened, types, List.append_nil, ends]
  simp [witnessFree]

/-! The receiver. -/

/-- A character at which no separator starts is part of a name, or of a receiver. -/
theorem withoutReceivers_cons {c : Char} {name rest : List Char} (period : c ≠ '.')
    (colons : c = ':' → rest.head? ≠ some ':') (arrow : c = '-' → rest.head? ≠ some '>') :
    withoutReceivers name (c :: rest) = withoutReceivers (c :: name) rest := by
  rw [withoutReceivers]
  · exact period
  · rintro behind rfl rfl
    exact colons rfl rfl
  · rintro behind rfl rfl
    exact arrow rfl rfl

/-- Everything up to a separator is a receiver. -/
theorem withoutReceivers_separated {text : List Char} (apart : text.getLast? ≠ some ':')
    (s : Separator) (name rest : List Char) :
    withoutReceivers name (text ++ (s.written ++ rest)) = withoutReceivers [] rest := by
  have behind {c : Char} {text : List Char} (apart : (c :: text).getLast? ≠ some ':') :
      text.getLast? ≠ some ':' := fun last => apart (by rw [List.getLast?_cons, last]; rfl)
  induction name, text using withoutReceivers.induct with
  | case1 name text ih => exact ih (behind apart)
  | case2 name text ih => exact ih (behind (behind apart))
  | case3 name text ih => exact ih (behind (behind apart))
  | case4 name c text period colons arrow ih =>
    rw [List.cons_append, withoutReceivers_cons period, ih (behind apart)]
    · rintro rfl
      cases text with
      | nil => exact absurd rfl apart
      | cons d text => exact fun next_ => colons text rfl (by rw [Option.some.inj next_])
    · rintro rfl
      cases text with
      | nil => cases s <;> simp [Separator.written]
      | cons d text => exact fun next_ => arrow text rfl (by rw [Option.some.inj next_])
  | case5 name => cases s <;> rfl

theorem withoutReceivers_name {part : List Char}
    (plain : ∀ c ∈ part, c ∉ ['.', ':', '-']) (name : List Char) :
    withoutReceivers name part = name.reverse ++ part := by
  induction part generalizing name with
  | nil => exact (List.append_nil _).symm
  | cons c part ih =>
    obtain ⟨first, others⟩ := List.forall_mem_cons.mp plain
    simp only [List.mem_cons, List.not_mem_nil, or_false, not_or] at first
    obtain ⟨period, colon, dash⟩ := first
    rw [withoutReceivers_cons period (absurd · colon) (absurd · dash), ih others]
    simp

/-- **The method that an invocation calls is the name in it**, whatever the receiver, the type arguments
and the arguments, and whatever blanks stand around the call and before its arguments. -/
theorem method_written {front behind : List Char} (c : Call) (leads : ∀ b ∈ front, isBlank b = true)
    (trails : ∀ b ∈ behind, isBlank b = true) :
    method (String.ofList (front ++ c.written ++ behind)) = String.ofList c.name := by
  have plain : ∀ letter ∈ c.name, letter ∉ ['.', ':', '-'] := fun letter held separates =>
    (c.plain letter held).2 (List.mem_append_left ['<', '>', '(', ')'] separates)
  have received : withoutReceivers [] ((c.started.receiver.map Receiver.written).getD [] ++ c.name) = c.name := by
    cases c.started.receiver with
    | none => exact withoutReceivers_name plain []
    | some r =>
      rw [Option.map_some, Option.getD_some, Receiver.written, List.append_assoc,
        withoutReceivers_separated r.apart, withoutReceivers_name plain]
      rfl
  have named : c.started.name = c.name := rfl
  have solid : trim c.name = c.name := trim_of_solid fun letter held => (c.plain letter held).1
  simp only [method, String.toList_ofList, trim_surrounded leads trails, c.trim_written,
    withoutArguments_written, witnessFree_bare, named, received, solid]

/-- A call on the result of another one, with separators and brackets among its arguments. -/
def Call.loading : Call where
  receiver := some ⟨"factory.dao(a -> b)".toList, by decide, by decide, .arrow⟩
  types := some ⟨"Map<K, V::X>".toList,
    .char (by decide) <| .char (by decide) <| .char (by decide) <|
      @Text.Balanced.group _ _ "K, V::X".toList []
        (.char (by decide) <| .char (by decide) <| .char (by decide) <| .char (by decide) <|
          .char (by decide) <| .char (by decide) <| .char (by decide) .nil)
        .nil⟩
  name := "load".toList
  named := by decide
  plain := by simp [isBlank]
  arguments := some ⟨[' '], by simp [isBlank], "x.f(<), y".toList,
    .char (by decide) <| .char (by decide) <| .char (by decide) <|
      @Text.Balanced.group _ _ ['<'] ", y".toList (.char (by decide) .nil)
        (.char (by decide) <| .char (by decide) <| .char (by decide) .nil)⟩

theorem method_written_loading :
    String.ofList (['\n'] ++ Call.loading.written ++ [' ']) =
        "\nfactory.dao(a -> b)-><Map<K, V::X>>load (x.f(<), y) " ∧
      method (String.ofList (['\n'] ++ Call.loading.written ++ [' '])) = "load" :=
  ⟨by decide, method_written Call.loading (by simp [isBlank]) (by simp [isBlank])⟩

end TableAccess.Invocation
