import TableAccess.Proofs.Lineage.JoinedRecords
import TableAccess.Proofs.Lineage.MethodNames
import TableAccess.Proofs.Template.Scanning
import Mathlib.Data.List.TakeWhile
import Mathlib.Logic.Function.Iterate

/-! What is left of an invocation is a bare name. Type arguments are taken off in rounds, all those at once
that have none inside. This can bring together what stood around them, to other type arguments or to a
separator that was not there before; but each round shortens the text, and the pass that keeps the open
brackets on a stack comes to the text in which no round finds any. The receivers are taken off only then,
and no separator is left behind the last one. So a method that is called has a name without a period, and
in its name with its class the last period is the one that separates the two. -/
namespace TableAccess.Invocation
open TableAccess.Text

variable {text rest inside after part : List Char} {outer : List (List Char)} {c : Char}

/-! Type arguments, round by round. -/

/-- Type arguments with no brackets inside: what is between theirs, and what follows. -/
def witness : Pattern (List Char)
  | '<' :: rest =>
    match rest.dropWhile fun c => c != '<' && c != '>' with
    | '>' :: after => some (rest.takeWhile fun c => c != '<' && c != '>', after)
    | _ => none
  | _ => none

/-- Whether a text has no angle brackets. -/
def Unbracketed (text : List Char) : Prop := ∀ c ∈ text, c ≠ '<' ∧ c ≠ '>'

/-- Whether a text has type arguments in it with no brackets inside. -/
def HasWitness (text : List Char) : Prop :=
  ∃ inside, Unbracketed inside ∧ '<' :: inside ++ ['>'] <:+: text

/-- One round: all type arguments with no brackets inside are taken off. -/
def withoutWitnesses (text : List Char) : List Char := replace witness (fun _ => []) text

/-- Whether there is nothing more to take off after just so many rounds. -/
structure EndsAfter (n : Nat) (text left : List Char) : Prop where
  going : ∀ m < n, HasWitness (withoutWitnesses^[m] text)
  finished : ¬ HasWitness left
  result : withoutWitnesses^[n] text = left

theorem witness_append (plain : Unbracketed inside) (after : List Char) :
    witness ('<' :: inside ++ '>' :: after) = some (inside, after) := by
  have within : ∀ c ∈ inside, (c != '<' && c != '>') = true := by
    simpa [Unbracketed] using plain
  have ends : ∀ c ∈ ('>' :: after).head?, (c != '<' && c != '>') = false := by simp
  simp only [List.cons_append, witness, dropWhile_run within ends, takeWhile_run within ends]

theorem of_witness (found : witness text = some (inside, after)) :
    text = '<' :: inside ++ '>' :: after ∧ Unbracketed inside := by
  unfold witness at found
  split at found
  · next rest =>
    split at found
    · next behind stopped =>
      obtain ⟨rfl, rfl⟩ := Prod.mk.inj (Option.some.inj found)
      refine ⟨?_, fun c held => by simpa using List.mem_takeWhile_imp held⟩
      rw [← stopped, List.cons_append, List.takeWhile_append_dropWhile]
    · cases found
  · cases found

/-- Along a text, type arguments come off whole, and where none start a character stays. -/
theorem witness_induction {motive : List Char → Prop} (nil : motive [])
    (taken : ∀ inside after, Unbracketed inside → motive after →
      motive ('<' :: inside ++ '>' :: after))
    (kept : ∀ c rest, witness (c :: rest) = none → motive rest → motive (c :: rest))
    (text : List Char) : motive text := by
  refine Pattern.places_induction witness (fun text inside after found => ?_) nil kept
    (fun text inside after found behind => ?_) text
  · obtain ⟨rfl, _⟩ := of_witness found
    simp only [List.length_append, List.length_cons]
    omega
  · obtain ⟨rfl, plain⟩ := of_witness found
    exact taken inside after plain behind

theorem not_hasWitness_nil : ¬ HasWitness [] := by
  rintro ⟨inside, _, held⟩
  cases List.infix_nil.mp held

theorem HasWitness.mono (has : HasWitness part) (within : part <:+: text) : HasWitness text := by
  obtain ⟨inside, plain, held⟩ := has
  exact ⟨inside, plain, held.trans within⟩

/-- Where no type arguments start, those that a text has are further on. -/
theorem HasWitness.of_cons (has : HasWitness (c :: rest)) (missed : witness (c :: rest) = none) :
    HasWitness rest := by
  obtain ⟨inside, plain, held⟩ := has
  rcases List.infix_cons_iff.mp held with ⟨after, here⟩ | later
  · rw [List.append_assoc] at here
    rw [← here] at missed
    cases missed.symm.trans (witness_append plain after)
  · exact ⟨inside, plain, later⟩

theorem hasWitness_iff (text : List Char) : HasWitness text ↔ (firstPlace? witness text).isSome = true := by
  constructor
  · intro has
    induction text using witness_induction with
    | nil => exact absurd has not_hasWitness_nil
    | taken inside after plain _ =>
      have found := witness_append plain after
      rw [List.cons_append] at found ⊢
      simp only [firstPlace?, found, Option.isSome_some]
    | kept c rest missed ih =>
      have later := ih (has.of_cons missed)
      simp only [firstPlace?, missed, Option.isSome_map, later]
  · intro found
    obtain ⟨⟨before, inside, after⟩, place⟩ := Option.isSome_iff_exists.mp found
    obtain ⟨behind, rfl, here⟩ := of_firstPlace? place
    obtain ⟨rfl, plain⟩ := of_witness here
    exact ⟨inside, plain, before, after, by simp⟩

instance (text : List Char) : Decidable (HasWitness text) :=
  decidable_of_iff _ (hasWitness_iff text).symm

theorem withoutWitnesses_taken (plain : Unbracketed inside) (after : List Char) :
    withoutWitnesses ('<' :: inside ++ '>' :: after) = withoutWitnesses after := by
  have whole : '<' :: inside ++ '>' :: after = '<' :: (inside ++ ['>']) ++ after := by simp
  have found := witness_append plain after
  rw [whole] at found ⊢
  exact replace_of_some found

theorem withoutWitnesses_kept (missed : witness (c :: rest) = none) :
    withoutWitnesses (c :: rest) = c :: withoutWitnesses rest :=
  replace_cons_of_none missed

theorem length_withoutWitnesses_le (text : List Char) : (withoutWitnesses text).length ≤ text.length := by
  induction text using witness_induction with
  | nil => exact le_rfl
  | taken inside after plain ih =>
    rw [withoutWitnesses_taken plain]
    simp only [List.length_append, List.length_cons]
    omega
  | kept c rest missed ih =>
    rw [withoutWitnesses_kept missed]
    exact Nat.succ_le_succ ih

/-- A round that finds type arguments takes both of their brackets away. -/
theorem HasWitness.length_le (has : HasWitness text) :
    (withoutWitnesses text).length + 2 ≤ text.length := by
  induction text using witness_induction with
  | nil => exact absurd has not_hasWitness_nil
  | taken inside after plain _ =>
    have := length_withoutWitnesses_le after
    rw [withoutWitnesses_taken plain]
    simp only [List.length_append, List.length_cons]
    omega
  | kept c rest missed ih =>
    have := ih (has.of_cons missed)
    rw [withoutWitnesses_kept missed, List.length_cons, List.length_cons]
    omega

/-- What is between brackets may be longer. -/
theorem HasWitness.widen (has : HasWitness ('<' :: rest)) (plain : c ≠ '<' ∧ c ≠ '>') :
    HasWitness ('<' :: c :: rest) := by
  obtain ⟨inside, others, held⟩ := has
  rcases List.infix_cons_iff.mp held with ⟨after, here⟩ | later
  · obtain ⟨_, rfl⟩ := List.cons.inj here
    exact ⟨c :: inside, List.forall_mem_cons.mpr ⟨plain, others⟩, [], after, rfl⟩
  · exact ⟨inside, others, later.trans (List.suffix_append ['<', c] rest).isInfix⟩

/-! The pass with a stack. -/

/-- A character changes only what is open, whatever follows it. -/
theorem exists_witnessFree_cons (c : Char) (part : List Char) (outer : List (List Char)) :
    ∃ part' outer', ∀ rest,
      witnessFree (part :: outer) (c :: rest) = witnessFree (part' :: outer') rest := by
  by_cases opens : c = '<'
  · subst opens
    exact ⟨[], part :: outer, fun _ => rfl⟩
  by_cases closes : c = '>'
  · subst closes
    cases outer with
    | nil => exact ⟨'>' :: part, [], fun _ => rfl⟩
    | cons part' outer => exact ⟨part', outer, fun _ => rfl⟩
  · exact ⟨c :: part, outer, witnessFree_char ⟨opens, closes⟩ part outer⟩

/-- A round before the pass makes no difference to what the pass leaves. -/
theorem witnessFree_withoutWitnesses (part : List Char) (outer : List (List Char)) (text : List Char) :
    witnessFree (part :: outer) (withoutWitnesses text) = witnessFree (part :: outer) text := by
  induction text using witness_induction generalizing part outer with
  | nil => rfl
  | taken inside after plain ih =>
    rw [withoutWitnesses_taken plain, ih]
    have := witnessFree_types ⟨inside, .of_plain plain⟩ part outer after
    simpa [TypeArguments.written] using this.symm
  | kept c rest missed ih =>
    obtain ⟨part', outer', same⟩ := exists_witnessFree_cons c part outer
    rw [withoutWitnesses_kept missed, same, same, ih]

/-- The pass takes nothing off where no round would, neither in the text nor from an open bracket on. -/
theorem witnessFree_of_absent (absent : ¬ HasWitness text)
    (unclosed : outer = [] ∨ ¬ HasWitness ('<' :: text)) (part : List Char) :
    witnessFree (part :: outer) text = (((part :: outer).intersperse ['<']).flatten).reverse ++ text := by
  induction text generalizing part outer with
  | nil => simp [witnessFree]
  | cons c rest ih =>
    have later : ¬ HasWitness rest := fun has => absent (has.mono (List.suffix_cons c rest).isInfix)
    by_cases opens : c = '<'
    · subst opens
      rw [witnessFree, ih later (.inr absent)]
      simp
    by_cases closes : c = '>'
    · -- With a bracket open it would close a group, and that one would be found from the bracket on.
      subst closes
      rcases unclosed with rfl | unclosed
      · rw [witnessFree, closeWitness, ih later (.inl rfl)]
        simp
      · exact absurd ⟨[], List.forall_mem_nil _, (List.prefix_append ['<', '>'] rest).isInfix⟩ unclosed
    · have plain : c ≠ '<' ∧ c ≠ '>' := ⟨opens, closes⟩
      have stays : outer = [] ∨ ¬ HasWitness ('<' :: rest) :=
        unclosed.imp_right fun unclosed has => unclosed (has.widen plain)
      rw [witnessFree_char plain, ih later stays]
      cases outer <;> simp

/-- The rounds come to an end, and it is the one that the pass comes to. -/
theorem exists_endsAfter (text : List Char) :
    ∃ n, 2 * n + (witnessFree [[]] text).length ≤ text.length ∧
      EndsAfter n text (witnessFree [[]] text) := by
  induction size : text.length using Nat.strong_induction_on generalizing text with
  | _ bound ih =>
    subst size
    by_cases has : HasWitness text
    · have shorter := has.length_le
      obtain ⟨n, fewer, ends⟩ := ih _ (by omega) (withoutWitnesses text) rfl
      rw [witnessFree_withoutWitnesses] at fewer ends
      refine ⟨n + 1, by omega, fun m less => ?_, ends.finished, ends.result⟩
      cases m with
      | zero => exact has
      | succ m => exact ends.going m (Nat.lt_of_succ_lt_succ less)
    · have same : witnessFree [[]] text = text := witnessFree_of_absent has (.inl rfl) []
      rw [same]
      exact ⟨0, by omega, fun m less => absurd less (Nat.not_lt_zero m), has, rfl⟩

/-- What stands around type arguments becomes a separator when they are gone. -/
example : EndsAfter 2 "dao-<K<V>>>find".toList "dao->find".toList :=
  ⟨by decide, by decide, by decide⟩

theorem not_hasWitness_witnessFree (text : List Char) : ¬ HasWitness (witnessFree [[]] text) := by
  obtain ⟨_, _, ends⟩ := exists_endsAfter text
  exact ends.finished

/-! Receivers. -/

theorem withoutReceivers_suffix (name rest : List Char) :
    withoutReceivers name rest <:+ name.reverse ++ rest := by
  induction name, rest using withoutReceivers.induct with
  | case1 name rest ih => exact ih.trans ⟨name.reverse ++ ['.'], by simp⟩
  | case2 name rest ih => exact ih.trans ⟨name.reverse ++ [':', ':'], by simp⟩
  | case3 name rest ih => exact ih.trans ⟨name.reverse ++ ['-', '>'], by simp⟩
  | case4 name c rest period colons arrow ih =>
    rw [withoutReceivers]
    · simpa using ih
    · exact period
    · exact colons
    · exact arrow
  | case5 name => simp [withoutReceivers]

/-- No separator is left, since none begins in what stands behind the last one. -/
theorem withoutReceivers_unseparated {name rest : List Char}
    (behind : ∀ (s : Separator) (front after : List Char),
      name.reverse ++ rest = front ++ (s.written ++ after) → name.length ≤ front.length)
    (s : Separator) : ¬ s.written <:+: withoutReceivers name rest := by
  induction name, rest using withoutReceivers.induct with
  | case1 name rest ih => exact ih fun _ _ _ _ => Nat.zero_le _
  | case2 name rest ih => exact ih fun _ _ _ _ => Nat.zero_le _
  | case3 name rest ih => exact ih fun _ _ _ _ => Nat.zero_le _
  | case4 name c rest period colons arrow ih =>
    rw [withoutReceivers]
    · refine ih fun s front after split => ?_
      rw [List.reverse_cons, List.append_assoc] at split
      refine Nat.lt_of_le_of_ne (behind s front after split) fun same => ?_
      have here := (List.append_inj split (by simpa using same)).2
      cases s with
      | period => exact period (List.cons.inj here).1
      | colons => exact colons after (List.cons.inj here).1 (List.cons.inj here).2
      | arrow => exact arrow after (List.cons.inj here).1 (List.cons.inj here).2
    · exact period
    · exact colons
    · exact arrow
  | case5 name =>
    rintro ⟨front, after, split⟩
    have begins := behind s front after (by simpa [withoutReceivers] using split.symm)
    have length := congrArg List.length split
    rw [withoutReceivers] at length
    have some_ : 0 < s.written.length := by cases s <;> decide
    simp only [List.length_append, List.length_reverse] at length
    omega

/-! The name. -/

/-- Whether a name has nothing that stands around the name of a method where it is called. -/
structure Bare (name : List Char) : Prop where
  unseparated : ∀ s : Separator, ¬ s.written <:+: name
  untyped : ¬ HasWitness name
  starts : ∀ c ∈ name.head?, isBlank c = false
  ends : ∀ c ∈ name.getLast?, isBlank c = false

theorem bare_method (invocation : String) : Bare (method invocation).toList := by
  rw [method, String.toList_ofList]
  set text := withoutArguments (trim invocation.toList)
  have within : trim (withoutReceivers [] (witnessFree [[]] text)) <:+:
      withoutReceivers [] (witnessFree [[]] text) := trim_part _
  have last : withoutReceivers [] (witnessFree [[]] text) <:+ witnessFree [[]] text :=
    withoutReceivers_suffix [] _
  exact {
    unseparated := fun s held =>
      withoutReceivers_unseparated (fun _ _ _ _ => Nat.zero_le _) s (held.trans within)
    untyped := fun has => not_hasWitness_witnessFree text (has.mono (within.trans last.isInfix))
    starts := head?_trim _
    ends := getLast?_trim _ }

theorem Bare.not_mem {name : List Char} (bare : Bare name) : '.' ∉ name := by
  intro held
  obtain ⟨front, after, rfl⟩ := List.append_of_mem held
  exact bare.unseparated .period ⟨front, after, by simp [Separator.written]⟩

end TableAccess.Invocation

namespace TableAccess
open TableAccess.Text TableAccess.Invocation

/-- The last period of a name separates: what stands around it is told by the name as a whole. -/
theorem eq_of_dotted {owner name owner' name' : String} (absent : '.' ∉ name.toList)
    (absent' : '.' ∉ name'.toList) (same : owner ++ "." ++ name = owner' ++ "." ++ name') :
    owner = owner' ∧ name = name' := by
  have backwards : name.toList.reverse ++ '.' :: owner.toList.reverse =
      name'.toList.reverse ++ '.' :: owner'.toList.reverse := by
    simpa using congrArg (fun whole : String => whole.toList.reverse) same
  have split := splitAt?_char (fun held => absent (List.mem_reverse.mp held)) owner.toList.reverse
  rw [backwards, splitAt?_char fun held => absent' (List.mem_reverse.mp held)] at split
  obtain ⟨sameName, sameOwner⟩ := Prod.mk.inj (Option.some.inj split)
  exact ⟨String.toList_inj.mp (List.reverse_inj.mp sameOwner.symm),
    String.toList_inj.mp (List.reverse_inj.mp sameName.symm)⟩

namespace Joiner
variable {j : Joiner} {invocation : String} {m : DaoMethod} {logic : List LogicMethod} {r : LineageRecord}

theorem bare_of_mem_candidates (called : m ∈ j.candidates invocation) : Bare m.method.toList := by
  rw [eq_of_beq (List.mem_filter.mp called).2]
  exact bare_method invocation

theorem bare_of_mem_records (member : r ∈ (j.join logic).records) : Bare r.daoMethod.toList := by
  obtain ⟨_, m, found, described⟩ := mem_records_iff.mp member
  obtain ⟨_, _, calls⟩ := firstCalled?_eq_some found
  have named : r.daoMethod = Invocation.method r.invoked :=
    (congrArg LineageRecord.daoMethod described).symm.trans calls.named
  rw [named]
  exact bare_method r.invoked

/-- **The name that an invocation comes to is bare.** Taking type arguments off ends, whatever the text, with
what the pass over it leaves; no separator, no type arguments and no blanks at the ends are in the name that
is left. So a method with a separator in its name is never called, and the methods that are called, by one
invocation or by several, are known by their names with their classes, as are those in the records. -/
theorem names_bare (j : Joiner) :
    (∀ text, ∃ n, 2 * n + (witnessFree [[]] text).length ≤ text.length ∧
      EndsAfter n text (witnessFree [[]] text)) ∧
    (∀ invocation, Bare (method invocation).toList) ∧
    (∀ (m : DaoMethod) (s : Separator), s.written <:+: m.method.toList →
      ∀ invocation, m ∉ j.candidates invocation) ∧
    (∀ invocation invocation', ∀ m ∈ j.candidates invocation, ∀ other ∈ j.candidates invocation',
      m.qualifiedName = other.qualifiedName → m.daoClass = other.daoClass ∧ m.method = other.method) ∧
    ∀ logic, ∀ r ∈ (j.join logic).records, ∀ other ∈ (j.join logic).records,
      r.key.dao = other.key.dao → r.daoClass = other.daoClass ∧ r.daoMethod = other.daoMethod := by
  refine ⟨exists_endsAfter, bare_method, fun m s held invocation called => ?_, ?_, ?_⟩
  · exact (bare_of_mem_candidates called).unseparated s held
  · intro _ _ m called other called' same
    exact eq_of_dotted (bare_of_mem_candidates called).not_mem (bare_of_mem_candidates called').not_mem same
  · intro logic r member other member' same
    exact eq_of_dotted (bare_of_mem_records member).not_mem (bare_of_mem_records member').not_mem same

/-- A method of a class in a package. -/
def packagedFind : DaoMethod := ⟨"example.UserDao", "find", ⟨"UserMapper", "find"⟩, .read, ["id"]⟩

/-- The same method for another statement. -/
def packagedFindAll : DaoMethod := ⟨"example.UserDao", "find", ⟨"UserMapper", "findAll"⟩, .read, []⟩

/-- A declaration that reads the same with its class, since a period is in the name of its method. -/
def dottedFind : DaoMethod := ⟨"example", "UserDao.find", ⟨"UserMapper", "find"⟩, .read, ["id"]⟩

/-- What a join is given where declarations read the same. -/
def dottedNames : Joiner where
  methods := [dottedFind, packagedFind, packagedFindAll]
  statements := []
  parameters := []

/-- Logic that calls the method twice, once so that taking type arguments off makes the separator. -/
def findingLogic : List LogicMethod :=
  [⟨"UserLogic", "load", ["dao-<K<V>>>find(id)", "UserDao::find"]⟩]

theorem names_bare_dottedNames :
    (dottedFind.qualifiedName = packagedFind.qualifiedName ∧
      ∀ invocation, dottedFind ∉ dottedNames.candidates invocation) ∧
    (packagedFind ∈ dottedNames.candidates "dao-<K<V>>>find(id)" ∧
      packagedFindAll ∈ dottedNames.candidates "UserDao::find" ∧
      packagedFind.qualifiedName = packagedFindAll.qualifiedName ∧
      packagedFind.daoClass = packagedFindAll.daoClass ∧ packagedFind.method = packagedFindAll.method) ∧
    ∃ r ∈ (dottedNames.join findingLogic).records, ∃ other ∈ (dottedNames.join findingLogic).records,
      (r.invoked ≠ other.invoked ∧ r.key.dao = other.key.dao) ∧
        r.daoClass = other.daoClass ∧ r.daoMethod = other.daoMethod := by
  obtain ⟨_, _, uncalled, known, recorded⟩ := names_bare dottedNames
  have separated : Separator.period.written <:+: dottedFind.method.toList :=
    ⟨"UserDao".toList, "find".toList, by decide⟩
  have called : packagedFind ∈ dottedNames.candidates "dao-<K<V>>>find(id)" := by decide +kernel
  have called' : packagedFindAll ∈ dottedNames.candidates "UserDao::find" := by decide +kernel
  have rivals : ∃ r ∈ (dottedNames.join findingLogic).records,
      ∃ other ∈ (dottedNames.join findingLogic).records,
        r.invoked ≠ other.invoked ∧ r.key.dao = other.key.dao := by decide +kernel
  obtain ⟨r, member, other, member', apart, same⟩ := rivals
  exact ⟨⟨by decide +kernel, uncalled dottedFind .period separated⟩,
    ⟨called, called', rfl, known _ _ _ called _ called' rfl⟩,
    r, member, other, member', ⟨apart, same⟩, recorded _ r member other member' same⟩

end Joiner
end TableAccess
