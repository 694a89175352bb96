import TableAccess.Mapper.Reading
import TableAccess.Proofs.Template.Tree

/-! Fragments that include each other. A body is texts with inclusions between them, each of which is
replaced by the body of its fragment, and so on inside that. The number of replacements around a part
is its depth; fragments may include themselves, so at some depth inclusions are kept as they are
written. If no chain of inclusions is as long as that, the result is the full expansion. Names in which
a quote stands are not read as a whole, so inclusions by such names are not among those that are
replaced. -/
namespace TableAccess.Fragment
open TableAccess.Text TableAccess.Template

/-- A part of a body: a text, or an element that includes the fragment of a name. Such an element is
closed by its tag or by a second one. -/
inductive Part where
  | text (chars : List Char) (absent : '<' ∉ chars)
  | inclusion (name : List Char) (unquoted : '"' ∉ name) (paired : Bool)

namespace Part

/-- What follows the name in an inclusion. -/
def ending (paired : Bool) : List Char := (if paired then "></include>" else "/>").toList

/-- A part as it is written. -/
def written : Part → List Char
  | text chars _ => chars
  | inclusion name _ paired => "<include refid=".toList ++ '"' :: (name ++ '"' :: ending paired)

/-- Whether the name in a part is read as it is written. -/
def Readable : Part → Prop
  | text _ _ => True
  | inclusion name _ _ => name ≠ [] ∧ '\'' ∉ name

instance decidableReadable : ∀ p : Part, Decidable p.Readable
  | .text _ _ => inferInstanceAs (Decidable True)
  | .inclusion name _ _ => inferInstanceAs (Decidable (name ≠ [] ∧ '\'' ∉ name))

end Part

/-- Parts as they are written one after the other. -/
def writtenAll (parts : List Part) : List Char := parts.flatMap Part.written

theorem writtenAll_cons (p : Part) (rest : List Part) :
    writtenAll (p :: rest) = p.written ++ writtenAll rest := rfl

theorem writtenAll_append (parts rest : List Part) :
    writtenAll (parts ++ rest) = writtenAll parts ++ writtenAll rest := List.flatMap_append

/-- The bodies of fragments, each with the name of its fragment. -/
abbrev Bodies := List (String × List Part)

namespace Bodies

/-- Fragments as they are written. -/
def written (bodies : Bodies) : List (String × List Char) :=
  bodies.map fun (name, body) => (name, writtenAll body)

/-- The body that is included by a name: that of the fragment that has the name, or else of the one
that has what stands behind the last period of it. -/
def included? (bodies : Bodies) (name : List Char) : Option (List Part) :=
  (bodies.lookup (String.ofList name)).or
    (bodies.lookup (String.ofList (name.reverse.takeWhile (· != '.')).reverse))

end Bodies

/-- Whether a part includes a fragment that is there. -/
def Part.Resolvable (bodies : Bodies) : Part → Prop
  | text _ _ => False
  | inclusion name _ _ => (bodies.included? name).isSome

/-- A blank text. -/
def Part.space : Part := .text [' '] (by decide)

theorem Part.written_space : space.written = [' '] := rfl

/-- What a body becomes at a depth when each inclusion of a known fragment is replaced by what the body
of the fragment becomes, between blanks. Every part of the result has its depth. At some depths
inclusions are not replaced. -/
inductive Expands (bodies : Bodies) (stops : Nat → Prop) :
    Nat → List Part → List (Nat × Part) → Prop where
  | nil {depth : Nat} : Expands bodies stops depth [] []
  | kept {depth : Nat} {p : Part} {rest : List Part} {result : List (Nat × Part)}
      (stays : p.Resolvable bodies → stops depth) (behind : Expands bodies stops depth rest result) :
      Expands bodies stops depth (p :: rest) ((depth, p) :: result)
  | replaced {depth : Nat} {name : List Char} {unquoted : '"' ∉ name} {paired : Bool}
      {body rest : List Part} {inside result : List (Nat × Part)}
      (known : bodies.included? name = some body) (goesOn : ¬ stops depth)
      (within : Expands bodies stops (depth + 1) body inside)
      (behind : Expands bodies stops depth rest result) :
      Expands bodies stops depth (.inclusion name unquoted paired :: rest)
        ((depth, .space) :: inside ++ (depth, .space) :: result)

/-- Whether there is a chain of inclusions that starts in a body and has some length, each in the body
that is included by the one before. -/
inductive HasChain (bodies : Bodies) : List Part → Nat → Prop where
  | nil {body : List Part} : HasChain bodies body 0
  | cons {body inner : List Part} {name : List Char} {unquoted : '"' ∉ name} {paired : Bool}
      {length : Nat} (mentioned : .inclusion name unquoted paired ∈ body)
      (known : bodies.included? name = some inner) (rest : HasChain bodies inner length) :
      HasChain bodies body (length + 1)

variable {bodies : Bodies} {stops : Nat → Prop} {body : List Part} {result other : List (Nat × Part)}
  {depth : Nat} {rest : List Char}

/-! How inclusions are found. -/

theorem opensWith_inclusion : inclusion.OpensWith '<' := by
  intro d rest other
  have fails : afterStart? "<include".toList (d :: rest) = none := by
    simp [afterStart?, Ne.symm other]
  simp only [inclusion, fails]
  rfl

private theorem inclusionEnd?_ending (paired : Bool) (rest : List Char) :
    inclusionEnd? (trimStart (Part.ending paired ++ rest)) = some rest := by
  cases paired <;> rfl

/-- An inclusion is found as it is written if its name can be read. -/
theorem inclusion_written {name : List Char} {unquoted : '"' ∉ name} {paired : Bool}
    (readable : (Part.inclusion name unquoted paired).Readable) (rest : List Char) :
    inclusion ((Part.inclusion name unquoted paired).written ++ rest) = some (name, rest) := by
  obtain ⟨nonempty, single⟩ := readable
  let quoted := name ++ '"' :: (Part.ending paired ++ rest)
  have opens : "<include refid=".toList = "<include".toList ++ ' ' :: ("refid".toList ++ ['=']) := by
    decide
  have whole : (Part.inclusion name unquoted paired).written ++ rest =
      "<include".toList ++ ' ' :: ("refid".toList ++ (['='] ++ '"' :: quoted)) := by
    change "<include refid=".toList ++ '"' :: (name ++ '"' :: Part.ending paired) ++ rest = _
    rw [opens]
    simp only [List.append_assoc, List.cons_append, quoted]
  have inName : ∀ c ∈ name, (!(c == '"' || c == '\'')) = true := by
    intro c member
    have double : c ≠ '"' := fun same => unquoted (same ▸ member)
    have apostrophe : c ≠ '\'' := fun same => single (same ▸ member)
    simp [double, apostrophe]
  have read : quoted.takeWhile (fun c => !(c == '"' || c == '\'')) = name :=
    takeWhile_run inName (by rintro c ⟨⟩; rfl)
  have behind : quoted.drop name.length = '"' :: (Part.ending paired ++ rest) := List.drop_left
  have refid : trimStart (' ' :: ("refid".toList ++ (['='] ++ '"' :: quoted))) =
      "refid".toList ++ (['='] ++ '"' :: quoted) := rfl
  have equals : trimStart (['='] ++ '"' :: quoted) = ['='] ++ '"' :: quoted := rfl
  have quote : trimStart ('"' :: quoted) = '"' :: quoted := rfl
  have blank : (((' ' :: ("refid".toList ++ (['='] ++ '"' :: quoted))).head?.map isBlank).getD false ==
      false) = false := rfl
  have named : (('"' == '"' || '"' == '\'') && !name.isEmpty) = true := by simp [nonempty]
  rw [whole, inclusion, afterStart?_append]
  simp only [Option.bind_eq_bind, Option.bind_some, blank, refid, afterStart?_append, equals, quote,
    read, behind, inclusionEnd?_ending, named, Bool.false_eq_true, if_false, if_true, Option.map_some]

theorem written_ne_nil (name : List Char) (unquoted : '"' ∉ name) (paired : Bool) :
    (Part.inclusion name unquoted paired).written ≠ [] :=
  List.append_ne_nil_of_left_ne_nil (by decide) _

/-! What is written for parts. -/

section
variable {body? : List Char → Option (List Char)} {rest : List Char}

theorem replaceFound_text {chars : List Char} (absent : '<' ∉ chars) :
    write.replaceFound body? (chars ++ rest) = chars ++ write.replaceFound body? rest := by
  refine replace_append (c := '<') ?_ absent rest
  intro d behind other
  simp only [opensWith_inclusion d behind other]
  rfl

/-- Something is written in place of an inclusion if there is something for its name. -/
theorem replaceFound_inclusion {name : List Char} {unquoted : '"' ∉ name} {paired : Bool}
    (readable : (Part.inclusion name unquoted paired).Readable) :
    write.replaceFound body? ((Part.inclusion name unquoted paired).written ++ rest) =
      (body? name).getD (Part.inclusion name unquoted paired).written ++
        write.replaceFound body? rest := by
  refine replace_of_nonempty (written_ne_nil name unquoted paired) ?_
  simp only [Option.bind_eq_bind, inclusion_written readable, Option.bind_some, List.length_append,
    Nat.add_sub_cancel, List.take_left]
  rfl

end

theorem find?_written (bodies : Bodies) (name : List Char) :
    find? bodies.written name = (bodies.included? name).map writtenAll := by
  have lookup (key : String) : bodies.written.lookup key = (bodies.lookup key).map writtenAll := by
    induction bodies with
    | nil => rfl
    | cons b bodies ih =>
      have written : Bodies.written (b :: bodies) = (b.1, writtenAll b.2) :: Bodies.written bodies := rfl
      rw [written, List.lookup_cons, List.lookup_cons, ih]
      split <;> rfl
  rw [find?, Option.orElse_eq_or, lookup, lookup, Bodies.included?, Option.map_or]

/-- Whether a part stands in a body or in a fragment that is included in it, directly or through
others. -/
inductive Reaches (bodies : Bodies) : List Part → Part → Prop where
  | here {body : List Part} {p : Part} (member : p ∈ body) : Reaches bodies body p
  | inside {body inner : List Part} {name : List Char} {unquoted : '"' ∉ name} {paired : Bool} {p : Part}
      (mentioned : .inclusion name unquoted paired ∈ body)
      (known : bodies.included? name = some inner) (there : Reaches bodies inner p) : Reaches bodies body p

/-- Whether the names in a body and in all that is included in it are read as they are written. -/
def Readable (bodies : Bodies) (body : List Part) : Prop := ∀ p, Reaches bodies body p → p.Readable

theorem Reaches.mono {more : List Part} {p : Part} (reaches : Reaches bodies body p)
    (subset : body ⊆ more) : Reaches bodies more p := by
  cases reaches with
  | here member => exact .here (subset member)
  | inside mentioned known there => exact .inside (subset mentioned) known there

theorem readable_of_forall (here : ∀ p ∈ body, p.Readable) (there : ∀ b ∈ bodies, ∀ p ∈ b.2, p.Readable) :
    Readable bodies body := by
  intro p reaches
  induction reaches with
  | here member => exact here _ member
  | inside _ known _ ih =>
    have held {key : String} {inner : List Part} (found : bodies.lookup key = some inner) :
        ∀ p ∈ inner, p.Readable := by
      obtain ⟨before, after, split, _⟩ := List.lookup_eq_some_iff.mp found
      exact there (key, inner) (by simp [split])
    exact ih ((Option.or_eq_some_iff.mp known).elim held fun later => held later.2)

/-! What inclusions become. -/

/-- Where nothing is replaced a body stays as it is. -/
theorem expands_self (stays : ∀ p ∈ body, p.Resolvable bodies → stops depth) :
    Expands bodies stops depth body (body.map (depth, ·)) := by
  induction body with
  | nil => exact .nil
  | cons p rest ih =>
    exact .kept (stays p List.mem_cons_self) (ih fun q member => stays q (List.mem_cons_of_mem p member))

/-- What a body is written as is what it becomes when as many replacements are made one inside the
other as may still be made. -/
theorem exists_expands {left limit : Nat} (readable : Readable bodies body)
    (reached : depth + left = limit) :
    ∃ result, Expands bodies (· = limit) depth body result ∧
      write bodies.written left (writtenAll body) = writtenAll (result.map Prod.snd) := by
  induction left generalizing depth body with
  | zero =>
    refine ⟨body.map (depth, ·), expands_self fun _ _ _ => reached, ?_⟩
    rw [List.map_map]
    exact congrArg writtenAll (List.map_id body).symm
  | succ left inner =>
    have goesOn : depth ≠ limit := by omega
    let body? := fun name => (find? bodies.written name).map fun body =>
      ' ' :: write bodies.written left body ++ [' ']
    change ∃ result, _ ∧ write.replaceFound body? (writtenAll body) = _
    -- The parts are replaced one after the other; what a fragment includes lies one level deeper.
    induction body with
    | nil => exact ⟨[], .nil, rfl⟩
    | cons p rest ih =>
      obtain ⟨result, behind, written⟩ := ih fun q reaches =>
        readable q (reaches.mono (List.subset_cons_self p rest))
      rw [writtenAll_cons]
      cases p with
      | text chars absent =>
        refine ⟨_, .kept (fun known => known.elim) behind, ?_⟩
        exact (replaceFound_text absent).trans (congrArg (chars ++ ·) written)
      | inclusion name unquoted paired =>
        rw [replaceFound_inclusion (readable _ (.here List.mem_cons_self)), written]
        cases known : bodies.included? name with
        | none =>
          have nothing : body? name = none := by simp only [body?, find?_written, known, Option.map_none]
          refine ⟨_, .kept (fun found => absurd found (by simp [Part.Resolvable, known])) behind, ?_⟩
          rw [nothing]
          rfl
        | some body =>
          have lower : Readable bodies body := fun q there =>
            readable q (.inside List.mem_cons_self known there)
          have reached' : depth + 1 + left = limit := by omega
          obtain ⟨inside, within, written'⟩ := inner lower reached'
          have something : body? name = some (' ' :: writtenAll (inside.map Prod.snd) ++ [' ']) := by
            simp only [body?, find?_written, known, Option.map_some, written']
          refine ⟨_, .replaced known goesOn within behind, ?_⟩
          rw [something, Option.getD_some]
          simp only [List.map_cons, List.map_append, writtenAll_cons, writtenAll_append, Part.written_space,
            List.cons_append, List.nil_append, List.append_assoc]

/-- A body becomes one thing only. -/
theorem Expands.unique (first : Expands bodies stops depth body result)
    (second : Expands bodies stops depth body other) : result = other := by
  induction first generalizing other with
  | nil =>
    cases second
    rfl
  | kept stays behind ih =>
    cases second with
    | kept _ behind' => rw [ih behind']
    | replaced known goesOn _ _ => exact absurd (stays (by simp [Part.Resolvable, known])) goesOn
  | replaced known goesOn within behind ihWithin ihBehind =>
    cases second with
    | kept stays _ => exact absurd (stays (by simp [Part.Resolvable, known])) goesOn
    | replaced known' _ within' behind' =>
      obtain rfl := Option.some.inj (known.symm.trans known')
      rw [ihWithin within', ihBehind behind']

theorem Expands.eq_iff (expands : Expands bodies stops depth body result) (other : List (Nat × Part)) :
    Expands bodies stops depth body other ↔ other = result :=
  ⟨fun another => another.unique expands, fun same => same ▸ expands⟩

/-- A part that could be replaced is left only at a depth where replacing stops. -/
theorem Expands.stops_of_mem (expands : Expands bodies stops depth body result) :
    ∀ left ∈ result, left.2.Resolvable bodies → stops left.1 := by
  induction expands with
  | nil => exact List.forall_mem_nil _
  | kept stays _ ih => exact List.forall_mem_cons.mpr ⟨stays, ih⟩
  | replaced _ _ _ _ ihWithin ihBehind =>
    have blank {depth : Nat} : (depth, Part.space).2.Resolvable bodies → stops depth := False.elim
    refine List.forall_mem_cons.mpr ⟨blank, fun left member => ?_⟩
    rcases List.mem_append.mp member with inside | behind
    · exact ihWithin left inside
    · exact List.forall_mem_cons.mpr ⟨blank, ihBehind⟩ left behind

theorem HasChain.mono {more : List Part} {length : Nat} (chain : HasChain bodies body length)
    (subset : body ⊆ more) : HasChain bodies more length := by
  cases chain with
  | nil => exact .nil
  | cons mentioned known rest => exact .cons (subset mentioned) known rest

theorem hasChain_one {p : Part} (member : p ∈ body) (known : p.Resolvable bodies) :
    HasChain bodies body 1 := by
  cases p with
  | text chars absent => exact known.elim
  | inclusion name unquoted paired =>
    obtain ⟨inner, found⟩ := Option.isSome_iff_exists.mp known
    exact .cons member found .nil

/-- Chains in a body are by one longer than those in what it includes. -/
theorem HasChain.le_add_one {length : Nat} (chain : HasChain bodies body length) (bound : Nat)
    (inner : ∀ name unquoted paired, .inclusion name unquoted paired ∈ body →
      ∀ included, bodies.included? name = some included →
        ∀ length, HasChain bodies included length → length ≤ bound) : length ≤ bound + 1 := by
  cases chain with
  | nil => exact Nat.zero_le _
  | cons mentioned known rest => exact Nat.succ_le_succ (inner _ _ _ mentioned _ known _ rest)

theorem HasChain.le_zero {length : Nat} (chain : HasChain bodies body length)
    (none : ∀ p ∈ body, ¬ p.Resolvable bodies) : length ≤ 0 := by
  cases chain with
  | nil => exact Nat.le_refl 0
  | cons mentioned known _ => exact absurd (by simp [Part.Resolvable, known]) (none _ mentioned)

/-- If no chain of inclusions goes beyond the depth at which replacing stops, it stops nowhere. -/
theorem Expands.whole {limit : Nat} (expands : Expands bodies (· = limit) depth body result)
    (short : ∀ length, HasChain bodies body length → depth + length ≤ limit) :
    Expands bodies (fun _ => False) depth body result := by
  induction expands with
  | nil => exact .nil
  | @kept depth p rest result stays behind ih =>
    refine .kept (fun known => ?_) (ih fun length chain =>
      short length (chain.mono (List.subset_cons_self p rest)))
    -- A part that could be replaced here would be one inclusion more than a chain may have.
    have one : HasChain bodies (p :: rest) 1 := hasChain_one List.mem_cons_self known
    have reached : depth = limit := stays known
    have bound := short 1 one
    omega
  | @replaced depth name unquoted paired body rest inside result known _ _ _ ihWithin ihBehind =>
    refine .replaced known not_false (ihWithin fun length chain => ?_) (ihBehind fun length chain =>
      short length (chain.mono (List.subset_cons_self _ rest)))
    have bound := short (length + 1) (.cons List.mem_cons_self known chain)
    omega

/-- Inclusions are replaced eight deep, and what could still be replaced lies at that depth. If no
chain of inclusions that starts in a body is longer, all are replaced. -/
theorem write_expands (readable : Readable bodies body) :
    (∃ result, (∀ other, Expands bodies (· = 8) 0 body other ↔ other = result) ∧
      write bodies.written depthLimit (writtenAll body) = writtenAll (result.map Prod.snd) ∧
      ∀ left ∈ result, left.2.Resolvable bodies → left.1 = 8) ∧
    ((∀ length, HasChain bodies body length → length ≤ 8) →
      ∃ result, (∀ other, Expands bodies (fun _ => False) 0 body other ↔ other = result) ∧
        write bodies.written depthLimit (writtenAll body) = writtenAll (result.map Prod.snd) ∧
        ∀ left ∈ result, ¬ left.2.Resolvable bodies) := by
  have reached : 0 + depthLimit = 8 := rfl
  obtain ⟨result, expands, written⟩ := exists_expands readable reached
  refine ⟨⟨result, expands.eq_iff, written, expands.stops_of_mem⟩, fun short => ?_⟩
  have whole := expands.whole fun length chain => (Nat.zero_add length).trans_le (short length chain)
  exact ⟨result, whole.eq_iff, written, whole.stops_of_mem⟩

/-- A fragment that includes another one, which is known by the last part of its name. -/
def nested : Bodies :=
  [("columns", [.text "a, ".toList (by decide), .inclusion "shared.rest".toList (by decide) true]),
    ("rest", [.text "b".toList (by decide)])]

/-- A body that includes all of it. -/
def outermost : List Part := [.inclusion "columns".toList (by decide) false]

theorem write_expands_nested :
    Readable nested outermost ∧ (∀ length, HasChain nested outermost length → length ≤ 8) ∧
    (∀ result, Expands nested (· = 8) 0 outermost result →
      ∀ left ∈ result, left.2.Resolvable nested → left.1 = 8) ∧
    ∃ result, Expands nested (fun _ => False) 0 outermost result ∧
      write nested.written depthLimit (writtenAll outermost) = writtenAll (result.map Prod.snd) := by
  have columns : nested.included? "columns".toList =
      some [.text "a, ".toList (by decide), .inclusion "shared.rest".toList (by decide) true] := rfl
  have rest : nested.included? "shared.rest".toList = some [.text "b".toList (by decide)] := rfl
  have readable : Readable nested outermost := readable_of_forall (by decide) (by decide)
  have short : ∀ length, HasChain nested outermost length → length ≤ 8 := by
    intro length chain
    refine (chain.le_add_one 1 ?_).trans (by decide)
    intro name unquoted paired mentioned included found length chain
    obtain ⟨rfl, _⟩ := Part.inclusion.inj (List.mem_singleton.mp mentioned)
    obtain rfl := Option.some.inj (columns.symm.trans found)
    refine chain.le_add_one 0 ?_
    intro name unquoted paired mentioned included found length chain
    obtain ⟨rfl, _⟩ := Part.inclusion.inj
      (List.mem_singleton.mp (List.mem_of_ne_of_mem Part.noConfusion mentioned))
    obtain rfl := Option.some.inj (rest.symm.trans found)
    exact chain.le_zero (List.forall_mem_singleton.mpr id)
  obtain ⟨⟨eight, same, _, deep⟩, whole⟩ := write_expands readable
  obtain ⟨result, all, written, _⟩ := whole short
  exact ⟨readable, short, fun other expands => (same other).mp expands ▸ deep, result,
    (all result).mpr rfl, written⟩

/-- An inclusion whose name has an apostrophe is not replaced. -/
theorem inclusion_left_for_apostrophe : ¬ ∀ (bodies : Bodies) (body : List Part),
    (∀ length, HasChain bodies body length → length ≤ 8) →
    ∃ result, Expands bodies (fun _ => False) 0 body result ∧
      write bodies.written depthLimit (writtenAll body) = writtenAll (result.map Prod.snd) := by
  intro whole
  let text : Part := .text "a, b".toList (by decide)
  let bodies : Bodies := [("it's", [text])]
  let body : List Part := [.inclusion "it's".toList (by decide) false]
  have known : bodies.included? "it's".toList = some [text] := rfl
  have short : ∀ length, HasChain bodies body length → length ≤ 8 := by
    intro length chain
    refine (chain.le_add_one 0 ?_).trans (by decide)
    intro name unquoted paired mentioned included found length rest
    obtain ⟨rfl, _⟩ := Part.inclusion.inj (List.mem_singleton.mp mentioned)
    obtain rfl := Option.some.inj (known.symm.trans found)
    exact rest.le_zero (List.forall_mem_singleton.mpr id)
  obtain ⟨result, expands, written⟩ := whole bodies body short
  have expected : Expands bodies (fun _ => False) 0 body [(0, .space), (1, text), (0, .space)] :=
    .replaced known id (.kept False.elim .nil) .nil
  rw [expands.unique expected] at written
  revert written
  decide

end TableAccess.Fragment
