import TableAccess.Proofs.Template.Passage

/-! The passes over choices and loops. Both look for an opening tag and take the first closing tag
behind it. So they agree with what a passage stands for as long as no choice stands within a choice
and no loop within a loop, however deep the others are nested. Where one does, the closing tag of the
inner element ends the outer one: a choice then keeps what stands behind its first branch. -/
namespace TableAccess.Template
open TableAccess.Text

variable {part : List Char}

/-- The pass over choices. -/
def choicePass (text : List Char) : List Char :=
  replace (element choiceOpening ["choose"]) (fun (_, body) => branch body) text

/-- The pass over loops. -/
def loopPass (text : List Char) : List Char :=
  replace (element (opening true ["foreach"]) ["foreach"])
    (fun ((_, attributes), body) => round attributes body) text

/-- The pass over the tags of conditions. -/
def conditionPass (text : List Char) : List Char :=
  replace (tagOf ["if", "when", "otherwise", "include", "bind", "property"]) (fun _ => [' ']) text

private theorem pass_of_append {pass : List Char → List Char} {text text' : List Char}
    (nothing : pass [] = []) (within : ∀ rest, pass (text ++ rest) = text' ++ pass rest) :
    pass text = text' := by
  have whole := within []
  rwa [List.append_nil, nothing, List.append_nil] at whole

/-! Choices. -/

/-- A passage without choices stands as it is written. -/
theorem Passage.decided_written : (p : Passage) → TagKind.choice ∉ p.tree.kinds →
    p.decided.written PartKind.name = p.written
  | .nil, _ => rfl
  | .text t rest, none_ => congrArg (t.chars ++ ·) (rest.decided_written none_)
  | .condition attributes body rest, none_ => by
    simp only [tree, Tree.kinds, List.mem_append, List.mem_cons, not_or] at none_
    have inside := body.decided_written none_.1.2
    have behind := rest.decided_written none_.2
    simp only [written, Tree.written, Tree.tagged, decided, tree, Tree.render] at inside behind ⊢
    rw [inside, behind]
    rfl
  | .loop attributes body rest, none_ => by
    simp only [tree, Tree.kinds, List.mem_append, List.mem_cons, not_or] at none_
    have inside := body.decided_written none_.1.2
    have behind := rest.decided_written none_.2
    simp only [written, Tree.written, Tree.tagged, decided, tree, Tree.render] at inside behind ⊢
    rw [inside, behind]
    rfl
  | .choice branches rest, none_ => absurd List.mem_cons_self none_

/-- What looks for closing tags of other elements misses a passage without choices. -/
theorem Passage.misses_closing (p : Passage) (none_ : TagKind.choice ∉ p.tree.kinds)
    {names : List String}
    (other : ∀ kind : PartKind, ∀ rest,
      closing names ('<' :: '/' :: kind.name.toList ++ rest) = none) :
    (closing names).Misses p.written := by
  rw [← p.decided_written none_]
  refine Tree.misses_written (opensWith_closing names) PartKind.isName_name
    (fun kind _ rest => ?_) fun kind _ => other kind
  cases kind <;> rfl

/-- No choice ends within its branches. -/
theorem Branches.misses_closing : (b : Branches) → TagKind.choice ∉ b.tree.kinds →
    (closing ["choose"]).Misses (b.tree.written TagKind.name)
  | .nil gap, _ => (Pattern.Misses.of_absent (opensWith_closing _) gap.absent).append trivial
  | .cons gap conditional attributes body rest, none_ => by
    simp only [tree, Tree.kinds, List.mem_append, List.mem_cons, not_or] at none_
    have opens := opensWith_closing ["choose"]
    have single := (TagKind.branch conditional).isName_name
    have between : (closing ["choose"]).Misses gap.chars := .of_absent opens gap.absent
    have front := misses_openingTag opens single
      (by cases conditional <;> exact fun _ => rfl) attributes
    have inside : (closing ["choose"]).Misses body.written :=
      body.misses_closing none_.1.2 (by rintro (_ | _) rest <;> rfl)
    have back := misses_closingTag opens single (by cases conditional <;> exact fun _ => rfl)
    exact between.append (((front.append inside).append back).append (rest.misses_closing none_.2))

/-- The names of branches. -/
def branchNames : List String := ["when", "otherwise"]

private theorem element_branch (conditional : Bool) (attributes : List Attribute)
    {body : List Char} (missed : (closing branchNames).Misses body) (rest : List Char) :
    element (opening true branchNames) branchNames
        (openingTag (TagKind.branch conditional).name attributes ++ body ++
          closingTag (TagKind.branch conditional).name ++ rest) =
      some ((((TagKind.branch conditional).name, attributesText attributes), body), rest) := by
  have listed : (TagKind.branch conditional).name ∈ branchNames := by cases conditional <;> decide
  have start : opening true branchNames (openingTag (TagKind.branch conditional).name attributes ++
        (body ++ (closingTag (TagKind.branch conditional).name ++ rest))) =
      some (((TagKind.branch conditional).name, attributesText attributes),
        body ++ (closingTag (TagKind.branch conditional).name ++ rest)) :=
    opening_openingTag (by decide) listed attributes _
  have finish : closing branchNames (closingTag (TagKind.branch conditional).name ++ rest) =
      some ((), rest) := by cases conditional <;> rfl
  have closed := missed.firstPlace? finish (List.cons_ne_nil _ _)
  simp [element, List.append_assoc, start, closed]

/-- The branches that are found in a choice are its own. -/
theorem Branches.branches_written : (b : Branches) → TagKind.choice ∉ b.tree.kinds →
    Template.branches (b.tree.written TagKind.name) =
      b.decisions.map (Prod.map id (Tree.written PartKind.name))
  | .nil gap, _ => by
    have opens := opensWith_element (opensWith_opening true branchNames) branchNames
    have missed := (Pattern.Misses.of_absent opens gap.absent).occurrences []
    exact congrArg (List.map fun ((name, _), body) => (name == "when", body)) missed
  | .cons gap conditional attributes body rest, none_ => by
    simp only [tree, Tree.kinds, List.mem_append, List.mem_cons, not_or] at none_
    have opens := opensWith_element (opensWith_opening true branchNames) branchNames
    have between := Pattern.Misses.of_absent opens gap.absent
    have inside : (closing branchNames).Misses body.written :=
      body.misses_closing none_.1.2 (by rintro (_ | _) rest <;> rfl)
    have taken := element_branch conditional attributes inside (rest.tree.written TagKind.name)
    have later := rest.branches_written none_.2
    have kind : ((TagKind.branch conditional).name == "when") = conditional := by
      cases conditional <;> decide
    have found := (between.occurrences _).trans (occurrences_of_some taken)
    calc Template.branches ((cons gap conditional attributes body rest).tree.written TagKind.name)
        = ((TagKind.branch conditional).name == "when", body.written) ::
            Template.branches (rest.tree.written TagKind.name) :=
          congrArg (List.map fun tag : (String × List Char) × List Char =>
            (tag.1.1 == "when", tag.2)) found
      _ = (cons gap conditional attributes body rest).decisions.map
            (Prod.map id (Tree.written PartKind.name)) := by
          rw [kind, ← body.decided_written none_.1.2, later, decisions, List.map_cons,
            Prod.map_apply, id]

/-- What stands for a choice is one of its branches. -/
theorem Branches.branch_written (b : Branches) (none_ : TagKind.choice ∉ b.tree.kinds) :
    branch (b.tree.written TagKind.name) =
      ' ' :: ((pick b.decisions).getD .nil).written PartKind.name ++ [' '] := by
  have chosen : branch (b.tree.written TagKind.name) =
      ' ' :: (pick (Template.branches (b.tree.written TagKind.name))).getD [] ++ [' '] := rfl
  rw [chosen, b.branches_written none_, pick_map]
  cases pick b.decisions <;> rfl

private theorem opens_choice : (element choiceOpening ["choose"]).OpensWith '<' :=
  opensWith_element opensWith_choiceOpening ["choose"]

private theorem choicePass_append (missed : (element choiceOpening ["choose"]).Misses part)
    (rest : List Char) : choicePass (part ++ rest) = part ++ choicePass rest :=
  missed.replace rest

private theorem element_choice {body : List Char} (missed : (closing ["choose"]).Misses body)
    (rest : List Char) :
    element choiceOpening ["choose"]
        (openingTag "choose" [] ++ body ++ closingTag "choose" ++ rest) =
      some (((), body), rest) := by
  have start : choiceOpening (openingTag "choose" [] ++ (body ++ (closingTag "choose" ++ rest))) =
      some ((), body ++ (closingTag "choose" ++ rest)) := rfl
  have finish : closing ["choose"] (closingTag "choose" ++ rest) = some ((), rest) := rfl
  have closed := missed.firstPlace? finish (List.cons_ne_nil _ _)
  simp [element, List.append_assoc, start, closed]

private theorem choicePass_choice {body : List Char} (missed : (closing ["choose"]).Misses body)
    (rest : List Char) :
    choicePass (openingTag "choose" [] ++ body ++ closingTag "choose" ++ rest) =
      branch body ++ choicePass rest := by
  rw [choicePass, replace_of_nonempty (by simp [openingTag]) (element_choice missed rest)]
  rfl

/-- The pass over choices treats the tags of other elements by themselves. -/
private theorem choicePass_element {kind : TagKind} {kind' : PartKind} (named : kind'.name = kind.name)
    (attributes : List Attribute) {body next : Tree TagKind} {body' next' : Tree PartKind}
    (inner : ∀ rest, choicePass (body.written TagKind.name ++ rest) =
      body'.written PartKind.name ++ choicePass rest)
    (later : ∀ rest, choicePass (next.written TagKind.name ++ rest) =
      next'.written PartKind.name ++ choicePass rest) (rest : List Char) :
    choicePass ((Tree.element kind attributes body next).written TagKind.name ++ rest) =
      (Tree.element kind' attributes body' next').written PartKind.name ++ choicePass rest := by
  have front := misses_openingTag opens_choice kind'.isName_name
    (by cases kind' <;> exact fun _ => rfl) attributes
  have back := misses_closingTag opens_choice kind'.isName_name
    (by cases kind' <;> exact fun _ => rfl)
  simp only [Tree.written, Tree.tagged, Tree.render, List.append_assoc] at inner later ⊢
  rw [← named, choicePass_append front, inner, choicePass_append back, later]

/-- The pass over choices writes one branch of each, whatever follows. -/
theorem Passage.choicePass_written : (p : Passage) → p.tree.Apart .choice → (rest : List Char) →
    choicePass (p.written ++ rest) = p.decided.written PartKind.name ++ choicePass rest
  | .nil, _, _ => rfl
  | .text t next, apart, rest => by
    have between : choicePass (t.chars ++ (next.written ++ rest)) =
        t.chars ++ choicePass (next.written ++ rest) :=
      choicePass_append (.of_absent opens_choice t.absent) _
    rw [next.choicePass_written apart rest, ← List.append_assoc, ← List.append_assoc] at between
    exact between
  | .condition attributes body next, ⟨_, apartBody, apartNext⟩, rest =>
    choicePass_element rfl attributes (body.choicePass_written apartBody)
      (next.choicePass_written apartNext) rest
  | .loop attributes body next, ⟨_, apartBody, apartNext⟩, rest =>
    choicePass_element rfl _ (body.choicePass_written apartBody)
      (next.choicePass_written apartNext) rest
  | .choice branches next, ⟨inner, _, apartNext⟩, rest => by
    have none_ := inner rfl
    calc choicePass ((choice branches next).written ++ rest)
        = choicePass (openingTag "choose" [] ++ branches.tree.written TagKind.name ++
            closingTag "choose" ++ (next.written ++ rest)) :=
          congrArg choicePass (List.append_assoc _ _ _)
      _ = branch (branches.tree.written TagKind.name) ++ choicePass (next.written ++ rest) :=
          choicePass_choice (branches.misses_closing none_) _
      _ = (choice branches next).decided.written PartKind.name ++ choicePass rest := by
          rw [branches.branch_written none_, next.choicePass_written apartNext rest]
          simp [decided, Tree.written, Tree.tagged, Tree.render, Tree.render_append,
            PlainText.blank]

/-! Loops. -/

variable {t : Tree PartKind}

private theorem opens_loop : (element (opening true ["foreach"]) ["foreach"]).OpensWith '<' :=
  opensWith_element (opensWith_opening true ["foreach"]) ["foreach"]

private theorem loopPass_append
    (missed : (element (opening true ["foreach"]) ["foreach"]).Misses part) (rest : List Char) :
    loopPass (part ++ rest) = part ++ loopPass rest :=
  missed.replace rest

private theorem element_loop (attributes : List Attribute) {body : List Char}
    (missed : (closing ["foreach"]).Misses body) (rest : List Char) :
    element (opening true ["foreach"]) ["foreach"]
        (openingTag "foreach" attributes ++ body ++ closingTag "foreach" ++ rest) =
      some ((("foreach", attributesText attributes), body), rest) := by
  have start : opening true ["foreach"]
        (openingTag "foreach" attributes ++ (body ++ (closingTag "foreach" ++ rest))) =
      some (("foreach", attributesText attributes), body ++ (closingTag "foreach" ++ rest)) :=
    opening_openingTag (by decide) List.mem_cons_self attributes _
  have finish : closing ["foreach"] (closingTag "foreach" ++ rest) = some ((), rest) := rfl
  have closed := missed.firstPlace? finish (List.cons_ne_nil _ _)
  simp [element, List.append_assoc, start, closed]

private theorem loopPass_loop (attributes : List Attribute) {body : List Char}
    (missed : (closing ["foreach"]).Misses body) (rest : List Char) :
    loopPass (openingTag "foreach" attributes ++ body ++ closingTag "foreach" ++ rest) =
      round (attributesText attributes) body ++ loopPass rest := by
  rw [loopPass, replace_of_nonempty (by simp [openingTag]) (element_loop attributes missed rest)]
  rfl

/-- A tree without loops has conditions only. -/
private theorem eq_condition (none_ : PartKind.loop ∉ t.kinds) {kind : PartKind}
    (listed : kind ∈ t.kinds) : kind = .condition := by
  cases kind with
  | condition => rfl
  | loop => exact absurd listed none_

private theorem misses_closing_loop (none_ : PartKind.loop ∉ t.kinds) :
    (closing ["foreach"]).Misses (t.written PartKind.name) := by
  refine Tree.misses_written (opensWith_closing _) PartKind.isName_name (fun kind listed rest => ?_)
    fun kind listed rest => ?_
  all_goals
    obtain rfl := eq_condition none_ listed
    rfl

private theorem written_of_no_loop (none_ : PartKind.loop ∉ t.kinds) :
    t.written PartKind.name = t.render PartKind.unrolled := by
  refine Tree.render_congr fun kind listed => ?_
  obtain rfl := eq_condition none_ listed
  rfl

/-- The pass over loops writes one round of each, whatever follows. -/
theorem loopPass_written (apart : t.Apart .loop) (rest : List Char) :
    loopPass (t.written PartKind.name ++ rest) = t.render PartKind.unrolled ++ loopPass rest := by
  induction t generalizing rest with
  | nil => rfl
  | text t next ih =>
    have later := ih apart rest
    simp only [Tree.written, Tree.tagged, Tree.render, List.append_assoc] at later ⊢
    rw [loopPass_append (.of_absent opens_loop t.absent), later]
  | element kind attributes body next ihBody ihNext =>
    obtain ⟨apartKind, apartBody, apartNext⟩ := apart
    have later := ihNext apartNext rest
    cases kind with
    | condition =>
      have inner := ihBody apartBody
      have front := misses_openingTag opens_loop PartKind.condition.isName_name (fun _ => rfl)
        attributes
      have back := misses_closingTag opens_loop PartKind.condition.isName_name fun _ => rfl
      simp only [Tree.written, Tree.tagged, Tree.render, PartKind.unrolled, List.append_assoc]
        at inner later ⊢
      rw [loopPass_append front, inner, loopPass_append back, later]
      rfl
    | loop =>
      have none_ := apartKind rfl
      calc loopPass ((Tree.element .loop attributes body next).written PartKind.name ++ rest)
          = loopPass (openingTag "foreach" attributes ++ body.written PartKind.name ++
              closingTag "foreach" ++ (next.written PartKind.name ++ rest)) :=
            congrArg loopPass (List.append_assoc _ _ _)
        _ = round (attributesText attributes) (body.written PartKind.name) ++
              loopPass (next.written PartKind.name ++ rest) :=
            loopPass_loop attributes (misses_closing_loop none_) _
        _ = (Tree.element .loop attributes body next).render PartKind.unrolled ++ loopPass rest := by
            rw [later, written_of_no_loop none_, Tree.render, PartKind.unrolled, List.append_assoc]

/-! Conditions. -/

private theorem opens_condition :
    (tagOf ["if", "when", "otherwise", "include", "bind", "property"]).OpensWith '<' :=
  opensWith_tagOf _

private theorem conditionPass_append (absent : '<' ∉ part) (rest : List Char) :
    conditionPass (part ++ rest) = part ++ conditionPass rest :=
  replace_append opens_condition absent rest

/-- The parts of a round, of which only the body can hold a tag. -/
private theorem exists_round (attributes : List Attribute) : ∃ front back : List Char,
    '<' ∉ front ∧ '<' ∉ back ∧
      ∀ body, round (attributesText attributes) body = front ++ (body ++ back) := by
  have absent (name : String) : '<' ∉ (attribute? (attributesText attributes) name).getD [] :=
    mt (@attribute_subset _ (attributesText_absent attributes (by decide)) name '<')
      (attributesText_absent attributes (by decide))
  refine ⟨' ' :: (attribute? (attributesText attributes) "open").getD [],
    (attribute? (attributesText attributes) "close").getD [] ++ [' '], ?_, ?_, fun body => ?_⟩
  · simpa using absent "open"
  · simpa using absent "close"
  · simp [round]

/-- The pass over conditions leaves the rounds of loops alone. -/
theorem conditionPass_unrolled (t : Tree PartKind) (rest : List Char) :
    conditionPass (t.render PartKind.unrolled ++ rest) =
      t.render PartKind.make ++ conditionPass rest := by
  induction t generalizing rest with
  | nil => rfl
  | text t next ih =>
    simp only [Tree.render, List.append_assoc]
    rw [conditionPass_append t.absent, ih]
  | element kind attributes body next ihBody ihNext =>
    cases kind with
    | condition =>
      have front (rest : List Char) : conditionPass (openingTag "if" attributes ++ rest) =
          ' ' :: conditionPass rest :=
        replace_of_some (tagOf_openingTag (by decide) (by decide) attributes rest)
      have back (rest : List Char) : conditionPass (closingTag "if" ++ rest) =
          ' ' :: conditionPass rest :=
        replace_of_some (tagOf_closingTag (by decide) (by decide) rest)
      simp only [Tree.render, PartKind.unrolled, PartKind.make, List.append_assoc]
      rw [front, ihBody, back, ihNext]
      simp
    | loop =>
      obtain ⟨front, back, absentFront, absentBack, whole⟩ := exists_round attributes
      simp only [Tree.render, PartKind.unrolled, PartKind.make, whole, List.append_assoc]
      rw [conditionPass_append absentFront, ihBody, conditionPass_append absentBack, ihNext]

/-- What is left of a passage opens no tag. -/
theorem render_make_absent (t : Tree PartKind) : '<' ∉ t.render PartKind.make := by
  induction t with
  | nil => exact List.not_mem_nil
  | text t next ih => exact List.not_mem_append t.absent ih
  | element kind attributes body next ihBody ihNext =>
    refine List.not_mem_append ?_ ihNext
    cases kind with
    | condition => simpa [PartKind.make] using ihBody
    | loop =>
      obtain ⟨front, back, absentFront, absentBack, whole⟩ := exists_round attributes
      rw [PartKind.make, whole]
      exact List.not_mem_append absentFront (List.not_mem_append ihBody absentBack)

/-! All passes. -/

/-- The passes that are about elements render a passage. -/
theorem Passage.flatten_written (p : Passage) (choices : p.tree.Apart .choice)
    (loops : p.decided.Apart .loop) : flatten p.written = p.render := by
  have comments : replace (between "<!--" "-->") (fun _ => [' ']) p.written = p.written :=
    p.tree.replace_written (opensWith_between rfl) TagKind.isName_name
      (by rintro (_ | _ | _ | (_ | _)) rest <;> rfl) fun _ _ => rfl
  have sections : replace (between "<![CDATA[" "]]>") escape p.written = p.written :=
    p.tree.replace_written (opensWith_between rfl) TagKind.isName_name
      (by rintro (_ | _ | _ | (_ | _)) rest <;> rfl) fun _ _ => rfl
  have absent := render_make_absent p.decided
  calc flatten p.written
      = replace anyTag (fun _ => [' '])
          (writeClauses (conditionPass (loopPass (choicePass p.written)))) := by
        conv_rhs => rw [← sections, ← comments]
        rfl
    _ = replace anyTag (fun _ => [' '])
          (writeClauses (conditionPass (loopPass (p.decided.written PartKind.name)))) := by
        rw [pass_of_append rfl (p.choicePass_written choices)]
    _ = replace anyTag (fun _ => [' '])
          (writeClauses (conditionPass (p.decided.render PartKind.unrolled))) := by
        rw [pass_of_append rfl (loopPass_written loops)]
    _ = replace anyTag (fun _ => [' ']) (writeClauses (p.decided.render PartKind.make)) := by
        rw [pass_of_append rfl (conditionPass_unrolled p.decided)]
    _ = p.render := by
        rw [writeClauses_of_absent absent, replace_of_absent opensWith_anyTag absent,
          p.render_decided]

/-- **Where no choice stands within a choice and no loop within a loop, a template is filled as its
passage is rendered.** The others may stand within each other to any depth; a loop in a branch that
is not taken counts for nothing. -/
theorem Passage.fill_eq_render (form : Placeholder) (p : Passage) (choices : p.tree.Apart .choice)
    (loops : p.decided.Apart .loop) :
    fill form (String.ofList p.written) = finish form p.render := by
  rw [fill_eq, String.toList_ofList, p.flatten_written choices loops]

/-- A text without the characters of tags and entities, where a search finds none. -/
private def plain (text : String) (free : text.toList.all fun c => !(['<', '>', '&'].contains c)) :
    PlainText :=
  ⟨text.toList, by simpa using free⟩

/-- A choice with a branch that has a condition. -/
private def whenTest (test : String) (possible : isAttribute "test" test) (body : Passage)
    (rest : Branches) : Branches :=
  .cons (plain "" rfl) true [(lettered "test" test possible).toAttribute] body rest

/-- A condition around a choice with a loop in one of its branches. -/
def keyedOrNamed : Passage :=
  .condition [] (.choice (whenTest "ids" rfl
      (.text (plain "id IN " rfl)
        (.loop [lettered "open" "(" rfl, lettered "close" ")" rfl]
          (.text (plain "?" rfl) .nil) .nil))
      (.cons (plain "" rfl) false [] (.text (plain "name = ?" rfl) .nil) (.nil (plain "" rfl))))
    .nil) .nil

theorem Passage.fill_eq_render_keyed :
    keyedOrNamed.tree.Apart .choice ∧ keyedOrNamed.decided.Apart .loop ∧
      fill .mark (String.ofList keyedOrNamed.written) = finish .mark keyedOrNamed.render :=
  have choices : keyedOrNamed.tree.Apart .choice := by decide
  have loops : keyedOrNamed.decided.Apart .loop := by decide
  ⟨choices, loops, Passage.fill_eq_render .mark keyedOrNamed choices loops⟩

/-- A choice whose first branch is itself a choice. -/
def choiceInChoice : Passage :=
  .choice (whenTest "a" rfl
      (.choice (whenTest "b" rfl (.text (plain "x = 1" rfl) .nil) (.nil (plain "" rfl))) .nil)
    (whenTest "c" rfl (.text (plain "y = 1" rfl) .nil) (.nil (plain "" rfl)))) .nil

/-- Both branches of the outer choice are kept, because the inner choice ends it. -/
theorem Passage.both_branches_kept :
    ¬ ∀ p : Passage, fill .mark (String.ofList p.written) = finish .mark p.render := by
  intro rendered
  have kept : (fill .mark (String.ofList choiceInChoice.written)).text = "x = 1 y = 1" := by
    decide +kernel
  have one : (finish .mark choiceInChoice.render).text = "x = 1" := by decide +kernel
  rw [rendered choiceInChoice, one] at kept
  exact absurd kept (by decide)

end TableAccess.Template
