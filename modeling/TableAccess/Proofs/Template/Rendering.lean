import TableAccess.Proofs.Template.Tree

/-! A template without choices and loops is filled as its tree is rendered: a condition is what its
body is, between blanks, and an element that stands for a clause writes it for what its own body is.
The passes never see the tree. That they agree with it rests on the order in which clauses are
written: behind the last opening tag nothing is open, so the first closing tag there is its own, and
a clause that is written opens no tag, so what was written before it in the text stays as it was. -/
namespace TableAccess.Template
open TableAccess.Text

/-- The elements that stand for a clause. -/
inductive ClauseKind where
  | filter | assignments | trim

def ClauseKind.name : ClauseKind → String
  | filter => "where"
  | assignments => "set"
  | trim => "trim"

/-- The elements of a template without choices and loops. -/
inductive ElementKind where
  | condition
  | clause (kind : ClauseKind)

namespace ElementKind

def name : ElementKind → String
  | condition => "if"
  | clause kind => kind.name

/-- What an element makes of its body. -/
def make : ElementKind → List Attribute → List Char → List Char
  | condition, _, body => ' ' :: body ++ [' ']
  | clause kind, attributes, body => Template.clause kind.name (attributesText attributes) body

/-- What stands for an opening tag once those of conditions are blanks. -/
def front : ElementKind → List Attribute → List Char
  | condition, _ => [' ']
  | clause kind, attributes => openingTag kind.name attributes

/-- What stands for a closing tag once those of conditions are blanks. -/
def back : ElementKind → List Char
  | condition => [' ']
  | clause kind => closingTag kind.name

theorem isName_name (kind : ElementKind) : isName kind.name := by
  rcases kind with _ | (_ | _ | _) <;> decide

end ElementKind

theorem ClauseKind.isName_name (kind : ClauseKind) : isName kind.name :=
  (ElementKind.clause kind).isName_name

theorem ClauseKind.listed (kind : ClauseKind) : kind.name ∈ clauseNames := by
  cases kind <;> decide

/-- The passes behind those that are about elements. -/
def finish (form : Placeholder) (text : List Char) : Filled :=
  let numbered := writeParameters form 1 (segments parameter text)
  let written := unescape (replace substitution identifier numbered)
  ⟨String.ofList (words written), namesFound parameter text, namesFound substitution text⟩

theorem fill_eq (form : Placeholder) (template : String) :
    fill form template = finish form (flatten template.toList) := rfl

variable {before after : List Char}

section Passes
variable (tree : Tree ElementKind)

/-- What looks for other elements leaves a tree alone. -/
private theorem replace_other {α : Type} {pattern : Pattern α} {write : α → List Char}
    (opens : pattern.OpensWith '<')
    (missed : ∀ kind : ElementKind, ∀ rest, pattern ('<' :: kind.name.toList ++ rest) = none)
    (missed' : ∀ rest, pattern ('<' :: '/' :: rest) = none) :
    replace pattern write (tree.written ElementKind.name) = tree.written ElementKind.name :=
  tree.replace_written opens ElementKind.isName_name missed fun _ _ => missed' _

/-- The tags of conditions become blanks, and those of clauses stay. -/
private theorem replace_conditions :
    replace (tagOf ["if", "when", "otherwise", "include", "bind", "property"]) (fun _ => [' '])
      (tree.written ElementKind.name) = tree.tagged ElementKind.front ElementKind.back := by
  have opens := opensWith_tagOf ["if", "when", "otherwise", "include", "bind", "property"]
  refine tree.replace_tagged opens (fun kind attributes rest => ?_) fun kind rest => ?_
  · cases kind with
    | condition => exact replace_of_some (tagOf_openingTag (by decide) (by decide) attributes rest)
    | clause kind =>
      refine replace_openingTag opens kind.isName_name (fun rest => ?_) attributes rest
      cases kind <;> rfl
  · cases kind with
    | condition => exact replace_of_some (tagOf_closingTag (by decide) (by decide) rest)
    | clause kind =>
      refine replace_closingTag opens kind.isName_name (fun rest => ?_) rest
      cases kind <;> rfl

end Passes

/-- A rendered tree opens no tag. -/
theorem render_absent (tree : Tree ElementKind) : '<' ∉ tree.render ElementKind.make := by
  induction tree with
  | nil => exact List.not_mem_nil
  | text t rest ih => exact List.not_mem_append t.absent ih
  | element kind attributes body rest ihBody ihRest =>
    refine List.not_mem_append ?_ ihRest
    cases kind with
    | condition => simpa [ElementKind.make] using ihBody
    | clause kind =>
      exact clause_absent kind.listed (attributesText_absent attributes (by decide))
        (attributesText_absent attributes (by decide)) ihBody

private theorem opens_clauseOpening : clauseOpening.OpensWith '<' :=
  opensWith_opening false clauseNames

/-- An opening tag of a clause is found, whatever follows it. -/
private theorem clauseOpening_openingTag (kind : ClauseKind) (attributes : List Attribute)
    (rest : List Char) : clauseOpening (openingTag kind.name attributes ++ rest) =
      some ((kind.name, attributesText attributes), rest) :=
  opening_openingTag (by decide) kind.listed attributes rest

private theorem closing_closingTag (kind : ClauseKind) (rest : List Char) :
    closing clauseNames (closingTag kind.name ++ rest) = some ((), rest) := by
  cases kind <;> rfl

private theorem passes_closingTag (kind : ClauseKind) :
    clauseOpening.Passes (closingTag kind.name) :=
  .cons (fun _ => rfl)
    (.of_absent opens_clauseOpening (closingTag_absent kind.isName_name))

private theorem passes_back (kind : ElementKind) : clauseOpening.Passes kind.back := by
  cases kind with
  | condition => exact .of_absent opens_clauseOpening (by decide)
  | clause kind => exact passes_closingTag kind

private theorem resumes_front (kind : ElementKind) (attributes : List Attribute) :
    clauseOpening.Resumes (kind.front attributes) := by
  cases kind with
  | condition =>
    exact (Pattern.Passes.of_absent opens_clauseOpening (show '<' ∉ [' '] by decide)).resumes
  | clause kind => exact Pattern.resumes_of_some (clauseOpening_openingTag kind attributes)

private theorem resumes_tagged (tree : Tree ElementKind) :
    clauseOpening.Resumes (tree.tagged ElementKind.front ElementKind.back) := by
  induction tree with
  | nil => exact (Pattern.Passes.of_absent opens_clauseOpening List.not_mem_nil).resumes
  | text t rest ih =>
    exact (Pattern.Passes.of_absent opens_clauseOpening t.absent).resumes.append ih
  | element kind attributes body rest ihBody ihRest =>
    exact (((resumes_front kind attributes).append ihBody).append (passes_back kind).resumes).append
      ihRest

/-- The last clause is written in its place. -/
theorem writeClauses_element (kind : ClauseKind) (attributes : List Attribute)
    {body : List Char} (resumed : clauseOpening.Resumes before) (plain : '<' ∉ body)
    (last : lastPlace? clauseOpening after = none) :
    writeClauses (before ++ (openingTag kind.name attributes ++
        (body ++ (closingTag kind.name ++ after)))) =
      writeClauses (before ++ (clause kind.name (attributesText attributes) body ++ after)) := by
  have behind : lastPlace? clauseOpening (body ++ (closingTag kind.name ++ after)) = none :=
    (Pattern.Passes.of_absent opens_clauseOpening plain).lastPlace?_eq_none
      ((passes_closingTag kind).lastPlace?_eq_none last)
  have own : lastPlace? clauseOpening (openingTag kind.name attributes ++
        (body ++ (closingTag kind.name ++ after))) =
      some ([], (kind.name, attributesText attributes),
        body ++ (closingTag kind.name ++ after)) := by
    refine (lastPlace?_of_some (clauseOpening_openingTag kind attributes _)).trans ?_
    rw [behind]
    rfl
  have closed : firstPlace? (closing clauseNames) (body ++ (closingTag kind.name ++ after)) =
      some (body, (), after) :=
    firstPlace?_append (opensWith_closing clauseNames) plain (closing_closingTag kind after)
      (List.cons_ne_nil _ _)
  refine writeClauses_of_some ?_
  simp [writeInnermost?, resumed _ _ _ own, closed]

/-- The clauses of a tree are written as the tree is rendered, in a text that goes on being searched
behind what comes before the tree and in which no clause opens behind it. -/
private theorem writeClauses_tagged (tree : Tree ElementKind)
    (resumed : clauseOpening.Resumes before) (last : lastPlace? clauseOpening after = none) :
    writeClauses (before ++ (tree.tagged ElementKind.front ElementKind.back ++ after)) =
      writeClauses (before ++ (tree.render ElementKind.make ++ after)) := by
  induction tree generalizing before after with
  | nil => rfl
  | text t rest ih =>
    have passed : clauseOpening.Passes t.chars := .of_absent opens_clauseOpening t.absent
    have later := ih (resumed.append passed.resumes) last
    simpa only [Tree.tagged, Tree.render, List.append_assoc] using later
  | element kind attributes body rest ihBody ihRest =>
    -- The elements behind come first, then those inside, then the element itself.
    have resumedFront := resumed.append (resumes_front kind attributes)
    have resumedBody := resumedFront.append (resumes_tagged body)
    have resumedBack := resumedBody.append (passes_back kind).resumes
    have later := ihRest resumedBack last
    have lastRest : lastPlace? clauseOpening (rest.render ElementKind.make ++ after) = none :=
      (Pattern.Passes.of_absent opens_clauseOpening (render_absent rest)).lastPlace?_eq_none last
    have inner := ihBody resumedFront ((passes_back kind).lastPlace?_eq_none lastRest)
    simp only [Tree.tagged, Tree.render, List.append_assoc] at later inner ⊢
    rw [later, inner]
    cases kind with
    | condition => simp [ElementKind.front, ElementKind.back, ElementKind.make]
    | clause kind =>
      exact writeClauses_element kind attributes resumed (render_absent body) lastRest

/-- A text in which no clause opens has none to write. -/
theorem writeClauses_of_absent {text : List Char} (plain : '<' ∉ text) :
    writeClauses text = text := by
  have passed : clauseOpening.Passes text := .of_absent opens_clauseOpening plain
  have missed : lastPlace? clauseOpening text = none := by
    simpa using passed.lastPlace?_eq_none (show lastPlace? clauseOpening [] = none from rfl)
  refine writeClauses_of_none ?_
  simp [writeInnermost?, missed]

/-- The passes that are about elements render the tree of a template. -/
theorem flatten_written (tree : Tree ElementKind) :
    flatten (tree.written ElementKind.name) = tree.render ElementKind.make := by
  have comments : (between "<!--" "-->").OpensWith '<' := opensWith_between rfl
  have sections : (between "<![CDATA[" "]]>").OpensWith '<' := opensWith_between rfl
  have choices := opensWith_element opensWith_choiceOpening ["choose"]
  have loops := opensWith_element (opensWith_opening true ["foreach"]) ["foreach"]
  have clauses : writeClauses (tree.tagged ElementKind.front ElementKind.back) =
      tree.render ElementKind.make := by
    have start : clauseOpening.Resumes [] :=
      (Pattern.Passes.of_absent opens_clauseOpening List.not_mem_nil).resumes
    have last : lastPlace? clauseOpening [] = none := rfl
    have written := writeClauses_tagged tree start last
    simp only [List.append_nil, List.nil_append] at written
    rw [written, writeClauses_of_absent (render_absent tree)]
  unfold flatten
  dsimp only
  rw [replace_other tree comments (by rintro (_ | (_ | _ | _)) rest <;> rfl) fun _ => rfl,
    replace_other tree sections (by rintro (_ | (_ | _ | _)) rest <;> rfl) fun _ => rfl,
    replace_other tree choices (by rintro (_ | (_ | _ | _)) rest <;> rfl) fun _ => rfl,
    replace_other tree loops (by rintro (_ | (_ | _ | _)) rest <;> rfl) fun _ => rfl,
    replace_conditions, clauses, replace_of_absent opensWith_anyTag (render_absent tree)]

/-- **Filling a template renders its tree.** For every tree of texts, conditions and elements that
stand for clauses, the passes over the written tree give what the last passes make of the tree as it
is rendered from its leaves. -/
theorem fill_written (form : Placeholder) (tree : Tree ElementKind) :
    fill form (String.ofList (tree.written ElementKind.name)) =
      finish form (tree.render ElementKind.make) := by
  rw [fill_eq, String.toList_ofList, flatten_written]

example : fill .mark "SELECT a FROM t <where><if test=\"b\">AND b = #\x7bb\x7d</if></where>" =
    ⟨"SELECT a FROM t WHERE b = ?", ["b"], []⟩ := by cbv

end TableAccess.Template
