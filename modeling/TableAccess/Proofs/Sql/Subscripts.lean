import TableAccess.Proofs.Sql.Rule
import TableAccess.Proofs.Sql.StatementClauses

/-! Subscripts. A value with a subscript behind it is read as its root and the expressions in brackets;
the names between the root and a subscript are fields of the root, which are no columns. So a column
stays what it is behind a subscript exactly if nothing qualifies it. -/
namespace TableAccess.Sql

/-- Whether what is taken from a value is an element, or a range of elements. -/
def Selector.isSubscript : Selector → Bool
  | .field _ => false
  | .element _ => true
  | .slice _ _ _ => true

/-- The expressions in the brackets behind a value. -/
def Selector.operandsOf (chain : List Selector) : List Expr :=
  Role.operand.among (chain.flatMap Selector.children)

section
variable {chain more : List Selector} {taken : Selector} {root : Expr} {parts : Name}

theorem Selector.operandsOf_append :
    Selector.operandsOf (chain ++ more) = Selector.operandsOf chain ++ Selector.operandsOf more := by
  simp [operandsOf]

/-- Names behind a value have no brackets. -/
theorem Selector.operandsOf_names (names : Name) :
    Selector.operandsOf (names.map fun i => .field (.name i)) = [] := by
  induction names with
  | nil => rfl
  | cons i rest ih => exact ih

/-- A value of which parts are taken mentions what the value mentions and what the brackets do. -/
theorem Expr.columns_access :
    (Expr.access root chain).columns = root.columns ++ Expr.columnsOf (Selector.operandsOf chain) := by
  have inner : (Expr.access root chain).inner = root :: Selector.operandsOf chain := by
    simp [Expr.inner, Expr.arguments, Expr.operands, Expr.children, Selector.arguments_eq_nil,
      Selector.operandsOf]
  have own : (Expr.access root chain).ownColumns = [] := rfl
  rw [Expr.columns, Expr.parts_eq, inner, List.flatMap_append, List.flatMap_singleton, own,
    List.append_nil, List.flatMap_cons, List.flatMap_append, List.flatMap_assoc]
  rfl

namespace Rule

/-- A name with names behind it has nothing else behind it. -/
theorem exists_of_identsOf (named : identsOf root chain = some parts) : ∃ first rest,
    parts = first :: rest ∧ root = .name first ∧ chain = rest.map fun i => .field (.name i) := by
  simp only [identsOf] at named
  split at named
  · next first =>
    rw [Option.bind_eq_bind, Option.bind_some] at named
    obtain ⟨rest, behind, same⟩ := Option.bind_eq_some_iff.mp named
    refine ⟨first, rest, (Option.some.inj same).symm, rfl, ?_⟩
    clear named same
    induction chain generalizing rest with
    | nil => cases behind; rfl
    | cons taken chain ih =>
      simp only [List.mapM_cons, Option.bind_eq_bind, Option.bind_eq_some_iff] at behind
      obtain ⟨i, own, rest, later, same⟩ := behind
      obtain rfl := Option.some.inj same
      split at own
      · rw [Option.some.inj own, ih rest later]
        rfl
      · cases own
  · cases named

/-- Where there is a subscript, what is taken from a value is no name. -/
theorem identsOf_of_subscript (isSubscript : taken.isSubscript = true) (member : taken ∈ chain) :
    identsOf root chain = none := by
  rw [Option.eq_none_iff_forall_ne_some]
  intro parts named
  obtain ⟨first, rest, _, _, rfl⟩ := exists_of_identsOf named
  obtain ⟨i, _, rfl⟩ := List.mem_map.mp member
  cases isSubscript

/-- Where there is a subscript, parts are taken from the value one after the other. -/
theorem withParts_of_subscript (isSubscript : taken.isSubscript = true) (member : taken ∈ chain) :
    withParts root chain = .access root chain := by
  have nonempty : chain.isEmpty = false := List.isEmpty_eq_false_iff.mpr (List.ne_nil_of_mem member)
  simp only [withParts, nonempty, identsOf_of_subscript isSubscript member, Bool.false_eq_true, if_false]
  split
  · next names callee braces parameters arguments nulls filter range within named last =>
    -- The subscript is not the last part, so it is one of the parts in front.
    obtain ⟨front, same⟩ := List.getLast?_eq_some_iff.mp last
    rw [same, List.mem_append, List.mem_singleton] at member
    obtain member | rfl := member
    · rw [same, List.dropLast_concat, identsOf_of_subscript isSubscript member] at named
      cases named
    · cases isSubscript
  · rfl

end Rule

end

/-! What the grammar takes for parts of a value. -/

namespace Rule

/-- Whether a rule gives only what has a property. -/
def Ensures {α : Type} (rule : Rule α) (property : α → Prop) : Prop :=
  ∀ s tokens a rest, rule.Gives s tokens a rest → property a

section
variable {α β : Type} {rule : Rule α} {next' : α → Rule β} {property : β → Prop}

theorem Ensures.pure {b : β} (holds : property b) : Ensures (pure b) property := by
  intro s tokens b' rest given
  rwa [(gives_pure.unique.mp given).1]

theorem Ensures.fail {error : SyntaxError} : Ensures (fail error) property :=
  fun _ _ _ _ given => absurd given not_gives_fail

theorem Ensures.bind {between : α → Prop} (first : Ensures rule between)
    (second : ∀ a, between a → Ensures (next' a) property) : Ensures (rule >>= next') property := by
  intro s tokens b rest given
  obtain ⟨a, _, given, later⟩ := gives_bind.mp given
  exact second a (first _ _ _ _ given) _ _ _ _ later

/-- What a first step gives does not matter if all that may follow it gives what has the property. -/
theorem Ensures.behind (second : ∀ a, Ensures (next' a) property) :
    Ensures (rule >>= next') property :=
  Ensures.bind (fun _ _ _ _ _ => trivial) fun a (_ : True) => second a

theorem Ensures.attempt {property : α → Prop} (tried : Ensures rule property) :
    Ensures (attempt rule) fun a? => ∀ a ∈ a?, property a := by
  rintro s tokens a? rest given a rfl
  simp only [Gives, Rule.attempt] at given
  split at given
  · next run =>
    obtain ⟨same, rfl⟩ := Prod.mk.inj (Except.ok.inj given)
    exact tried _ _ _ _ (Option.some.inj same ▸ run)
  · cases given
  · cases given

end

/-- What the grammar makes of a value and what follows it is the value with parts taken from it; only names
can be followed by an asterisk or by the mark of an outer join. -/
theorem ensures_compound {g : Grammar} (root : Expr) : Ensures (compound g root) fun e =>
    ∃ chain, e = withParts root chain ∨ ∃ parts, identsOf root chain = some parts ∧
      (e = .qualifiedWildcard parts "" ∨ ∃ column, e = .outerJoin column) := by
  unfold compound
  refine Ensures.behind fun tokens => Ensures.behind fun (chain, finish) => ?_
  cases finish with
  | wildcard =>
    simp only
    split
    · next parts named => exact Ensures.pure ⟨chain, .inr ⟨parts, named, .inl rfl⟩⟩
    · exact Ensures.behind fun _ => Ensures.fail
  | plain =>
    refine Ensures.behind fun outer => ?_
    split
    · refine Ensures.behind fun mark => Ensures.behind fun _ => ?_
      split
      · next single named => exact Ensures.pure ⟨chain, .inr ⟨_, named, .inr ⟨_, rfl⟩⟩⟩
      · next parts _ named => exact Ensures.pure ⟨chain, .inr ⟨_, named, .inr ⟨_, rfl⟩⟩⟩
      · exact Ensures.fail
    · exact Ensures.pure ⟨chain, .inl rfl⟩

end Rule

open Rule

/-- A path of names. -/
def Expr.ofPath (first : Ident) (rest : Name) : Expr :=
  withParts (.name first) (rest.map fun i => .field (.name i))

/-- A path of names with a subscript, and what follows it. -/
def Expr.subscripted (first : Ident) (rest : Name) (taken : Selector) (more : List Selector) : Expr :=
  withParts (.name first) (rest.map (fun i => .field (.name i)) ++ taken :: more)

variable {first : Ident} {rest : Name} {taken : Selector} {more : List Selector}

private theorem identsOf_map (first : Ident) (rest : Name) :
    identsOf (.name first) (rest.map fun i => .field (.name i)) = some (first :: rest) := by
  simp only [identsOf, Option.bind_eq_bind, Option.bind_some]
  induction rest with
  | nil => rfl
  | cons i rest ih =>
    obtain ⟨names, named, same⟩ := Option.bind_eq_some_iff.mp ih
    obtain rfl := (List.cons.inj (Option.some.inj same)).2
    rw [List.map_cons, List.mapM_cons, named]
    rfl

theorem Expr.columns_of_inner_eq_nil {e : Expr} (alone : e.inner = []) : e.columns = e.ownColumns := by
  rw [Expr.columns, Expr.parts_eq, alone, List.flatMap_nil, List.nil_append, List.flatMap_singleton]

/-- A path mentions one column, which is its first name only if there is no other. -/
theorem columns_ofPath (first : Ident) (rest : Name) : ∃ column,
    (Expr.ofPath first rest).columns = [column] ∧ (column = ⟨none, first.value⟩ ↔ rest = []) := by
  cases rest with
  | nil => exact ⟨_, Expr.columns_of_inner_eq_nil rfl, iff_of_true rfl rfl⟩
  | cons second rest =>
    have path : Expr.ofPath first (second :: rest) = .path (first :: second :: rest) := by
      rw [Expr.ofPath, withParts, identsOf_map]
      rfl
    obtain ⟨column, ends⟩ : ∃ name, ((first :: second :: rest).map Ident.value).getLast? = some name :=
      ⟨_, List.getLast?_eq_some_getLast (List.cons_ne_nil _ _)⟩
    obtain ⟨qualifier, qualified⟩ : ∃ name,
        ((first :: second :: rest).map Ident.value).dropLast.getLast? = some name :=
      ⟨_, List.getLast?_eq_some_getLast (by simp)⟩
    refine ⟨⟨some qualifier, column⟩, ?_, by simp⟩
    rw [path, Expr.columns_of_inner_eq_nil rfl]
    simp only [Expr.ownColumns, columnAtEnd, ends, qualified, Option.map_some, Option.toList_some]

theorem columns_subscripted (isSubscript : taken.isSubscript = true) :
    (Expr.subscripted first rest taken more).columns =
      ⟨none, first.value⟩ :: Expr.columnsOf (Selector.operandsOf (taken :: more)) := by
  rw [Expr.subscripted, withParts_of_subscript isSubscript (List.mem_append_right _ List.mem_cons_self),
    Expr.columns_access, Selector.operandsOf_append, Selector.operandsOf_names,
    Expr.columns_of_inner_eq_nil rfl]
  rfl

/-- **A subscript keeps a column exactly if nothing qualifies it.** -/
theorem columns_subscripted_iff {e : Expr} {before after : List Expr}
    (isSubscript : taken.isSubscript = true)
    (place : e.parts = before ++ ((Expr.subscripted first rest taken more).parts ++ after)) :
    let columns := (Scope.ofNodes e.nodes).columns
    let readWith := fun own => before.flatMap Expr.ownColumns ++
      (own ++ (Expr.columnsOf (Selector.operandsOf (taken :: more)) ++ after.flatMap Expr.ownColumns))
    columns = readWith [⟨none, first.value⟩] ∧
      (columns = readWith (Expr.ofPath first rest).columns ↔ rest = []) := by
  intro columns readWith
  have read : columns = readWith [⟨none, first.value⟩] := by
    have own := @columns_subscripted first rest taken more isSubscript
    rw [Expr.columns] at own
    change Node.columnsOf e.nodes = _
    rw [e.parts_read.columns, place, List.flatMap_append, List.flatMap_append, own]
    rfl
  refine ⟨read, ?_⟩
  obtain ⟨column, path, kept⟩ := columns_ofPath first rest
  rw [read, path, ← kept]
  simp [readWith, eq_comm]

/-- An element of a qualified column, tested. -/
theorem columns_subscripted_iff_element :
    let element := Expr.subscripted ⟨"u", none⟩ [⟨"tags", none⟩] (.element (.name ⟨"i", none⟩)) []
    (Scope.ofNodes (Expr.test element "IS NOT NULL").nodes).columns = [⟨none, "u"⟩, ⟨none, "i"⟩] := by
  intro element
  have place : (Expr.test element "IS NOT NULL").parts =
      [] ++ (element.parts ++ [.test element "IS NOT NULL"]) := by
    rw [Expr.parts_eq]
    exact congrArg (· ++ _) (List.flatMap_singleton Expr.parts element)
  exact (columns_subscripted_iff rfl place).1.trans (by decide +kernel)

/-- The column of a source is lost to a subscript, and the name of the source is taken for a column. -/
theorem column_lost_to_subscript :
    (readStatement .postgresql "SELECT u.tags FROM users u").toOption.map Statement.mentioned =
        some [⟨some "u", "tags"⟩] ∧
      (readStatement .postgresql "SELECT u.tags[1] FROM users u").toOption.map Statement.mentioned =
        some [⟨none, "u"⟩] := by
  decide +kernel

end TableAccess.Sql
