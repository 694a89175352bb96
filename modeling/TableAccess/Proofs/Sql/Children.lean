import TableAccess.Sql.Outline

/-! What an expression is made of. Each kind of expression holds others, every one of them in a role. Most
are operands, and those of a call are its arguments or stand in a clause beside them; the rest only describe
something: the bounds of a frame or of a filling, the filler of a list, the label of an argument, a part
behind a period. From this the expressions that are read within one another are told, for all kinds in the
same way, and with them the columns and queries that occur in an expression. Only names, paths and searches
are columns themselves, and only three kinds of expressions hold a query. -/
namespace TableAccess.Sql

/-- What an expression is to the one that holds it. -/
inductive Role where
  /-- Among the arguments of a call. -/
  | argument
  | operand
  /-- Behind a period, as a part of the value in front of it. -/
  | part
  /-- In front of an argument, as its name. -/
  | label
  /-- At the end of a list that grows too long. -/
  | filler
  | frameBound
  | fillBound
deriving DecidableEq, Repr

/-- An expression in its role. -/
structure Child where
  role : Role
  expr : Expr

/-- Whether an expression in a role only describes something. It is not read. -/
def Role.describes : Role → Bool
  | .argument | .operand => false
  | .part | .label | .filler | .frameBound | .fillBound => true

/-- Expressions that all have one role. -/
def Role.children (role : Role) (es : List Expr) : List Child := es.map (Child.mk role)

/-- The expressions in a role. -/
def Role.among (role : Role) (children : List Child) : List Expr :=
  (children.filter fun c => c.role = role).map Child.expr

section
variable {role other : Role} {children more : List Child} {es : List Expr}

@[simp]
theorem Role.among_nil : role.among [] = [] := rfl

@[simp]
theorem Role.among_append : role.among (children ++ more) = role.among children ++ role.among more := by
  simp [among]

@[simp]
theorem Role.among_children : role.among (role.children es) = es := by
  simp [among, Role.children, List.filter_map, Function.comp_def]

@[simp]
theorem Role.among_children_of_ne (different : other ≠ role) : role.among (other.children es) = [] := by
  simp [among, Role.children, different]

end

def Selector.children : Selector → List Child
  | .field part => Role.part.children [part]
  | .element index => Role.operand.children [index]
  | .slice lower upper stride => Role.operand.children (lower.toList ++ upper.toList ++ stride.toList)

def Fill.bounds (f : Fill) : List Expr := f.start.toList ++ f.finish.toList ++ f.step.toList

def FrameBound.rows? : FrameBound → Option Expr
  | .currentRow => none
  | .preceding rows => rows
  | .following rows => rows

def WindowFrame.bounds (f : WindowFrame) : List Expr :=
  f.start.rows?.toList ++ (f.finish.bind FrameBound.rows?).toList

/-- The arguments in the parentheses of a call. A query there is one argument. -/
def Arguments.items : Arguments → List Expr
  | .absent => []
  | .query q => [.subquery q]
  | .list _ items _ => items

def Arguments.clauses : Arguments → List ArgumentClause
  | .list _ _ clauses => clauses
  | _ => []

def ArgumentClause.children : ArgumentClause → List Child
  | .orderBy keys => Role.operand.children keys
  | .limit count => Role.operand.children [count]
  | .having _ bound => Role.operand.children [bound]
  | .overflow filler _ => Role.filler.children filler.toList
  | .words _ => []

/-- All expressions that an expression directly holds, in the order in which they are read. -/
def Expr.children : Expr → List Child
  | .name _ | .path _ | .literal _ | .typed _ | .wildcard _ | .qualifiedWildcard _ _ => []
  | .access root chain => Role.operand.children [root] ++ chain.flatMap Selector.children
  | .nested inner => Role.operand.children [inner]
  | .test operand _ => Role.operand.children [operand]
  | .outerJoin column => Role.operand.children [column]
  | .prior operand => Role.operand.children [operand]
  | .before _ _ operand => Role.operand.children [operand]
  | .behind operand _ => Role.operand.children [operand]
  | .cast _ operand _ _ => Role.operand.children [operand]
  | .extract _ _ operand => Role.operand.children [operand]
  | .rounding _ operand _ => Role.operand.children [operand]
  | .collate operand _ => Role.operand.children [operand]
  | .named value _ => Role.operand.children [value]
  | .introduced _ value => Role.operand.children [value]
  | .interval amount _ => Role.operand.children [amount]
  | .distinctFrom left _ right => Role.operand.children [left, right]
  | .binary left _ right => Role.operand.children [left, right]
  | .quantified left _ _ _ right => Role.operand.children [left, right]
  | .like operand _ _ _ pattern _ => Role.operand.children [operand, pattern]
  | .atTimeZone time zone => Role.operand.children [time, zone]
  | .position sought searched => Role.operand.children [sought, searched]
  | .inList operand _ items => Role.operand.children (operand :: items)
  | .inSubquery operand _ _ => Role.operand.children [operand]
  | .inUnnest operand _ values => Role.operand.children [operand, values]
  | .between operand _ low high => Role.operand.children [operand, low, high]
  | .convert _ operand _ styles => Role.operand.children (operand :: styles)
  | .substring _ _ whole start length =>
    Role.operand.children (whole :: start.toList ++ length.toList)
  | .trim _ whole what characters => Role.operand.children (whole :: what.toList ++ characters)
  | .overlay whole replacement start length =>
    Role.operand.children (whole :: replacement :: start :: length.toList)
  | .call _ _ parameters arguments _ filter range within =>
    Role.argument.children (parameters.items ++ arguments.items)
      ++ parameters.clauses.flatMap ArgumentClause.children
      ++ arguments.clauses.flatMap ArgumentClause.children
      ++ Role.operand.children (filter.toList ++ range.toList ++ within)
  | .case operand branches otherwise =>
    Role.operand.children (operand.toList
      ++ branches.flatMap (fun b => [b.condition, b.result]) ++ otherwise.toList)
  | .exists _ _ | .subquery _ => []
  | .sets _ _ members => Role.operand.children members.flatten
  | .tuple items => Role.operand.children items
  | .struct _ values => Role.operand.children values
  | .array _ elements => Role.operand.children elements
  | .dictionary members => Role.operand.children (members.map Member.value)
  | .map entries => Role.operand.children (entries.flatMap fun e => [e.key, e.value])
  | .search _ _ => []
  | .memberOf value values => Role.operand.children [value, values]
  | .namedArgument _ _ value => Role.operand.children [value]
  | .labelledArgument label _ value => Role.label.children [label] ++ Role.operand.children [value]
  | .sorted key _ fill =>
    Role.operand.children [key] ++ Role.fillBound.children (fill.toList.flatMap Fill.bounds)
  | .window _ partition order frame =>
    Role.operand.children (partition ++ order)
      ++ Role.frameBound.children (frame.toList.flatMap WindowFrame.bounds)
  | .windowNamed _ => []
  | .windowDefinition _ definition => Role.operand.children [definition]

/-- The arguments of a call. -/
def Expr.arguments (e : Expr) : List Expr := Role.argument.among e.children

/-- The operands of an expression, those in the clauses of a call too. -/
def Expr.operands (e : Expr) : List Expr := Role.operand.among e.children

/-- The expressions that an expression directly reads. -/
def Expr.inner (e : Expr) : List Expr := e.arguments ++ e.operands

/-! An expression is larger than what it holds. -/

section
variable {e : Expr} {c : Child} {es : List Expr}

@[grind →]
theorem Role.expr_mem {role : Role} (held : c ∈ role.children es) : c.expr ∈ es := by
  obtain ⟨e, member, rfl⟩ := List.mem_map.mp held
  exact member

@[grind →]
theorem sizeOf_of_mem (held : e ∈ es) : sizeOf e < sizeOf es := List.sizeOf_lt_of_mem held

@[grind →]
theorem sizeOf_of_mem_toList {o : Option Expr} (held : e ∈ o.toList) : sizeOf e < sizeOf o := by
  obtain rfl := Option.mem_toList.mp held
  simp

@[grind →]
theorem sizeOf_of_mem_flatten {sets : List (List Expr)} (held : e ∈ sets.flatten) :
    sizeOf e < sizeOf sets := by
  obtain ⟨members, listed, held⟩ := List.mem_flatten.mp held
  exact Nat.lt_trans (List.sizeOf_lt_of_mem held) (List.sizeOf_lt_of_mem listed)

@[grind →]
theorem Branch.sizeOf_of_mem {branches : List Branch}
    (held : e ∈ branches.flatMap fun b => [b.condition, b.result]) : sizeOf e < sizeOf branches := by
  obtain ⟨⟨condition, result⟩, listed, held⟩ := List.mem_flatMap.mp held
  have smaller := List.sizeOf_lt_of_mem listed
  simp only [Branch.mk.sizeOf_spec] at smaller
  grind

@[grind →]
theorem Member.sizeOf_of_mem {members : List Member} (held : e ∈ members.map Member.value) :
    sizeOf e < sizeOf members := by
  obtain ⟨⟨key, value⟩, listed, rfl⟩ := List.mem_map.mp held
  have smaller := List.sizeOf_lt_of_mem listed
  simp only [Member.mk.sizeOf_spec] at smaller
  grind

@[grind →]
theorem Entry.sizeOf_of_mem {entries : List Entry}
    (held : e ∈ entries.flatMap fun entry => [entry.key, entry.value]) : sizeOf e < sizeOf entries := by
  obtain ⟨⟨key, value⟩, listed, held⟩ := List.mem_flatMap.mp held
  have smaller := List.sizeOf_lt_of_mem listed
  simp only [Entry.mk.sizeOf_spec] at smaller
  grind

@[grind →]
theorem Selector.sizeOf_of_mem {chain : List Selector} (held : c ∈ chain.flatMap children) :
    sizeOf c.expr < sizeOf chain := by
  obtain ⟨taken, listed, held⟩ := List.mem_flatMap.mp held
  refine Nat.lt_trans ?_ (List.sizeOf_lt_of_mem listed)
  cases taken <;> simp [children] at held ⊢ <;> grind

@[grind →]
theorem Arguments.sizeOf_item {a : Arguments} (held : e ∈ a.items) : sizeOf e ≤ sizeOf a := by
  cases a with
  | absent => cases held
  | query q =>
    obtain rfl := List.mem_singleton.mp held
    simp
  | list _ items _ => grind [items, list.sizeOf_spec]

@[grind →]
theorem ArgumentClause.sizeOf_of_mem {clauses : List ArgumentClause}
    (held : c ∈ clauses.flatMap children) : sizeOf c.expr < sizeOf clauses := by
  obtain ⟨clause, listed, held⟩ := List.mem_flatMap.mp held
  refine Nat.lt_trans ?_ (List.sizeOf_lt_of_mem listed)
  cases clause <;> simp [children] at held ⊢ <;> grind

@[grind →]
theorem Arguments.sizeOf_clause {a : Arguments} (held : c ∈ a.clauses.flatMap ArgumentClause.children) :
    sizeOf c.expr < sizeOf a := by
  have smaller := ArgumentClause.sizeOf_of_mem held
  cases a <;> simp [clauses] at smaller ⊢ <;> omega

@[grind →]
theorem Fill.sizeOf_bound {fill : Option Fill} (held : e ∈ fill.toList.flatMap bounds) :
    sizeOf e < sizeOf fill := by
  obtain ⟨⟨start, finish, step⟩, rfl, held⟩ : ∃ f, fill = some f ∧ e ∈ f.bounds := by simpa using held
  grind [bounds, mk.sizeOf_spec]

@[grind →]
theorem FrameBound.sizeOf_rows {b : FrameBound} (held : e ∈ b.rows?.toList) : sizeOf e < sizeOf b := by
  cases b <;> grind [rows?, preceding.sizeOf_spec, following.sizeOf_spec]

@[grind →]
theorem WindowFrame.sizeOf_bound {frame : Option WindowFrame} (held : e ∈ frame.toList.flatMap bounds) :
    sizeOf e < sizeOf frame := by
  obtain ⟨⟨unit, start, finish⟩, rfl, held⟩ : ∃ f, frame = some f ∧ e ∈ f.bounds := by simpa using held
  cases finish <;> grind [bounds, mk.sizeOf_spec]

/-- What an expression holds is smaller, whatever its role. -/
theorem Expr.sizeOf_child (held : c ∈ e.children) : sizeOf c.expr < sizeOf e := by
  cases e <;> simp only [children] at held <;> simp <;> grind

theorem Role.mem_among {role : Role} {children : List Child} :
    e ∈ role.among children ↔ ⟨role, e⟩ ∈ children := by
  rw [among, List.mem_map]
  constructor
  · rintro ⟨⟨own, _⟩, kept, rfl⟩
    obtain ⟨held, same⟩ := List.mem_filter.mp kept
    obtain rfl : own = role := of_decide_eq_true same
    exact held
  · exact fun member => ⟨_, List.mem_filter.mpr ⟨member, decide_eq_true rfl⟩, rfl⟩

theorem Expr.sizeOf_inner {part : Expr} (held : part ∈ e.inner) : sizeOf part < sizeOf e := by
  obtain held | held := List.mem_append.mp held
  · exact sizeOf_child (Role.mem_among.mp held)
  · exact sizeOf_child (Role.mem_among.mp held)

/-- What an expression holds is read unless it only describes something. -/
theorem Expr.mem_inner_of_child (held : c ∈ e.children) : c.expr ∈ e.inner ∨ c.role.describes = true := by
  obtain ⟨role, part⟩ := c
  cases role with
  | argument => exact .inl (List.mem_append_left _ (Role.mem_among.mpr held))
  | operand => exact .inl (List.mem_append_right _ (Role.mem_among.mpr held))
  | _ => exact .inr rfl

end

/-! What is read within an expression. -/

/-- An expression behind all expressions that are read within it, those in nested queries apart. -/
def Expr.parts (e : Expr) : List Expr :=
  e.inner.attach.flatMap (fun ⟨part, _⟩ => part.parts) ++ [e]
termination_by sizeOf e
decreasing_by exact sizeOf_inner ‹_›

theorem Expr.parts_eq (e : Expr) : e.parts = e.inner.flatMap Expr.parts ++ [e] := by
  rw [parts]
  simp

theorem Expr.mem_parts_self (e : Expr) : e ∈ e.parts := by
  rw [parts_eq]
  exact List.mem_append_right _ (List.mem_singleton_self e)

/-- The parts of an expression are closed under what is read. -/
theorem Expr.mem_parts_of_child (e : Expr) {part : Expr} {c : Child} (occurs : part ∈ e.parts)
    (held : c ∈ part.children) : c.expr ∈ e.parts ∨ c.role.describes = true := by
  induction e using Expr.parts.induct with
  | case1 e ih =>
    have within {inside : Expr} (read : inside ∈ e.inner) : ∀ part ∈ inside.parts, part ∈ e.parts := by
      intro part occurs
      rw [e.parts_eq]
      exact List.mem_append_left _ (List.mem_flatMap_of_mem read occurs)
    rw [e.parts_eq, List.mem_append, List.mem_singleton] at occurs
    obtain occurs | rfl := occurs
    · obtain ⟨inside, read, occurs⟩ := List.mem_flatMap.mp occurs
      exact (ih inside read occurs).imp_left (within read _)
    · exact (mem_inner_of_child held).imp_left fun read => within read _ (mem_parts_self _)

/-- The column that a path of names stands for: its last part, qualified with the part before it. -/
def columnAtEnd (path : List String) : Option ColumnRef :=
  path.getLast?.map fun name => ⟨path.dropLast.getLast?, name⟩

/-- The columns that an expression mentions itself, apart from the expressions within it. -/
def Expr.ownColumns : Expr → List ColumnRef
  | .name i => [⟨none, i.value⟩]
  | .path parts => (columnAtEnd (parts.map Ident.value)).toList
  | .search columns _ => columns.filterMap fun c => columnAtEnd (c.map fun part => unquoted part.text)
  | _ => []

/-- The query that an expression holds itself, apart from the expressions within it. -/
def Expr.ownQuery? : Expr → Option Query
  | .exists _ query => some query
  | .subquery query => some query
  | .inSubquery _ _ query => some query
  | _ => none

/-- The columns that an expression mentions outside nested queries, each as often as it does. -/
def Expr.columns (e : Expr) : List ColumnRef := e.parts.flatMap Expr.ownColumns

/-- The queries nested directly in an expression. -/
def Expr.queries (e : Expr) : List Query := e.parts.filterMap Expr.ownQuery?

theorem Expr.sizeOf_part (e : Expr) {part : Expr} (occurs : part ∈ e.parts) : sizeOf part ≤ sizeOf e := by
  induction e using Expr.parts.induct with
  | case1 e ih =>
    rw [e.parts_eq, List.mem_append, List.mem_singleton] at occurs
    obtain occurs | rfl := occurs
    · obtain ⟨inside, read, occurs⟩ := List.mem_flatMap.mp occurs
      exact Nat.le_trans (ih inside read occurs) (Nat.le_of_lt (sizeOf_inner read))
    · exact Nat.le_refl _

theorem Expr.sizeOf_query {e : Expr} {q : Query} (nested : q ∈ e.queries) : sizeOf q < sizeOf e := by
  obtain ⟨part, occurs, own⟩ := List.mem_filterMap.mp nested
  refine Nat.lt_of_lt_of_le ?_ (e.sizeOf_part occurs)
  unfold ownQuery? at own
  split at own <;> cases own <;> simp

end TableAccess.Sql
