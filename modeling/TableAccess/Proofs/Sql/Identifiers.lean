import TableAccess.Proofs.Binding.Mentions
import TableAccess.Proofs.Sql.NameTokens
import TableAccess.Proofs.Text.Blank
import TableAccess.Sql.Outline

/-! One identifier, one name. Where the syntax keeps an identifier its value is read; elsewhere it is
written out with its quotes, and these are taken off again. The value comes back wherever the identifier
stands just if it is plain: without blanks, periods and quotes around it, and with quotes inside it, where
it is quoted, only in pairs. -/
namespace TableAccess.Sql
open TableAccess.Text

/-- Whether characters stand between quotes. -/
def isEnclosed (characters : List Char) : Bool :=
  2 ≤ characters.length && match characters.head?, characters.getLast? with
    | some '"', some '"' => true
    | some '\x60', some '\x60' => true
    | some '[', some ']' => true
    | _, _ => false

/-- Whether an identifier is written so plainly that its value can be told from its spelling. Between
double quotes and backticks doubling quotes changes nothing then: those in the value are in pairs, or
behind a backslash. -/
structure Ident.IsPlain (i : Ident) : Prop where
  solid : ∀ c ∈ i.value.toList, isBlank c = false ∧ c ≠ '.'
  unenclosed : isEnclosed i.value.toList = false
  spelled : match i.quote with
    | none => True
    | some '[' => True
    | some '"' => doubleQuotes '"' '\x00' i.value.toList = i.value.toList
    | some '\x60' => doubleQuotes '\x60' '\x00' i.value.toList = i.value.toList
    | some _ => False

/-! Taking quotes off. -/

theorem unquoted_of_unenclosed {chars : List Char} (trimmed : trim chars = chars)
    (unenclosed : isEnclosed chars = false) : unquoted (String.ofList chars) = String.ofList chars := by
  simp only [unquoted, String.toList_ofList, trimmed]
  congr 1
  split
  · rfl
  · next long =>
    have long : decide (2 ≤ chars.length) = true := decide_eq_true (Nat.le_of_not_lt long)
    rw [isEnclosed, long, Bool.true_and] at unenclosed
    split
    · next first last => simp [first, last] at unenclosed
    · next first last => simp [first, last] at unenclosed
    · next first last => simp [first, last] at unenclosed
    · rfl

/-- The quotes that are taken off, with those that close them. -/
def enclosures : List (Char × Char) := [('"', '"'), ('\x60', '\x60'), ('[', ']')]

theorem unquoted_of_enclosed {opening closing : Char} (content : List Char)
    (enclosure : (opening, closing) ∈ enclosures) :
    unquoted (String.ofList (opening :: content ++ [closing])) = String.ofList content := by
  have last : (opening :: content ++ [closing]).getLast? = some closing := List.getLast?_concat
  have inner : (opening :: content ++ [closing]).dropLast.drop 1 = content := by
    rw [List.dropLast_concat]
    rfl
  have long : ¬ (opening :: content ++ [closing]).length < 2 := by simp
  simp only [enclosures, List.mem_cons, List.not_mem_nil, or_false, Prod.mk.injEq] at enclosure
  have trimmed : trim (opening :: content ++ [closing]) = opening :: content ++ [closing] := by
    refine trim_of_ends (fun c first => ?_) (fun c closes => ?_)
    · cases first
      rcases enclosure with ⟨rfl, rfl⟩ | ⟨rfl, rfl⟩ | ⟨rfl, rfl⟩ <;> rfl
    · rw [last] at closes
      cases closes
      rcases enclosure with ⟨rfl, rfl⟩ | ⟨rfl, rfl⟩ | ⟨rfl, rfl⟩ <;> rfl
  simp only [unquoted, String.toList_ofList, trimmed, last, inner, if_neg long]
  rcases enclosure with ⟨rfl, rfl⟩ | ⟨rfl, rfl⟩ | ⟨rfl, rfl⟩ <;> rfl

theorem mem_unquoted {written : String} {c : Char} (held : c ∈ (unquoted written).toList) :
    c ∈ written.toList := by
  have trimmed : ∀ c ∈ trim written.toList, c ∈ written.toList := fun c held => by
    have held := (List.dropWhile_sublist _).subset (List.mem_reverse.mp held)
    exact (List.dropWhile_sublist _).subset (List.mem_reverse.mp held)
  refine trimmed c ?_
  have content : ∀ c ∈ (trim written.toList).dropLast.drop 1, c ∈ trim written.toList := fun c held =>
    (List.dropLast_sublist _).subset (List.mem_of_mem_drop held)
  simp only [unquoted, String.toList_ofList] at held
  split at held
  · exact held
  · split at held
    · exact content c held
    · exact content c held
    · exact content c held
    · exact held

/-! Wildcards. -/

/-- The qualifier of a wildcard, where the names in front of it have neither blanks nor, in the last one,
periods. -/
theorem wildcardQualifier_written {before last options : List Char}
    (solidBefore : ∀ c ∈ before, isBlank c = false) (ends : ∀ c ∈ before.getLast?, c = '.')
    (solid : ∀ c ∈ last, isBlank c = false ∧ c ≠ '.') (follows : ∀ c ∈ options.head?, isBlank c = true) :
    wildcardQualifier (String.ofList (before ++ last ++ ['.', '*'] ++ options)) =
      some (unquoted (String.ofList last)) := by
  have front : ∀ c ∈ before ++ last ++ ['.', '*'], isBlank c = false := by
    simp only [List.forall_mem_append, List.forall_mem_cons]
    exact ⟨⟨solidBefore, fun c held => (solid c held).1⟩, rfl, rfl, List.forall_mem_nil _⟩
  have started : trimStart (before ++ last ++ ['.', '*'] ++ options) =
      before ++ last ++ ['.', '*'] ++ options :=
    trimStart_of_head fun c first => by
      rw [List.head?_append_of_ne_nil _ (by simp)] at first
      exact front c (List.mem_of_mem_head? first)
  have head : (before ++ last ++ ['.', '*'] ++ options).takeWhile (fun c => !isBlank c) =
      before ++ last ++ ['.', '*'] := by
    rw [List.takeWhile_append_of_pos (by simpa using front)]
    cases options with
    | nil => simp
    | cons c rest => simp [follows c rfl]
  have path : (last.reverse ++ before.reverse).takeWhile (· != '.') = last.reverse := by
    rw [List.takeWhile_append_of_pos (by simpa using fun c held => (solid c held).2)]
    cases reversed : before.reverse with
    | nil => simp
    | cons c rest =>
      have := ends c (by rw [← List.head?_reverse, reversed]; rfl)
      simp [this]
  simp only [wildcardQualifier, String.toList_ofList, started, head, List.reverse_append,
    List.reverse_cons, List.reverse_nil, List.nil_append, List.cons_append, path, List.reverse_reverse]

/-- A qualifier that is read from a wildcard has neither blanks nor periods. -/
theorem solid_of_wildcardQualifier {written name : String}
    (read : wildcardQualifier written = some name) :
    ∀ c ∈ name.toList, isBlank c = false ∧ c ≠ '.' := by
  simp only [wildcardQualifier] at read
  split at read
  · next path found =>
    obtain rfl := Option.some.inj read
    intro c held
    have held := mem_unquoted held
    rw [String.toList_ofList, List.mem_reverse] at held
    have other := List.all_eq_true.mp List.all_takeWhile c held
    have head : c ∈ (trimStart written.toList).takeWhile (fun c => !isBlank c) := by
      rw [← List.mem_reverse, found]
      exact .tail _ (.tail _ ((List.takeWhile_sublist _).subset held))
    exact ⟨by simpa using List.all_eq_true.mp List.all_takeWhile c head, by simpa using other⟩
  · cases read

/-! Spellings. -/

theorem length_le_doubleQuotes (quote previous : Char) (content : List Char) :
    content.length ≤ (doubleQuotes quote previous content).length := by
  fun_induction doubleQuotes quote previous content <;> simp_all
  all_goals omega

namespace Ident
variable {i : Ident}

theorem toList_text_bracketed (quoted : i.quote = some '[') :
    i.text.toList = '[' :: i.value.toList ++ [']'] := by
  simp [text, quoted]

theorem toList_text_quoted {q : Char} (quoted : i.quote = some q) (other : q ≠ '[') :
    i.text.toList = q :: doubleQuotes q '\x00' i.value.toList ++ [q] := by
  simp [text, quoted, Sql.quoted]

/-- What stands between the quotes of a plain identifier is its value. -/
theorem IsPlain.toList_text (plain : i.IsPlain) : i.text.toList = i.value.toList ∨
    ∃ opening closing, (opening, closing) ∈ enclosures ∧
      i.text.toList = opening :: i.value.toList ++ [closing] := by
  have spelled := plain.spelled
  split at spelled
  · next unquoted => exact .inl (by rw [text, unquoted])
  · next bracketed => exact .inr ⟨'[', ']', by decide, toList_text_bracketed bracketed⟩
  · next quoted =>
    exact .inr ⟨'"', '"', by decide, by rw [toList_text_quoted quoted (by decide), spelled]⟩
  · next quoted =>
    exact .inr ⟨'\x60', '\x60', by decide, by rw [toList_text_quoted quoted (by decide), spelled]⟩
  · exact spelled.elim

theorem IsPlain.unquoted_text (plain : i.IsPlain) : unquoted i.text = i.value := by
  rw [← String.ofList_toList (s := i.text)]
  rcases plain.toList_text with bare | ⟨opening, closing, enclosure, enclosed⟩
  · rw [bare, unquoted_of_unenclosed (trim_of_solid fun c held => (plain.solid c held).1)
      plain.unenclosed, String.ofList_toList]
  · rw [enclosed, unquoted_of_enclosed _ enclosure, String.ofList_toList]

theorem IsPlain.solid_text (plain : i.IsPlain) :
    ∀ c ∈ i.text.toList, isBlank c = false ∧ c ≠ '.' := by
  rcases plain.toList_text with bare | ⟨opening, closing, enclosure, enclosed⟩
  · rw [bare]
    exact plain.solid
  · have quotes : ∀ pair ∈ enclosures, (isBlank pair.1 = false ∧ pair.1 ≠ '.') ∧
        isBlank pair.2 = false ∧ pair.2 ≠ '.' := by decide
    rw [enclosed]
    simp only [List.cons_append, List.forall_mem_cons, List.forall_mem_append]
    exact ⟨(quotes _ enclosure).1, plain.solid, (quotes _ enclosure).2, List.forall_mem_nil _⟩

end Ident

/-- The last part of a name behind its qualification. -/
theorem Name.toList_text (schema : Name) (i : Ident) : (Name.text (schema ++ [i])).toList =
    (schema.flatMap fun part => part.text.toList ++ ['.']) ++ i.text.toList := by
  induction schema with
  | nil => simp [text]
  | cons part rest ih =>
    have split : text (part :: rest ++ [i]) = part.text ++ "." ++ text (rest ++ [i]) := by
      cases rest <;> simp [text, String.intercalate_cons_cons]
    rw [split, String.toList_append, ih, String.toList_append]
    simp

theorem Name.last_append (schema : Name) (i : Ident) : Name.last (schema ++ [i]) = unquoted i.text := by
  simp [last]

theorem SelectItem.output_wildcard {schema : Name} {i : Ident} {options : String}
    (plainSchema : ∀ part ∈ schema, part.IsPlain) (plain : i.IsPlain)
    (follows : ∀ c ∈ options.toList.head?, isBlank c = true) :
    SelectItem.output ⟨.qualifiedWildcard (schema ++ [i]) options, none⟩ = .wildcard (some i.value) := by
  have written : Expr.text (.qualifiedWildcard (schema ++ [i]) options) =
      String.ofList ((schema.flatMap fun part => part.text.toList ++ ['.']) ++ i.text.toList
        ++ ['.', '*'] ++ options.toList) := by
    have spelled : Expr.text (.qualifiedWildcard (schema ++ [i]) options) =
        Name.text (schema ++ [i]) ++ ".*" ++ options := rfl
    rw [spelled, ← Name.toList_text, ← String.ofList_toList (s := _ ++ options), String.toList_append,
      String.toList_append]
    rfl
  have solidBefore : ∀ c ∈ schema.flatMap fun part => part.text.toList ++ ['.'], isBlank c = false := by
    intro c held
    obtain ⟨part, member, held⟩ := List.mem_flatMap.mp held
    rcases List.mem_append.mp held with held | held
    · exact ((plainSchema part member).solid_text c held).1
    · rw [List.mem_singleton.mp held]
      rfl
  have ends : ∀ c ∈ (schema.flatMap fun part => part.text.toList ++ ['.']).getLast?, c = '.' := by
    rcases List.eq_nil_or_concat schema with rfl | ⟨others, part, rfl⟩
    · rintro _ ⟨⟩
    · intro c last
      simpa using last.symm
  change Output.wildcard (wildcardQualifier (Expr.text _)) = _
  rw [written, wildcardQualifier_written solidBefore ends plain.solid_text follows,
    String.ofList_toList, plain.unquoted_text]

/-! One name. -/

/-- The query that selects a column and all columns of the one table it names. -/
def Ident.selection (i c : Ident) : Query :=
  { isRecursive := false, ctes := [], orderShape := .unordered, order := []
    limitShape := .unlimited, limits := [], suffix := ""
    body := .select { Rule.bareSelect with
      items := [⟨.path [i, c], none⟩, ⟨.qualifiedWildcard [i] "", none⟩]
      tables := [⟨.table [i] "" none "", []⟩] } }

/-- Whether an identifier means the same name, its value, wherever it stands. -/
structure Ident.NamedOnce (i : Ident) : Prop where
  table : ∀ schema before aliasName after,
    (Relation.table (schema ++ [i]) before aliasName after).scope.tables =
      [⟨i.value, aliasName.map (·.name.value)⟩]
  tableBody : ∀ schema, (Body.table schema i.value).scope.tables = [⟨i.value, none⟩]
  tableAlias : ∀ name before explicit columns after,
    (Relation.table name before (some ⟨explicit, i, columns⟩) after).scope.tables =
      [⟨Name.last name, some i.value⟩]
  queryAlias : ∀ isLateral query explicit columns,
    (Relation.derived isLateral query (some ⟨explicit, i, columns⟩)).scope.derived =
      [⟨some i.value, columns.map (·.name.value), query.scope⟩]
  namedQuery : ∀ columns materialized query source rest,
    Cte.scopes (⟨i, columns, materialized, query, source⟩ :: rest) =
      ⟨i.value, columns.map (·.name.value), query.scope⟩ :: Cte.scopes rest
  itemAlias : ∀ value, (∀ options, value ≠ .wildcard options) →
    (∀ parts options, value ≠ .qualifiedWildcard parts options) →
    SelectItem.output ⟨value, some i⟩ = .named i.value
  column : (Expr.name i).nodes = [.column ⟨none, i.value⟩]
  qualifier : ∀ schema c, (Expr.path (schema ++ [i, c])).nodes = [.column ⟨some i.value, c.value⟩]
  insertTable : ∀ (n : Insertion) schema, { n with table := schema ++ [i] }.outline.table =
    ⟨i.value, n.aliasName.map Ident.value⟩
  insertColumn : ∀ n : Insertion, { n with columns := [i] }.outline.columns =
    i.value :: Assignment.targets n.assignments
  setTarget : ∀ schema value, Assignment.targets [⟨.column (schema ++ [i]), value⟩] = [i.value]
  sharedColumn : ∀ schema previous current, sharedColumns [schema ++ [i]] previous current =
    (previous.toList ++ current.toList).map fun side => .column ⟨some side, i.value⟩
  /-- The words behind a wildcard are separated from it. -/
  wildcard : ∀ schema options, (∀ part ∈ schema, part.IsPlain) →
    (∀ c ∈ options.toList.head?, isBlank c = true) →
    SelectItem.output ⟨.qualifiedWildcard (schema ++ [i]) options, none⟩ = .wildcard (some i.value)
  selects : ∀ (r : Resolver) c, ∃ name, sameName c.value name = true ∧
    let table := r.catalog.canonical [] i.value
    let reading := (i.selection c).scope.read r [] [] 0
    reading.tables = [table] ∧ reading.columns = [(table, name), (table, everyColumn)] ∧
      reading.notes = []

/-! A scope with one source. -/

/-- What a scope sees, where it has one source and the name of the source means a table. -/
def oneSource (name table : String) : Frames := [⟨⟨[⟨name, table⟩]⟩, [], []⟩]

section
variable {r : Resolver} {name table column : String}

theorem find?_oneSource : (oneSource name table).aliases.find? name = some table := by
  simp [oneSource, Frames.aliases, AliasMap.find?, AliasMap.entry?, sameName_refl]

theorem mention_oneSource : r.mention (oneSource name table) ⟨some name, column⟩ =
    .ofColumns [(table, r.catalog.spelling (oneSource name table) table column)] := by
  have meant : (oneSource name table).lookup name = some table := by
    change ((oneSource name table).aliases.find? name).orElse _ = _
    rw [find?_oneSource]
    rfl
  have attributed : r.catalog.attributionOf (oneSource name table) ⟨some name, column⟩ = .table table := by
    simp only [Catalog.attributionOf, meant]
  rw [Resolver.mention, attributed]
  rfl

theorem outputs_oneSource : r.outputs (oneSource name table) [.named column, .wildcard (some name)] =
    ⟨[], [(table, everyColumn)], [], column :: r.knownColumns (oneSource name table) table⟩ := by
  have all : r.output (oneSource name table) (.wildcard (some name)) =
      r.mentionAll (oneSource name table) table := by
    simp only [Resolver.output, find?_oneSource]
  rw [Resolver.outputs, List.map_cons, List.map_cons, all]
  simp [Resolver.output, Resolver.mentionAll, Reading.append, Reading.empty]

end

namespace Ident
variable {i : Ident}

theorem columnOfPath_append (schema : Name) (c : Ident) :
    columnOfPath ((schema ++ [i, c]).map Ident.value) = [.column ⟨some i.value, c.value⟩] := by
  simp [columnOfPath]

/-- The one table of a selection, where it is named as it is qualified with, takes both items. -/
theorem selects_of_scope {c : Ident} (scope : (i.selection c).scope =
      ⟨[], [⟨i.value, none⟩], [], [.column ⟨some i.value, c.value⟩],
        [.named c.value, .wildcard (some i.value)]⟩) (r : Resolver) :
    ∃ name, sameName c.value name = true ∧
      let table := r.catalog.canonical [] i.value
      let reading := (i.selection c).scope.read r [] [] 0
      reading.tables = [table] ∧ reading.columns = [(table, name), (table, everyColumn)] ∧
        reading.notes = [] := by
  let table := r.catalog.canonical [] i.value
  refine ⟨r.catalog.spelling (oneSource i.value table) table c.value,
    (sameName_comm _ _).trans (Catalog.sameName_spelling _), ?_⟩
  rw [scope]
  change (_ ++ (r.mention (oneSource i.value table) ⟨some i.value, c.value⟩ ++ .empty) ++
      r.outputs (oneSource i.value table) [.named c.value, .wildcard (some i.value)]).tables = [table] ∧
    (_ ++ (r.mention (oneSource i.value table) ⟨some i.value, c.value⟩ ++ .empty) ++
      r.outputs (oneSource i.value table) [.named c.value, .wildcard (some i.value)]).columns = _ ∧
    (_ ++ (r.mention (oneSource i.value table) ⟨some i.value, c.value⟩ ++ .empty) ++
      r.outputs (oneSource i.value table) [.named c.value, .wildcard (some i.value)]).notes = []
  rw [mention_oneSource, outputs_oneSource]
  exact ⟨rfl, rfl, rfl⟩

theorem IsPlain.namedOnce (plain : i.IsPlain) : i.NamedOnce where
  table schema before aliasName after := by
    rw [Relation.scope, Name.last_append, plain.unquoted_text]
    rfl
  tableBody schema := by
    have bare := unquoted_of_unenclosed (trim_of_solid fun c held => (plain.solid c held).1)
      plain.unenclosed
    rw [String.ofList_toList] at bare
    rw [Body.scope, bare]
    rfl
  tableAlias name before explicit columns after := rfl
  queryAlias isLateral query explicit columns := rfl
  namedQuery columns materialized query source rest := rfl
  itemAlias value other qualified := by
    cases value with
    | wildcard options => exact absurd rfl (other options)
    | qualifiedWildcard parts options => exact absurd rfl (qualified parts options)
    | _ => rfl
  column := rfl
  qualifier schema c := columnOfPath_append schema c
  insertTable n schema := by
    change (⟨Name.last (schema ++ [i]), _⟩ : TableRef) = _
    rw [Name.last_append, plain.unquoted_text]
  insertColumn n := by
    change unquoted i.text :: Assignment.targets n.assignments = _
    rw [plain.unquoted_text]
  setTarget schema value := by
    change [Name.last (schema ++ [i])] = _
    rw [Name.last_append, plain.unquoted_text]
  sharedColumn schema previous current := by
    rw [sharedColumns, List.flatMap_singleton, Name.last_append, plain.unquoted_text]
  wildcard schema options plainSchema follows := SelectItem.output_wildcard plainSchema plain follows
  selects r c := by
    have all : SelectItem.output ⟨.qualifiedWildcard ([] ++ [i]) "", none⟩ = .wildcard (some i.value) :=
      SelectItem.output_wildcard (List.forall_mem_nil _) plain (by simp)
    have named := plain.unquoted_text
    refine selects_of_scope ?_ r
    change (⟨[], [⟨unquoted i.text, none⟩], [], [.column ⟨some i.value, c.value⟩],
      [.named c.value, SelectItem.output ⟨.qualifiedWildcard [i] "", none⟩]⟩ : Scope) = _
    rw [List.nil_append] at all
    rw [named, all]

theorem exists_of_isEnclosed {chars : List Char} (enclosed : isEnclosed chars = true) :
    ∃ opening content closing, (opening, closing) ∈ enclosures ∧
      chars = opening :: content ++ [closing] := by
  obtain ⟨long, pair⟩ := Bool.and_eq_true_iff.mp enclosed
  cases chars with
  | nil => cases long
  | cons opening rest =>
    rcases List.eq_nil_or_concat rest with rfl | ⟨content, closing, rfl⟩
    · cases long
    · rw [List.concat_eq_append] at pair ⊢
      refine ⟨opening, content, closing, ?_, rfl⟩
      have last : (opening :: (content ++ [closing])).getLast? = some closing :=
        List.getLast?_concat (l := opening :: content)
      simp only [List.head?_cons, last] at pair
      split at pair <;> simp_all [enclosures]

/-- What is a string in quotes keeps them. -/
theorem unquoted_text_of_string (quoted : i.quote = some '\'') : unquoted i.text = i.text := by
  have spelled := toList_text_quoted quoted (by decide)
  have last : i.text.toList.getLast? = some '\'' := by
    rw [spelled]
    exact List.getLast?_concat
  have trimmed : trim i.text.toList = i.text.toList :=
    trim_of_ends (by rw [spelled]; rintro _ ⟨⟩; rfl) (by rw [last]; rintro _ ⟨⟩; rfl)
  have taken := unquoted_of_unenclosed trimmed (by simp [isEnclosed, spelled])
  rwa [String.ofList_toList] at taken

/-- What is left between quotes that are taken off has the quotes within it doubled. -/
theorem doubleQuotes_of_unquoted {q : Char} (quoted : i.quote = some q) (enclosure : (q, q) ∈ enclosures)
    (taken : unquoted i.text = i.value) : doubleQuotes q '\x00' i.value.toList = i.value.toList := by
  have other : q ≠ '[' := by
    rintro rfl
    revert enclosure
    decide
  rw [← String.ofList_toList (s := i.text), toList_text_quoted quoted other,
    unquoted_of_enclosed _ enclosure] at taken
  exact (String.toList_ofList).symm.trans (congrArg String.toList taken)

/-- An identifier with a quote of its language is plain, if its value comes back wherever it stands. -/
theorem NamedOnce.isPlain (named : i.NamedOnce)
    (written : i.quote ∈ [none, some '"', some '\x60', some '[', some '\'']) : i.IsPlain where
  solid := solid_of_wildcardQualifier (Output.wildcard.inj (named.wildcard [] "" nofun nofun))
  unenclosed := by
    have bare : unquoted i.value = i.value := by
      simpa [Body.scope, Scope.ofTable] using named.tableBody none
    refine Bool.eq_false_iff.mpr fun enclosed => ?_
    obtain ⟨opening, content, closing, enclosure, value⟩ := exists_of_isEnclosed enclosed
    rw [← String.ofList_toList (s := i.value), value, unquoted_of_enclosed _ enclosure] at bare
    have shorter := congrArg (fun s => s.toList.length) bare
    simp at shorter
    omega
  spelled := by
    have taken : unquoted i.text = i.value := by
      simpa [Relation.scope, Scope.ofTable, Name.last] using named.table [] "" none ""
    simp only [List.mem_cons, List.not_mem_nil, or_false] at written
    rcases written with quoted | quoted | quoted | quoted | quoted <;> simp only [quoted]
    · exact doubleQuotes_of_unquoted quoted (by decide) taken
    · exact doubleQuotes_of_unquoted quoted (by decide) taken
    · rw [unquoted_text_of_string quoted] at taken
      have longer := congrArg (fun s => s.toList.length) taken
      have enough := length_le_doubleQuotes '\'' '\x00' i.value.toList
      simp only [toList_text_quoted quoted (by decide : '\'' ≠ '['), List.length_append,
        List.length_cons, List.length_nil] at longer
      omega

end Ident

/-- The identifiers of a text are unquoted, quoted as the dialect quotes names, or strings. -/
theorem quote_of_identOf {d : Dialect} {text : String} {tokens : List Lexeme} {l : Lexeme} {i : Ident}
    (read : lexemes d text = .ok tokens) (held : l ∈ tokens) (identifier : Rule.identOf l.token = some i) :
    i.quote ∈ [none, some '"', some '\x60', some '[', some '\''] := by
  have opens := opensIn_of_lexemes read held
  rw [Rule.identOf.eq_def] at identifier
  split at identifier
  · next value quote token =>
    cases identifier
    cases quote with
    | none => exact List.mem_cons_self
    | some q =>
      have opens := opens q (by rw [token]; rfl)
      have listed : q = '"' ∨ q = '\x60' ∨ q = '[' := by
        cases d <;> simp only [Dialect.opensIdentifier, Bool.or_eq_true, beq_iff_eq] at opens <;> tauto
      rcases listed with rfl | rfl | rfl <;> simp
  · cases identifier
    simp
  · cases identifier
    simp
  · cases identifier

/-- **One identifier, one name, if it is plain.** An identifier of a text of any dialect means its value
wherever it stands, and takes both items of a selection that qualifies them with it, just if it is
plain. -/
theorem Ident.namedOnce_iff {d : Dialect} {text : String} {tokens : List Lexeme} {l : Lexeme} {i : Ident}
    (read : lexemes d text = .ok tokens) (held : l ∈ tokens) (identifier : Rule.identOf l.token = some i) :
    i.NamedOnce ↔ i.IsPlain :=
  ⟨fun named => named.isPlain (quote_of_identOf read held identifier), fun plain => plain.namedOnce⟩

theorem Ident.namedOnce_iff_quoted :
    lexemes .postgresql "TABLE \"users\"" =
        .ok [⟨.word "TABLE" none, some 0, false⟩, ⟨.word "users" (some '"'), some 1, false⟩] ∧
      Rule.identOf (.word "users" (some '"')) = some ⟨"users", some '"'⟩ ∧
      (Ident.NamedOnce ⟨"users", some '"'⟩ ↔ Ident.IsPlain ⟨"users", some '"'⟩) := by
  have read : lexemes .postgresql "TABLE \"users\"" =
      .ok [⟨.word "TABLE" none, some 0, false⟩, ⟨.word "users" (some '"'), some 1, false⟩] := by
    decide +kernel
  exact ⟨read, rfl, namedOnce_iff read (.tail _ List.mem_cons_self) rfl⟩

/-- A quote within quotes: the table keeps it doubled, so the qualifier means no table. -/
theorem qualifier_not_its_table :
    ((lexemes .postgresql "SELECT \"a\"\"b\".c, \"a\"\"b\".* FROM \"a\"\"b\"").toOption.map
      fun tokens => tokens.filterMap fun l => Rule.identOf l.token) =
        some [⟨"SELECT", none⟩, ⟨"a\"b", some '"'⟩, ⟨"c", none⟩, ⟨"a\"b", some '"'⟩, ⟨"FROM", none⟩,
          ⟨"a\"b", some '"'⟩] ∧
      ((readStatement .postgresql "SELECT \"a\"\"b\".c, \"a\"\"b\".* FROM \"a\"\"b\"").toOption.map
        fun s => (s.read ⟨.empty, Resolver.usualDepth⟩).columns) =
        some [(unknownBucket, "c"), ("a\"\"b", everyColumn)] := by
  decide +kernel

end TableAccess.Sql
