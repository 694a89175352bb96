import TableAccess.Document.Value
import TableAccess.Lineage.Record

/-! The records that documents hold: the statements of a mapper, data access methods and
methods of the logic. A record is a table of its fields; fields of other names do not
count, and a field must not be given twice. The notations differ in what else they take
for a record, for a text or for an absent value. -/
namespace TableAccess

/-- A statement as a mapper holds it, with the operation that the mapper names. -/
structure MapperStatement where
  id : String
  text : String
  operation : Option Operation
deriving DecidableEq, Repr, Inhabited

/-- The statements of one mapper. -/
structure Mapper where
  space : String
  statements : List MapperStatement
deriving DecidableEq, Repr, Inhabited

namespace Document

/-- The notations of documents. -/
inductive Notation where
  /-- Texts have quotes, and a record may be the list of its fields. -/
  | json
  /-- Anything without structure is a text, and a tag may name an operation. -/
  | yaml
deriving DecidableEq, Repr, Inhabited

/-- A text. -/
def text? (n : Notation) : Value → Option String
  | .text content => some content
  | .plain written => if n == .yaml then some written else none
  | .tagged _ (.text content) => some content
  | .tagged _ (.plain written) => some written
  | _ => none

/-- Whether a value says that there is none. -/
def isAbsent (n : Notation) : Value → Bool
  | .plain written =>
    match n with
    | .json => written == "null"
    | .yaml => ["", "~", "null", "Null", "NULL"].contains written
  | _ => false

/-- The items of a list. Where a table has a field without any value, the list has no
item. -/
def items? (n : Notation) : Value → Option (List Value)
  | .list items => some items
  | .tagged _ (.list items) => some items
  | .plain written => if n == .yaml && written.isEmpty then some [] else none
  | _ => none

/-- A list of texts. -/
def texts? (n : Notation) (v : Value) : Option (List String) :=
  (items? n v).bind (List.mapM (text? n))

/-- The operation of a name. Mappers and sessions name operations in several ways. -/
def operationOfName? (name : String) : Option Operation :=
  if ["Create", "create", "insert", "C"].contains name then some .create
  else if ["Read", "read", "select", "selectOne", "selectList", "selectMap", "R"].contains name then
    some .read
  else if ["Update", "update", "U"].contains name then some .update
  else if ["Delete", "delete", "D"].contains name then some .delete
  else if ["Unknown", "unknown"].contains name then some .unknown
  else none

/-- An operation. Its name may stand over an absent value. -/
def operation? (n : Notation) (v : Value) : Option Operation :=
  match n, v with
  | .json, .text name => operationOfName? name
  | .json, .table [(some name, value)] => if isAbsent n value then operationOfName? name else none
  | .yaml, .tagged tag value =>
    match tag.toList with
    | '!' :: name =>
      if isAbsent n value then operationOfName? (String.ofList name) else none
    | _ => (text? n value).bind operationOfName?
  | .yaml, v => (text? n v).bind operationOfName?
  | _, _ => none

/-- An operation, where there is one. -/
def optionalOperation? (n : Notation) (v : Value) : Option (Option Operation) :=
  if isAbsent n v then some none else (operation? n v).map some

/-- The values of the named fields of a record, in the order of the names. -/
def record? (n : Notation) (names : List String) (v : Value) : Option (List (Option Value)) :=
  match v with
  | .table fields | .tagged _ (.table fields) => do
    let keys ← fields.mapM Prod.fst
    if names.any fun name => keys.count name > 1 then none
    return names.map fun name =>
      (fields.find? fun field => field.1 == some name).map Prod.snd
  | .list values =>
    if n == .json && values.length ≤ names.length then
      some (values.map some ++ List.replicate (names.length - values.length) none)
    else none
  | _ => none

/-- A field that may be missing. -/
def orDefault {α : Type} [Inhabited α] (decode : Value → Option α) (v : Option Value) : Option α :=
  match v with
  | some v => decode v
  | none => some default

/-- The identifier of a statement. -/
def statementId? (n : Notation) (v : Value) : Option StatementId := do
  match ← record? n ["namespace", "id"] v with
  | [space, some id] => return ⟨← orDefault (text? n) space, ← text? n id⟩
  | _ => none

/-- A data access method. -/
def daoMethod? (n : Notation) (v : Value) : Option DaoMethod := do
  match ← record? n ["dao_class", "method", "statement", "crud", "parameters"] v with
  | [some daoClass, some method, some statement, some operation, parameters] =>
    return ⟨← text? n daoClass, ← text? n method, ← statementId? n statement,
      ← operation? n operation, ← orDefault (texts? n) parameters⟩
  | _ => none

/-- A method of the logic. -/
def logicMethod? (n : Notation) (v : Value) : Option LogicMethod := do
  match ← record? n ["logic_class", "logic_method", "invocations"] v with
  | [some logicClass, some logicMethod, invocations] =>
    return ⟨← text? n logicClass, ← text? n logicMethod, ← orDefault (texts? n) invocations⟩
  | _ => none

/-- A statement of a mapper. -/
def mapperStatement? (n : Notation) (v : Value) : Option MapperStatement := do
  match ← record? n ["id", "sql", "kind"] v with
  | [some id, some text, operation] =>
    return ⟨← text? n id, ← text? n text, ← orDefault (optionalOperation? n) operation⟩
  | _ => none

/-- The statements of a mapper. -/
def mapper? (n : Notation) (v : Value) : Option Mapper := do
  match ← record? n ["namespace", "statements"] v with
  | [space, some statements] =>
    return ⟨← orDefault (text? n) space, ← (← items? n statements).mapM (mapperStatement? n)⟩
  | _ => none

/-- A list of records. -/
def listOf? {α : Type} (n : Notation) (decode : Value → Option α) (v : Value) : Option (List α) :=
  (items? n v).bind (List.mapM decode)

end Document
end TableAccess
