import TableAccess.Document.Record
import TableAccess.Document.Yaml
import TableAccess.Document.Json
import TableAccess.Error
import TableAccess.Name

/-! Documents in files. The extension of a file tells its notation; a file without a
known one is in JSON. -/
namespace TableAccess.Document
open TableAccess.Text

/-- The last part of a path. Separators at the end do not count. -/
def fileName (path : String) : List Char :=
  (((path.toList.reverse).dropWhile (· == '/')).takeWhile (· != '/')).reverse

/-- The extension of a path: what follows the last period of its last part, unless that
period comes first. -/
def extension? (path : String) : Option String :=
  let backwards := (fileName path).reverse
  let after := backwards.takeWhile (· != '.')
  match backwards.drop after.length with
  | [] | ['.'] => none
  | _ => some (String.ofList after.reverse)

/-- Whether a path has one of some extensions, whatever its case. -/
def hasExtension (extensions : List String) (path : String) : Bool :=
  match extension? path with
  | some e => hasName extensions e
  | none => false

/-- The notation of a file. -/
def Notation.ofPath (path : String) : Notation :=
  if hasExtension ["yaml", "yml"] path then .yaml else .json

/-- Read a text in a notation. -/
def Notation.read (n : Notation) (text : String) : Read :=
  match n with
  | .json => Json.read text
  | .yaml => Yaml.read text

/-- What the text of a file holds. -/
def decode {α : Type} (record? : Notation → Value → Option α) (path text : String) :
    Except Error α :=
  let n := Notation.ofPath path
  match (n.read text).value?.bind (record? n) with
  | some found => .ok found
  | none => .error (.malformed path "")

/-- The statements in the text of a file. -/
def mapper (path text : String) : Except Error Mapper := decode mapper? path text

/-- The data access methods in the text of a file. -/
def daoMethods (path text : String) : Except Error (List DaoMethod) :=
  decode (fun n => listOf? n (daoMethod? n)) path text

/-- The methods of the logic in the text of a file. -/
def logicMethods (path text : String) : Except Error (List LogicMethod) :=
  decode (fun n => listOf? n (logicMethod? n)) path text

end TableAccess.Document
