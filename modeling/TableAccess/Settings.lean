import TableAccess.Document.Toml
import TableAccess.Error
import TableAccess.Resolution
import TableAccess.Template

/-! Settings that hold where a call does not say otherwise. They come from a file, and
variables of the environment come before it. -/
namespace TableAccess
open TableAccess.Document TableAccess.Text

/-- The settings. -/
structure Settings where
  dialect : Sql.Dialect
  maxDepth : Nat
  source : TextSource
  workers : Option Nat
deriving DecidableEq, Repr, Inhabited

/-- The dialect of a name in a settings file. -/
def Sql.Dialect.ofName? : String → Option Sql.Dialect
  | "generic" => some .generic
  | "mysql" => some .mysql
  | "postgresql" | "postgres" => some .postgresql
  | "sqlite" => some .sqlite
  | "mssql" => some .mssql
  | _ => none

/-- The dialect that a user names, whatever the case of the name. -/
def Sql.Dialect.ofInput (text : String) : Except Error Sql.Dialect :=
  let name := fold (String.ofList (trim text.toList))
  match ofName? name with
  | some dialect => .ok dialect
  | none => .error (.setting ("Unknown SQL dialect '" ++ name ++ "'"))

/-- The kind of texts of a name in a settings file. -/
def TextSource.ofName? : String → Option TextSource
  | "plain" => some .plain
  | "mybatis" => some .mapper
  | _ => none

/-- A number that a user writes. -/
def numberOfInput? (text : String) : Option Nat :=
  match trim text.toList with
  | '+' :: digits => word64? digits
  | digits => word64? digits

namespace Settings

/-- The settings where nothing is set. -/
def usual : Settings := ⟨.postgresql, Resolver.usualDepth, .mapper, none⟩

/-- Whether nothing is in a value. -/
def isBare : Setting → Bool
  | .list [] | .table _ [] | .tables [] => true
  | _ => false

/-- A choice by name. The name may also stand over an empty value. -/
def choice? {α : Type} (ofName? : String → Option α) : Setting → Option α
  | .text name => ofName? name
  | .table _ [(name, value)] => if isBare value then ofName? name else none
  | _ => none

/-- A number of 64 bits. -/
def number? : Setting → Option Nat
  | .integer n => if 0 ≤ n && n < Int.pow 2 64 then some n.toNat else none
  | _ => none

/-- The values of named fields. Instead of a table there may be a list of the values. -/
def section? (names : List String) : Setting → Option (List (Option Setting))
  | .table _ fields => some (names.map fun name => fields.lookup name)
  | .list values =>
    if values.length ≤ names.length then
      some (values.map some ++ List.replicate (names.length - values.length) none)
    else none
  | .tables rows =>
    if rows.length ≤ names.length then
      some (rows.map (fun row => some (.table .header row))
        ++ List.replicate (names.length - rows.length) none)
    else none
  | _ => none

/-- A value that may be missing. -/
def orUsual {α : Type} (usual : α) (decode : Setting → Option α) (v : Option Setting) : Option α :=
  match v with
  | some v => decode v
  | none => some usual

/-- The settings of a file; fields of other names do not count. -/
def ofFields? (fields : Setting.Fields) : Option Settings := do
  let absent := Setting.table .path []
  let found := fun name => (fields.lookup name).getD absent
  let resolver ← section? ["dialect", "max_depth", "source"] (found "resolver")
  let runtime ← section? ["workers"] (found "runtime")
  match resolver, runtime with
  | [dialect, maxDepth, source], [workers] =>
    return ⟨← orUsual usual.dialect (choice? Sql.Dialect.ofName?) dialect,
      ← orUsual usual.maxDepth number? maxDepth,
      ← orUsual usual.source (choice? TextSource.ofName?) source,
      ← orUsual none (fun v => (number? v).map some) workers⟩
  | _, _ => none

/-- The settings of a file. -/
def ofToml (text : String) : Except Error Settings :=
  match (Toml.read? text).bind ofFields? with
  | some settings => .ok settings
  | none => .error (.setting "Invalid config file: ")

/-- The variable that sets the dialect. -/
def dialectVariable : String := "CRUD_LINEAGE_DIALECT"

/-- The variable that sets the depth. -/
def depthVariable : String := "CRUD_LINEAGE_MAX_DEPTH"

/-- The variable that sets the number of workers. -/
def workersVariable : String := "CRUD_LINEAGE_WORKERS"

/-- The number in a variable. -/
def variableNumber (key value : String) : Except Error Nat :=
  match numberOfInput? value with
  | some n => .ok n
  | none => .error (.setting (key ++ " must be a number, got '" ++ value ++ "'"))

/-- One variable of the environment, and what its value changes. -/
abbrev Override := String × (String → Settings → Except Error Settings)

/-- The variables, in the order in which they are read. -/
def overrides : List Override :=
  [(dialectVariable, fun value s => do return { s with dialect := ← Sql.Dialect.ofInput value }),
    (depthVariable, fun value s => do
      return { s with maxDepth := ← variableNumber depthVariable value }),
    (workersVariable, fun value s => do
      let n ← variableNumber workersVariable value
      return { s with workers := if n == 0 then none else some n })]

/-- Change settings by the variables of an environment, up to the first that is
wrong. -/
def applyVariables (environment : String → Option String) :
    List Override → Settings → Settings × Option Error
  | [], s => (s, none)
  | (key, change) :: rest, s =>
    match environment key with
    | none => applyVariables environment rest s
    | some value =>
      match change value s with
      | .ok s => applyVariables environment rest s
      | .error e => (s, some e)

/-- Change settings by an environment. -/
def applyEnvironment (environment : String → Option String) (s : Settings) :
    Settings × Option Error :=
  applyVariables environment overrides s

end Settings
end TableAccess
