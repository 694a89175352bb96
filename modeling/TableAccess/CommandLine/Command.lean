import TableAccess.CommandLine.Flag

/-! Command lines. After a flag that takes files, each word up to the next flag is one of
them; any other flag takes one word. The values of a flag are looked at when the next flag
begins, so the first fault from the left is the one that is reported. -/
namespace TableAccess

/-- What is asked for beside the files of lineage. -/
structure Options where
  schemas : List String
  statements : List String
  dialect : Option Sql.Dialect
  maxDepth : Option Nat
  workers : Option Nat
  plainText : Bool
  format : ReportFormat
  verbose : Bool
  noColor : Bool
deriving DecidableEq, Repr, Inhabited

/-- What the program is asked to do. -/
inductive Command where
  | resolve (options : Options)
  | lineage (options : Options) (daos logic : List String)
deriving DecidableEq, Repr

/-- The options of a command. -/
def Command.options : Command → Options
  | resolve options => options
  | lineage options _ _ => options

/-- The commands of the program. -/
inductive CommandName where
  | resolve | lineage
deriving DecidableEq, Repr

namespace CommandName

/-- The command of a name. -/
def ofText? : String → Option CommandName
  | "resolve" => some resolve
  | "lineage" => some lineage
  | _ => none

/-- The flags of a command. -/
def flags : CommandName → List Flag
  | resolve => Flag.common
  | lineage => Flag.all

/-- The flags that a command must have. -/
def required : CommandName → List Flag
  | resolve => [.statements]
  | lineage => [.statements, .daos, .logic]

end CommandName

/-- The flags read so far with their values, and the one whose values are being read. -/
structure FlagValues where
  given : List (Flag × List String)
  pending : Option (Flag × List String)
deriving Repr, Inhabited

namespace FlagValues

/-- All values of a flag. -/
def valuesOf (v : FlagValues) (flag : Flag) : List String :=
  (v.given.filter fun entry => entry.1 == flag).flatMap Prod.snd

/-- Whether a flag is given. -/
def has (v : FlagValues) (flag : Flag) : Bool := v.given.any fun entry => entry.1 == flag

/-- Take a flag with its values. Only a flag that takes files may come again. -/
def record (v : FlagValues) (flag : Flag) (values : List String) : Except UsageFault FlagValues :=
  if flag.takesValue && values.isEmpty then .error .badValue
  else if !flag.takesFiles && v.has flag then .error .repeatedFlag
  else match values.findSome? flag.fault? with
    | some fault => .error fault
    | none => .ok { v with given := v.given ++ [(flag, values)] }

/-- Take the flag whose values are being read. -/
def settle (v : FlagValues) : Except UsageFault FlagValues :=
  match v.pending with
  | none => .ok v
  | some (flag, values) => { v with pending := none }.record flag values

/-- Whether a word is a value of the flag before it. -/
def takesMore (v : FlagValues) : Bool :=
  match v.pending with
  | some (flag, values) => flag.takesFiles || values.isEmpty
  | none => false

/-- Add a word to the values being read. -/
def push (v : FlagValues) (word : String) : Except UsageFault FlagValues :=
  match v.pending with
  | some (flag, values) =>
    if v.takesMore then .ok { v with pending := some (flag, values ++ [word]) }
    else .error .unknownFlag
  | none => .error .unknownFlag

/-- Begin a flag, which may have a value attached to it. -/
def start (v : FlagValues) (flag : Flag) (attached : Option String) :
    Except UsageFault FlagValues := do
  match flag.takesValue, attached with
  | true, some value => (← v.settle).record flag [value]
  | true, none => return { ← v.settle with pending := some (flag, []) }
  | false, some _ => throw .unwantedValue
  | false, none => (← v.settle).record flag []

/-- A request for help. The flags before it must be right. -/
def help (v : FlagValues) (attached : Option String) : Except UsageFault FlagValues := do
  if attached.isSome then throw .unwantedValue
  let _ ← v.settle
  throw .helpWanted

/-- Read a flag by its long name. -/
def long (v : FlagValues) (flags : List Flag) (name : String) (attached : Option String) :
    Except UsageFault FlagValues :=
  if name == "help" then v.help attached
  else match flags.find? fun f => f.name == name with
    | some flag => v.start flag attached
    | none => .error .unknownFlag

/-- Read flags by their letters. What follows the letter of a flag that takes a value is
its value, with or without an equals sign. -/
def letters (flags : List Flag) : FlagValues → List Char → Except UsageFault FlagValues
  | v, [] => .ok v
  | v, c :: rest =>
    if c == 'h' then v.help none
    else match flags.find? fun f => f.letter? == some c with
      | none => .error .unknownFlag
      | some flag =>
        if flag.takesValue then
          match rest with
          | [] => v.start flag none
          | '=' :: value => v.start flag (some (String.ofList value))
          | value => v.start flag (some (String.ofList value))
        else match v.start flag none with
          | .ok v => letters flags v rest
          | .error fault => .error fault

end FlagValues

/-- A long name and the value attached to it. -/
def splitAttached (text : List Char) : String × Option String :=
  match Text.splitAt? ['='] text with
  | some (name, value) => (String.ofList name, some (String.ofList value))
  | none => (String.ofList text, none)

/-- Read the words behind the name of a command. Behind two dashes no word is a flag, and
no command takes such words. -/
def readFlags (flags : List Flag) : FlagValues → List String → Except UsageFault FlagValues
  | v, [] => v.settle
  | v, word :: rest =>
    match word.toList with
    | ['-', '-'] => if rest.isEmpty then v.settle else .error .unknownFlag
    | '-' :: '-' :: text =>
      let (name, attached) := splitAttached text
      match v.long flags name attached with
      | .ok v => readFlags flags v rest
      | .error fault => .error fault
    | '-' :: c :: text =>
      match FlagValues.letters flags v (c :: text) with
      | .ok v => readFlags flags v rest
      | .error fault => .error fault
    | _ =>
      match v.push word with
      | .ok v => readFlags flags v rest
      | .error fault => .error fault

/-- The options that some flags give. -/
def FlagValues.options (v : FlagValues) : Options :=
  { schemas := v.valuesOf .schema
    statements := v.valuesOf .statements
    dialect := (v.valuesOf .dialect).head?.bind Flag.dialectOf?
    maxDepth := (v.valuesOf .maxDepth).head?.bind Flag.numberOf?
    workers := (v.valuesOf .workers).head?.bind Flag.numberOf?
    plainText := v.has .plainText
    format := ((v.valuesOf .format).head?.bind Flag.formatOf?).getD .text
    verbose := v.has .verbose
    noColor := v.has .noColor }

namespace Command

/-- Read the words behind the name of a command. -/
def ofFlags (name : CommandName) (words : List String) : Except UsageFault Command := do
  let v ← readFlags name.flags ⟨[], none⟩ words
  if name.required.any fun flag => !v.has flag then throw .missingFlag
  match name with
  | .resolve => return .resolve v.options
  | .lineage => return .lineage v.options (v.valuesOf .daos) (v.valuesOf .logic)

/-- Whether a word is the name of a command, the one for help included. -/
def isName (word : String) : Bool := word == "help" || (CommandName.ofText? word).isSome

/-- What the words behind a request for help ask for. -/
def ofHelp : List String → UsageFault
  | [] => .helpWanted
  | [word] => if isName word then .helpWanted else .unknownCommand
  | _ => .unknownCommand

/-- What the first word asks for if it is a flag by its long name. -/
def ofLong (text : List Char) : UsageFault :=
  match splitAttached text with
  | ("help", none) => .helpWanted
  | ("version", none) => .versionWanted
  | ("help", some _) | ("version", some _) => .unwantedValue
  | _ => .unknownFlag

/-- What the first word asks for if it is a letter. -/
def ofLetter : Char → UsageFault
  | 'h' => .helpWanted
  | 'V' => .versionWanted
  | _ => .unknownFlag

/-- Read a command line. -/
def parse : List String → Except UsageFault Command
  | [] => .error .nothingAsked
  | word :: rest =>
    if word == "help" then .error (ofHelp rest)
    else match CommandName.ofText? word with
      | some name => ofFlags name rest
      | none =>
        match word.toList, rest with
        | ['-', '-'], [] => .error .nothingAsked
        | ['-', '-'], next :: _ => .error (if isName next then .unknownFlag else .unknownCommand)
        | '-' :: '-' :: text, _ => .error (ofLong text)
        | '-' :: c :: _, _ => .error (ofLetter c)
        | _, _ => .error .unknownCommand

end Command
end TableAccess
