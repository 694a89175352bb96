import TableAccess.Report.Assembly

/-! The program without its effects: what a command line gives, from the texts of files
and the environment. -/
namespace TableAccess

/-- A settings file. -/
inductive SettingsFile where
  | absent
  | unreadable
  | text (content : String)
deriving DecidableEq, Repr, Inhabited

/-- The settings of a file in place of others, if the file is there. -/
def SettingsFile.load (file : SettingsFile) (s : Settings) : Except Error Settings :=
  match file with
  | .absent => .ok s
  | .unreadable => .error (.setting "Failed to read config file: ")
  | .text content => Settings.ofToml content

/-- What surrounds a run: the settings files of the user and of the directory, the
variables of the environment, and the texts of files. -/
structure Surroundings where
  userSettings : SettingsFile
  localSettings : SettingsFile
  environment : String → Option String
  files : Files

/-- The settings in some surroundings. The file of the directory replaces that of the
user as a whole. -/
def Surroundings.settings (s : Surroundings) : Except Error Settings := do
  let settings ← s.localSettings.load (← s.userSettings.load .usual)
  match settings.applyEnvironment s.environment with
  | (settings, none) => return settings
  | (_, some e) => throw e

/-- What a run ends with. -/
inductive Outcome where
  /-- The command line asks for no work. -/
  | usage (fault : UsageFault)
  /-- The settings are wrong. -/
  | failed (e : Error)
  /-- A report, and how the program ends. -/
  | report (exitCode : Nat) (text : String)
deriving DecidableEq, Repr

namespace Command

/-- Do what a command asks for, with colours only if they can be shown. -/
def run (s : Surroundings) (settings : Settings) (canColor : Bool) (c : Command) : Outcome :=
  let plan := Plan.of c.options settings
  let style := { plan.style with colored := plan.style.colored && canColor }
  match c with
  | .resolve _ =>
    let report := plan.statementReport s.files
    .report (Report.exitCode report.diagnostics) (report.write style)
  | .lineage _ daos logic =>
    let report := plan.lineageReport s.files daos logic
    .report (Report.exitCode report.diagnostics) (report.write style)

/-- The files that a command names. -/
def paths : Command → List String
  | .resolve o => o.schemas ++ o.statements
  | .lineage o daos logic => o.schemas ++ o.statements ++ daos ++ logic

end Command

namespace Outcome

/-- What a command line gives. The settings are read only if it asks for work. -/
def ofArguments (s : Surroundings) (canColor : Bool) (arguments : List String) : Outcome :=
  match Command.parse arguments with
  | .error fault => .usage fault
  | .ok command =>
    match s.settings with
    | .error e => .failed e
    | .ok settings => command.run s settings canColor

/-- How the program ends. -/
def exitCode : Outcome → Nat
  | usage fault => fault.exitCode
  | failed _ => 2
  | report code _ => code

end Outcome
end TableAccess
