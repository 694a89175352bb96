import TableAccess.Program

/-! The program. It reads the files that a command line names, and writes the report. -/
namespace TableAccess

/-- The text of a file, if it can be read. -/
def readText? (path : String) : IO (Option String) := do
  try return some (← IO.FS.readFile path)
  catch _ => return none

/-- A settings file. -/
def readSettings (path : String) : IO SettingsFile := do
  match ← readText? path with
  | some content => return .text content
  | none =>
    let handle ← (IO.FS.Handle.mk path .read).toBaseIO
    match handle with
    | .error (.noFileOrDirectory ..) => return .absent
    | _ => return .unreadable

/-- The texts of some files. -/
def readFiles (paths : List String) : IO Files := do
  let texts ← paths.mapM fun path => do return (path, ← readText? path)
  return fun path => (texts.lookup path).join

/-- The variables that settings come from. -/
def readEnvironment : IO (String → Option String) := do
  let names := Settings.overrides.map Prod.fst
  let values ← names.mapM fun name => do return (name, ← IO.getEnv name)
  return fun name => (values.lookup name).join

/-- What surrounds a run that reads some files. -/
def readSurroundings (paths : List String) : IO Surroundings := do
  let userSettings ← match ← IO.getEnv "HOME" with
    | some home => readSettings (home ++ "/.config/crud-lineage/config.toml")
    | none => pure .absent
  return { userSettings
           localSettings := ← readSettings ".crud-lineage.toml"
           environment := ← readEnvironment
           files := ← readFiles paths }

/-- How the program is called. -/
def usageText : String :=
  "Usage: crud-lineage resolve -q FILE... [-s FILE...] [FLAG]...\n" ++
  "       crud-lineage lineage -q FILE... -d FILE... -l FILE... [-s FILE...] [FLAG]...\n"

end TableAccess

open TableAccess

/-- Run the program on a command line. -/
def main (arguments : List String) : IO UInt32 := do
  let paths := match Command.parse arguments with
    | .ok command => command.paths
    | .error _ => []
  let surroundings ← readSurroundings paths
  let canColor ← (← IO.getStdout).isTty
  let outcome := Outcome.ofArguments surroundings canColor arguments
  match outcome with
  | .usage .helpWanted | .usage .versionWanted => IO.print usageText
  | .usage _ => IO.eprint usageText
  | .failed e => IO.eprintln ("Error: " ++ e.label)
  | .report _ text => IO.println text
  return outcome.exitCode.toUInt32
