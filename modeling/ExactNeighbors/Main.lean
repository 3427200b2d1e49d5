import ExactNeighbors.CommandLine.Run
import ExactNeighbors.Settings.Standard

/-!
# The program

Reads the files and variables that a request names, runs it, and prints what it leaves behind.
-/
namespace ExactNeighbors

def readText? (path : String) : IO (Option String) := do
  try return some (← IO.FS.readFile path) catch _ => return none

def readFiles (paths : List String) : IO Files := do
  let texts ← paths.mapM fun path => do return (path, ← readText? path)
  return fun path => (texts.lookup path).join

def settingsKeys : List String :=
  ["DIMENSION", "METRIC", "EXCLUDE_TOMBSTONES", "INITIAL_CAPACITY", "LOG_LEVEL"]

def readVariables : IO (List (String × String)) := do
  let found ← settingsKeys.mapM fun key => do
    let name := "FLATMUT_" ++ key
    return (← IO.getEnv name).map fun value => (name, value)
  return found.filterMap id

def settingsDirectory : IO String := do
  match ← IO.getEnv "XDG_CONFIG_HOME", ← IO.getEnv "HOME" with
  | some base, _ => return base ++ "/flatmut"
  | none, some home => return home ++ "/.config/flatmut"
  | none, none => return "."

def settingsPaths (path : String) : List String := path :: (Settings.candidates path).map (·.2)

def gatherSources (args : List String) : IO Settings.Sources := do
  let defaultPath := (← settingsDirectory) ++ "/config"
  let named := match CommandLine.parse args with
    | .error _ => []
    | .ok i => i.config?.toList.flatMap settingsPaths ++ i.vectorPaths
  return {
    files := ← readFiles (settingsPaths defaultPath ++ named)
    defaultPath
    environment := ← readVariables }

end ExactNeighbors

open ExactNeighbors in
def main (args : List String) : IO UInt32 := do
  let output := CommandLine.run .standard .standard (← gatherSources args) args
  IO.print output.stdout
  IO.eprint output.stderr
  return output.exit.toUInt32
