import ExactNeighbors.CommandLine.Invocation
import ExactNeighbors.Report

/-!
# Carrying out a command line

Settings are loaded first, then the command runs, and its report or its failure becomes the
output and the exit code.
-/
namespace ExactNeighbors.CommandLine

structure Output where
  exit : Nat
  stdout : String := ""
  stderr : String := ""
deriving DecidableEq, Repr

def versionText : String := "flatmut 0.3.0\n"

def errorText : List String → String
  | [] => ""
  | [message] => "Error: " ++ message
  | message :: causes =>
    "Error: " ++ message ++ "\n\nCaused by:" ++ String.join (causes.map fun c => "\n    " ++ c)

variable {Value : Type} (host : Host) (engine : Engine Value) (sources : Settings.Sources)

def loadSettings (i : Invocation) : Except CommandError Settings := do
  let settings ← (Settings.load engine sources i.config?).mapError .settings
  return { settings with logLevel := i.logLevel?.getD settings.logLevel }

def perform (i : Invocation) : Except CommandError Json := do
  let settings ← loadSettings engine sources i
  match i.action with
  | .search queries k =>
    return hitLists (← Command.search host sources.files settings i.options queries k)
  | .range queries radius =>
    return hitLists (← Command.range host sources.files settings i.options queries radius)
  | .recycle insert =>
    return (← Command.recycle host sources.files settings i.options insert).toJson
  | .stats => return (← Command.stats host sources.files settings i.options).toJson

def run (args : List String) : Output :=
  match parse args with
  | .error .usage => { exit := 2, stderr := "error: invalid usage\n" }
  | .error .version => { exit := 0, stdout := versionText }
  | .ok i =>
    match perform host engine sources i with
    | .ok report => { exit := 0, stdout := report.pretty ++ "\n" }
    | .error e => { exit := 1, stderr := errorText e.messages ++ "\n" }

end ExactNeighbors.CommandLine
