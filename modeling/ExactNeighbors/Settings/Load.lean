import ExactNeighbors.Settings.Basic
import ExactNeighbors.Settings.Engine

/-!
# Loading settings

Four layers, each over the one before: built-in values, the default file, the file that was asked
for, the environment. Each setting is made of what the layers leave under its key.
-/
namespace ExactNeighbors

inductive LoadError where
  /-- A file is missing or malformed. -/
  | source
  /-- A value cannot be made into what its key needs. -/
  | value
  | input (cause : InputError)
  /-- The layers cannot be put together. -/
  | merge

namespace Settings

structure Sources where
  files : Files
  /-- The path of the default file, which need not be there. -/
  defaultPath : String
  environment : List (String × String) := []

variable {Value : Type} (engine : Engine Value)

def builtIn : Layer Value :=
  [("dimension", engine.ofSize 128), ("metric", engine.ofText (Metric.text .l2)),
    ("exclude_tombstones", engine.ofBool true), ("initial_capacity", engine.ofSize 0),
    ("log_level", engine.ofText "info")]

def defaultLayer (sources : Sources) : Except LoadError (Layer Value) :=
  match engine.file? sources.files sources.defaultPath with
  | none => .ok []
  | some none => .error .source
  | some (some l) => .ok l

def explicitLayer? (sources : Sources) : Option String → Except LoadError (Option (Layer Value))
  | none => .ok none
  | some path =>
    match engine.file? sources.files path with
    | some (some l) => .ok (some l)
    | _ => .error .source

def layers (sources : Sources) (default : Layer Value) (explicit? : Option (Layer Value)) :
    List (Layer Value) :=
  [builtIn engine, default] ++ explicit?.toList ++ [engine.environment sources.environment]

def metric? (v : Value) : Option Metric :=
  (engine.text? v).bind fun text => (Metric.ofText text).toOption

/-- Settings from a table. A key without a value has the built-in one. -/
def ofTable? (table : Layer Value) : Option Settings := do
  let value {α : Type} (key : String) (read : Value → Option α) (missing : α) : Option α :=
    match table.lookup key with
    | some v => read v
    | none => some missing
  return {
    dimension := ← value "dimension" engine.size? 128
    metric := ← value "metric" (metric? engine) .l2
    excludesTombstones := ← value "exclude_tombstones" engine.bool? true
    initialCapacity := ← value "initial_capacity" engine.size? 0
    logLevel := ← value "log_level" engine.text? "info" }

def orFail {α : Type} (e : LoadError) : Option α → Except LoadError α
  | some a => .ok a
  | none => .error e

def load (sources : Sources) (path? : Option String) : Except LoadError Settings := do
  let default ← defaultLayer engine sources
  let explicit? ← explicitLayer? engine sources path?
  let table ← orFail .merge (engine.merge? (layers engine sources default explicit?))
  let s ← orFail .value (ofTable? engine table)
  s.validate.mapError .input
  return s

end Settings
end ExactNeighbors
