import ExactNeighbors.Settings.Basic
import ExactNeighbors.Json.Basic

/-!
# Settings as a document

A settings record is written as an object with one member per field. Reading is strict about the
kind of every value; missing members have their built-in value and unknown ones are ignored. A
list is read as the fields in order.
-/
namespace ExactNeighbors.Settings

def toJson (s : Settings) : Json :=
  .object [("dimension", .nat s.dimension), ("metric", .text s.metric.text),
    ("exclude_tombstones", .bool s.excludesTombstones),
    ("initial_capacity", .nat s.initialCapacity), ("log_level", .text s.logLevel)]

def metricOfJson? (j : Json) : Option Metric :=
  j.asText?.bind fun text => (Metric.ofText text).toOption

def ofFields? (dimension metric excludesTombstones initialCapacity logLevel : Option Json) :
    Option Settings := do
  let value {α : Type} (j : Option Json) (read : Json → Option α) (missing : α) : Option α :=
    match j with
    | some j => read j
    | none => some missing
  return {
    dimension := ← value dimension Json.asSize? 128
    metric := ← value metric metricOfJson? .l2
    excludesTombstones := ← value excludesTombstones Json.asBool? true
    initialCapacity := ← value initialCapacity Json.asSize? 0
    logLevel := ← value logLevel Json.asText? "info" }

def ofJson? (j : Json) : Option Settings :=
  match j with
  | .object _ => ofFields? (j.get? "dimension") (j.get? "metric") (j.get? "exclude_tombstones")
      (j.get? "initial_capacity") (j.get? "log_level")
  | .list items =>
    if 5 < items.length then none
    else ofFields? items[0]? items[1]? items[2]? items[3]? items[4]?
  | _ => none

end ExactNeighbors.Settings
