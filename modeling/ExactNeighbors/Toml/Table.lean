import ExactNeighbors.Settings.Value
import ExactNeighbors.Toml.Date

/-!
# Tables in TOML

A table is built once and in one way: by a header, by keys with points, or in place inside braces.
What each table was built by is kept until the text ends, because it decides what may be added.
-/
namespace ExactNeighbors.Toml

inductive Origin where
  /-- By a header of its own. -/
  | header
  /-- On the way to the table of a header. -/
  | passage
  /-- By a key with points. -/
  | dotted
  /-- Inside braces, where it is complete. -/
  | braces
deriving DecidableEq, Repr

inductive Node where
  | scalar (v : Setting)
  /-- A date or a time, as text. -/
  | date (text : String)
  | array (items : List Node)
  | table (origin : Origin) (members : List (String × Node))
  /-- Tables under one name, the latest one first. -/
  | tables (items : List (List (String × Node)))

abbrev Members := List (String × Node)

namespace Node

/-- The reserved name of a date: a table that begins with it is the date that it gives as text. -/
def dateName : String := "$__toml_private_datetime"

def quotedDate? : Node → Option Setting
  | .scalar (.text s) => (moment? .quoted s.toList).map fun t => .text (String.ofList t)
  | _ => none

/-- The setting that a table makes, if its members make the given ones. -/
def tableSetting? (ms : Members) (settings : Option (List (String × Setting))) : Option Setting :=
  match ms with
  | (name, n) :: _ => if name = dateName then quotedDate? n else settings.map .table
  | [] => settings.map .table

mutual

def toSetting? : Node → Option Setting
  | .scalar v => some v
  | .date text => some (.text text)
  | .array ns => (itemSettings? ns).map .list
  | .table _ ms => tableSetting? ms (memberSettings? ms)
  | .tables ts => (tableSettings? ts).map .list

def itemSettings? : List Node → Option (List Setting)
  | [] => some []
  | n :: ns => do return (← toSetting? n) :: (← itemSettings? ns)

def memberSettings? : List (String × Node) → Option (List (String × Setting))
  | [] => some []
  | (name, n) :: ms => do return (name, ← toSetting? n) :: (← memberSettings? ms)

def tableSettings? : List (List (String × Node)) → Option (List Setting)
  | [] => some []
  | t :: ts => do return (← tableSettings? ts) ++ [← tableSetting? t (memberSettings? t)]

end

end Node

namespace Members

/-- Changes the table that a header's path leads to. Missing tables are made on the way; a list
of tables leads into the latest one. -/
def visit? (change : Members → Option Members) : List String → Members → Option Members
  | [], ms => change ms
  | key :: path, ms =>
    match ms.lookup key with
    | none => (visit? change path []).map fun t => Named.set key (.table .passage t) ms
    | some (.table origin t) =>
      if origin = .braces then none
      else (visit? change path t).map fun t => Named.set key (.table origin t) ms
    | some (.tables (t :: ts)) =>
      (visit? change path t).map fun t => Named.set key (.tables (t :: ts)) ms
    | _ => none

/-- Gives a value to a key with points inside one table. The tables on the way must not have a
header, the innermost one must have been made by such keys, and the last name must be new. -/
def define? (n : Node) : List String → Members → Option Members
  | [], _ => none
  | [key], ms => if (ms.lookup key).isSome then none else some (Named.set key n ms)
  | key :: next :: path, ms =>
    match ms.lookup key with
    | none => (define? n (next :: path) []).map fun t => Named.set key (.table .dotted t) ms
    | some (.table origin t) =>
      if origin = .header ∨ origin = .braces ∨ (path = [] ∧ origin ≠ .dotted) then none
      else (define? n (next :: path) t).map fun t => Named.set key (.table origin t) ms
    | some (.tables (t :: ts)) =>
      if path = [] then none
      else (define? n (next :: path) t).map fun t => Named.set key (.tables (t :: ts)) ms
    | _ => none

/-- Opens the table of a header: a new one, or one that was only passed through. It goes behind
the members that are there. -/
def openTable? (key : String) (ms : Members) : Option Members :=
  match ms.lookup key with
  | none => some (Named.set key (.table .header []) ms)
  | some (.table .passage t) => some (Named.erase key ms ++ [(key, .table .header t)])
  | _ => none

def appendTable? (key : String) (ms : Members) : Option Members :=
  match ms.lookup key with
  | none => some (Named.set key (.tables [[]]) ms)
  | some (.tables ts) => some (Named.set key (.tables ([] :: ts)) ms)
  | _ => none

end Members
end ExactNeighbors.Toml
