import ExactNeighbors.Settings.Engine
import ExactNeighbors.Settings.Key
import ExactNeighbors.Settings.Value

/-!
# Layers of settings

A layer gives values to keys. Laying it over a table sets one key after the other: a table is
merged into the value it meets, member by member, and any other value replaces it.
-/
namespace ExactNeighbors

namespace Setting

mutual

/-- Sets a member. A table without members changes nothing that is there. -/
def put (name : String) : Setting → List (String × Setting) → List (String × Setting)
  | .table ms, target => Named.set name (putAll ms ((target.lookup name).getD (.table []))) target
  | v, target => Named.set name v target

def putAll : List (String × Setting) → Setting → Setting
  | [], target => target
  | (name, v) :: ms, target => putAll ms (.table (put name v target.members))

end

def listLimit : Nat := 0x4000000

/-- A position in a list of the given length, or behind it. `none` before its start and beyond
any list. -/
def position? (length : Nat) (i : Int) : Option Nat :=
  let n := if 0 ≤ i then i else length + i
  if 0 ≤ n ∧ n < listLimit then some n.toNat else none

def setItem (n : Nat) (v : Setting) (xs : List Setting) : List Setting :=
  (xs ++ List.replicate (n + 1 - xs.length) nothing).set n v

/-- Sets what steps lead to. On the way, what is no table or list becomes one. -/
def assign? (v : Setting) : List KeyStep → Setting → Option Setting
  | [], _ => some v
  | [.member name], target => some (.table (put name v target.members))
  | .member name :: steps, target => do
    let child ← assign? v steps ((target.members.lookup name).getD .nothing)
    return .table (Named.set name child target.members)
  | .item i :: steps, target => do
    let n ← position? target.items.length i
    let child ← assign? v steps ((target.items[n]?).getD .nothing)
    return .list (setItem n child target.items)

end Setting

namespace Layer

def set? (settings : List (String × Setting)) (key : String) (v : Setting) :
    Option (List (String × Setting)) :=
  match Key.ofText key with
  | ⟨name, []⟩ => some (Setting.put name v settings)
  | ⟨name, steps⟩ =>
    (Setting.assign? v steps ((settings.lookup name).getD .nothing)).map fun value =>
      Named.set name value settings

def over? (settings : List (String × Setting)) (l : Layer Setting) :
    Option (List (String × Setting)) :=
  l.foldlM (fun settings (key, v) => set? settings key v) settings

def ofJson? (j : Json) : Option (Layer Setting) :=
  match Setting.ofJson j with
  | .table ms => some ms
  | _ => none

def variableStart : String := "flatmut_"

/-- The entry that an environment variable makes. Two underscores in its name separate levels. -/
def ofVariable? (name value : String) : Option (String × Setting) :=
  let lower := Setting.lowerWord name
  if lower.startsWith variableStart then
    let key := String.ofList (lower.toList.drop variableStart.length)
    some (".".intercalate (key.splitOn "__"), .ofVariable value)
  else none

def ofEnvironment (environment : List (String × String)) : Layer Setting :=
  Named.distinct (environment.filterMap fun (name, value) => ofVariable? name value)

end Layer
end ExactNeighbors
