/-!
# JSON values

Whole numbers of 64 bits are kept exactly; every other number that is read is a binary64 number.
A score in a report keeps its own width, so that it is written with the digits of a binary32.
-/
namespace ExactNeighbors

inductive Json where
  | null
  | bool (b : Bool)
  | int (i : Int)
  | double (x : Float)
  | single (x : Float32)
  | text (s : String)
  | list (items : List Json)
  | object (members : List (String × Json))

namespace Json

def nat (n : Nat) : Json := .int n

def members : Json → List (String × Json)
  | .object ms => ms
  | _ => []

/-- The value of a key. Of repeated keys the last one counts. -/
def get? (j : Json) (key : String) : Option Json :=
  (j.members.reverse.find? (·.1 = key)).map (·.2)

def asText? : Json → Option String
  | .text s => some s
  | _ => none

def asBool? : Json → Option Bool
  | .bool b => some b
  | _ => none

def asSize? : Json → Option Nat
  | .int i => if 0 ≤ i ∧ i < 0x10000000000000000 then some i.toNat else none
  | _ => none

def asList? : Json → Option (List Json)
  | .list items => some items
  | _ => none

end Json
end ExactNeighbors
