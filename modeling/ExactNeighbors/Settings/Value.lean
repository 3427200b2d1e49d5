import ExactNeighbors.Json.Reader
import ExactNeighbors.Named
import ExactNeighbors.Number.Binary
import ExactNeighbors.Number.Text

/-!
# Values of settings

Values are kept as they were written. What a setting needs is made of its value only when all
sources have been put together; lists, tables and missing values make nothing.
-/
namespace ExactNeighbors

inductive Setting where
  | nothing
  | bool (b : Bool)
  | int (i : Int)
  | real (x : Float)
  | text (s : String)
  | list (items : List Setting)
  | table (members : List (String × Setting))

namespace Setting

def items : Setting → List Setting
  | .list xs => xs
  | _ => []

def members : Setting → List (String × Setting)
  | .table ms => ms
  | _ => []

def lowerWord (s : String) : String := String.ofList (s.toList.map Char.toLower)

def truth? (s : String) : Option Bool :=
  match lowerWord s with
  | "true" | "on" | "yes" => some true
  | "false" | "off" | "no" => some false
  | _ => none

/-- A real number rounded to a size, held within the 64-bit range. -/
def sizeOfReal (x : Float) : Nat :=
  match Binary.ofFloat x with
  | .infinite negative => if negative then 0 else 0xffffffffffffffff
  | b => min 0xffffffffffffffff (b.round?.getD 0).toNat

def size? : Setting → Option Nat
  | .bool b => some b.toNat
  | .int i => if 0 ≤ i then some i.toNat else none
  | .real x => some (sizeOfReal x)
  | .text s =>
    match truth? s with
    | some b => some b.toNat
    | none => Numeral.size? s
  | _ => none

theorem size?_ofNat (n : Nat) : size? (.int n) = some n := by
  rw [size?, if_pos (Int.natCast_nonneg n), Int.toNat_natCast]

def bool? : Setting → Option Bool
  | .bool b => some b
  | .int i => some (i ≠ 0)
  | .real x => some (x != 0.0)
  | .text "1" => some true
  | .text "0" => some false
  | .text s => truth? s
  | _ => none

def text? : Setting → Option String
  | .bool b => some (if b then "true" else "false")
  | .int i => some (toString i)
  | .real x => some (NumberText.ofFloat x)
  | .text s => some s
  | _ => none

mutual

/-- Whole numbers of 64 bits with a sign stay whole. -/
def ofJson : Json → Setting
  | .null => .nothing
  | .bool b => .bool b
  | .int i => if -0x8000000000000000 ≤ i ∧ i < 0x8000000000000000 then .int i else .real (Float.ofInt i)
  | .double x => .real x
  | .single x => .real x.toFloat
  | .text s => .text s
  | .list js => .list (ofItems js)
  | .object ms => .table (Named.distinct (ofMembers ms))

def ofItems : List Json → List Setting
  | [] => []
  | j :: js => ofJson j :: ofItems js

def ofMembers : List (String × Json) → List (String × Setting)
  | [] => []
  | (key, j) :: ms => (key, ofJson j) :: ofMembers ms

end

/-- The value of an environment variable: a truth value or a number, if it reads as one. -/
def ofVariable (s : String) : Setting :=
  match lowerWord s with
  | "true" => .bool true
  | "false" => .bool false
  | _ =>
    match Numeral.integer? s, Numeral.float? s with
    | some i, _ => .int i
    | none, some x => .real x
    | none, none => .text s

end Setting
end ExactNeighbors
