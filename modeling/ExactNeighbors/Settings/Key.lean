import ExactNeighbors.Number.Numeral

/-!
# Keys of settings

A key names a setting, or a part of one: `name.member` and `name[3]` lead into tables and lists.
Names are ASCII letters, digits, blanks, underscores and dashes, whose case does not matter. A
text of any other form is a name as a whole.
-/
namespace ExactNeighbors

/-- One step from a value to a part of it. A negative position counts from the end. -/
inductive KeyStep where
  | member (name : String)
  | item (position : Int)
deriving DecidableEq, Repr

structure Key where
  name : String
  steps : List KeyStep := []
deriving DecidableEq, Repr

namespace Key

def isNameChar (c : Char) : Bool := c.isAlphanum || c = ' ' || c = '_' || c = '-'

def name? (cs : List Char) : Option (String × List Char) :=
  let name := cs.takeWhile isNameChar
  if name.isEmpty then none
  else some (String.ofList (name.map Char.toLower), cs.dropWhile isNameChar)

def isBlankChar (c : Char) : Bool := c = ' ' || c = '\t'

/-- A 64-bit whole number between blanks, perhaps behind a minus, up to the closing bracket. -/
def position? (cs : List Char) : Option (Int × List Char) :=
  let (negative, cs) := match cs.dropWhile isBlankChar with
    | '-' :: r => (true, r)
    | r => (false, r)
  let ds := cs.takeWhile Char.isDigit
  let n : Int := Numeral.digitsValue ds
  let i := if negative then -n else n
  match (cs.dropWhile Char.isDigit).dropWhile isBlankChar with
  | ']' :: r =>
    if ds.isEmpty ∨ i < -0x8000000000000000 ∨ 0x8000000000000000 ≤ i then none else some (i, r)
  | _ => none

def step? : List Char → Option (KeyStep × List Char)
  | '.' :: r => (name? r).map fun (name, r) => (.member name, r)
  | '[' :: r => (position? r).map fun (i, r) => (.item i, r)
  | _ => none

def steps? : Nat → List Char → Option (List KeyStep)
  | _, [] => some []
  | 0, _ => none
  | fuel + 1, cs => do
    let (step, r) ← step? cs
    return step :: (← steps? fuel r)

def read? (cs : List Char) : Option Key := do
  let (name, r) ← name? cs
  return ⟨name, ← steps? r.length r⟩

def ofText (s : String) : Key := (read? s.toList).getD ⟨s, []⟩

end Key
end ExactNeighbors
