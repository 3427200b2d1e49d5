import ExactNeighbors.Number.Shortest
import ExactNeighbors.Number.Score

/-!
# Numbers as text

Two written forms of binary numbers. `plain` stands in messages and metric names; `json` stands
in reports. Both use the fewest digits that read back.
-/
namespace ExactNeighbors.NumberText

def signed (negative : Bool) (cs : List Char) : String :=
  String.ofList (if negative then '-' :: cs else cs)

/-- Positional, however long; whole numbers have no point; equally near digits go up. -/
def plain : Binary → String
  | .nan => "NaN"
  | .infinite negative => signed negative "inf".toList
  | .finite negative m e narrow =>
    signed negative (if m = 0 then ['0'] else (Decimal.shortest .up m e narrow).positional)

/-- Always with a point or an exponent: an exponent is written below `10 ^ -6` and from `10 ^ 13`
on. Equally near digits go to the even one. Infinities and NaN have no written form. -/
def json : Binary → String
  | .nan => "null"
  | .infinite _ => "null"
  | .finite negative m e narrow =>
    if m = 0 then signed negative "0.0".toList
    else
      let d := Decimal.shortest .even m e narrow
      let lead := d.exponent + (d.digitText.length - 1)
      if lead < -6 ∨ 13 ≤ lead then signed negative d.scientific
      else if 0 ≤ d.exponent then signed negative (d.positional ++ ".0".toList)
      else signed negative d.positional

def ofScore (x : Score) : String := plain (Binary.ofFloat32 x)

def ofFloat (x : Float) : String := plain (Binary.ofFloat x)

def jsonOfScore (x : Score) : String := json (Binary.ofFloat32 x)

def jsonOfFloat (x : Float) : String := json (Binary.ofFloat x)

end ExactNeighbors.NumberText
