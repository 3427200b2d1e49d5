import ExactNeighbors.Number.Binary

/-!
# The fewest digits that read back

Between a number and its neighbours lie the reals that round to it. Among the decimals in that
interval `Decimal.shortest` takes one with the fewest digits, and of those the nearest.
-/
namespace ExactNeighbors

structure Decimal where
  digits : Nat
  exponent : Int
deriving DecidableEq, Repr

inductive Tie where
  | up
  | even
deriving DecidableEq, Repr

namespace Decimal

structure Interval where
  low : Nat
  value : Nat
  high : Nat
  closed : Bool
  exponent : Int

def Interval.of (mantissa : Nat) (exponent : Int) (narrowBelow : Bool) : Interval where
  low := if narrowBelow then 4 * mantissa - 1 else 4 * mantissa - 2
  value := 4 * mantissa
  high := 4 * mantissa + 2
  closed := mantissa % 2 = 0
  exponent := exponent - 2

/-- A point of the grid `10 ^ k` inside the interval, the one next to the value. -/
def Interval.point? (tie : Tie) (i : Interval) (k : Int) : Option Nat :=
  let up := Nat.pow 2 i.exponent.toNat * Nat.pow 10 (-k).toNat
  let down := Nat.pow 2 (-i.exponent).toNat * Nat.pow 10 k.toNat
  let inside (c : Nat) : Bool :=
    if i.closed then i.low * up ≤ c * down && c * down ≤ i.high * up
    else i.low * up < c * down && c * down < i.high * up
  let below := i.value * up / down
  let above := below + 1
  match inside below, inside above with
  | false, false => none
  | true, false => some below
  | false, true => some above
  | true, true =>
    match compare (2 * (i.value * up)) ((below + above) * down) with
    | .lt => some below
    | .gt => some above
    | .eq => match tie with
      | .up => some above
      | .even => some (if below % 2 = 0 then below else above)

/-- The coarsest grid with a point in the interval, looked for from `10 ^ k` downwards. -/
def Interval.search (tie : Tie) (i : Interval) : Nat → Int → Decimal
  | 0, k => ⟨0, k⟩
  | steps + 1, k =>
    match i.point? tie k with
    | some d => ⟨d, k⟩
    | none => i.search tie steps (k - 1)

/-- The shortest decimal that rounds to `mantissa * 2 ^ exponent`, for a positive mantissa. -/
def shortest (tie : Tie) (mantissa : Nat) (exponent : Int) (narrowBelow : Bool) : Decimal :=
  let top : Int := (mantissa.log2 + exponent + 1) * 30103 / 100000 + 1
  (Interval.of mantissa exponent narrowBelow).search tie 25 top

def digitText (d : Decimal) : List Char := Nat.toDigits 10 d.digits

def positional (d : Decimal) : List Char :=
  let ds := d.digitText
  if 0 ≤ d.exponent then ds ++ List.replicate d.exponent.toNat '0'
  else
    let places := (-d.exponent).toNat
    if places < ds.length then
      ds.take (ds.length - places) ++ '.' :: ds.drop (ds.length - places)
    else '0' :: '.' :: List.replicate (places - ds.length) '0' ++ ds

def scientific (d : Decimal) : List Char :=
  let ds := d.digitText
  let e := d.exponent + (ds.length - 1)
  let mantissa := match ds with
    | [] => []
    | [c] => [c]
    | c :: rest => c :: '.' :: rest
  mantissa ++ 'e' :: (if e < 0 then '-' else '+') :: Nat.toDigits 10 e.natAbs

end Decimal
end ExactNeighbors
