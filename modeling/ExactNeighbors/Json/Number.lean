import ExactNeighbors.Json.Basic
import ExactNeighbors.Number.Numeral

/-!
# Numbers in JSON text

A number without point and exponent that fits 64 bits is exact. Any other is a significand of at
most 64 bits times a power of ten, multiplied or divided in binary64; further digits of the
significand only shift the exponent. A number too large for binary64 is refused.
-/
namespace ExactNeighbors.Json

structure Significand where
  value : Nat
  exponent : Int
  full : Bool := false

namespace Significand

/-- A digit before the point; once the significand is full it counts as a zero. -/
def pushWhole (s : Significand) (c : Char) : Significand :=
  let next := 10 * s.value + (c.toNat - '0'.toNat)
  if s.full ∨ 0x10000000000000000 ≤ next then { s with exponent := s.exponent + 1, full := true }
  else { s with value := next }

/-- A digit behind the point; once the significand is full it is dropped. -/
def pushFraction (s : Significand) (c : Char) : Significand :=
  let next := 10 * s.value + (c.toNat - '0'.toNat)
  if s.full ∨ 0x10000000000000000 ≤ next then { s with full := true }
  else { s with value := next, exponent := s.exponent - 1 }

def ofDigits (whole fraction : List Char) : Significand :=
  fraction.foldl pushFraction { whole.foldl pushWhole ⟨0, 0, false⟩ with full := false }

end Significand

def powerOfTen (n : Nat) : Float := OfScientific.ofScientific 1 false n

/-- Brings an exponent into the range of binary64 and scales once. Dividing by `10 ^ 308` four
times leaves nothing of any 64-bit significand. -/
def scale? : Nat → Float → Int → Option Float
  | steps, x, e =>
    if e.natAbs ≤ 308 then
      if 0 ≤ e then
        let y := x * powerOfTen e.natAbs
        if y.isInf then none else some y
      else some (x / powerOfTen e.natAbs)
    else if x == 0.0 then some x
    else if 0 ≤ e then none
    else match steps with
      | 0 => some 0.0
      | steps + 1 => scale? steps (x / powerOfTen 308) (e + 308)

/-- The exponent written behind `e`. One beyond 31 bits is refused if it would make a number
large, and makes it zero otherwise: `none` inside stands for zero. -/
def writtenExponent? (zero negative : Bool) (ds : List Char) : Option (Option Int) :=
  let n := Numeral.digitsValue ds
  if n < 0x80000000 then some (some (if negative then -(n : Int) else n))
  else if zero ∨ negative then some none
  else none

def double? (negative : Bool) (s : Significand) (e : Option Int) : Option Json :=
  let signed (x : Float) : Json := .double (if negative then -x else x)
  match e with
  | none => some (signed 0.0)
  | some e =>
    let e := max (-0x80000000) (min 0x7fffffff (s.exponent + e))
    (scale? 4 s.value.toUInt64.toFloat e).map signed

def whole? (negative : Bool) (whole : List Char) : Option Json :=
  let n := Numeral.digitsValue whole
  if negative then
    if 0 < n ∧ n ≤ 0x8000000000000000 then some (.int (-n))
    else double? true (Significand.ofDigits whole []) (some 0)
  else if n < 0x10000000000000000 then some (.int n)
  else double? false (Significand.ofDigits whole []) (some 0)

def exponentPart? : List Char → Option (Option (Bool × List Char) × List Char)
  | c :: r =>
    if c = 'e' ∨ c = 'E' then
      let (negative, r) := Numeral.sign r
      let ds := r.takeWhile Char.isDigit
      if ds.isEmpty then none else some (some (negative, ds), r.dropWhile Char.isDigit)
    else some (none, c :: r)
  | [] => some (none, [])

def fractionPart? : List Char → Option (Option (List Char) × List Char)
  | '.' :: r =>
    let ds := r.takeWhile Char.isDigit
    if ds.isEmpty then none else some (some ds, r.dropWhile Char.isDigit)
  | r => some (none, r)

def number? (cs : List Char) : Option (Json × List Char) := do
  let (negative, body) := match cs with
    | '-' :: r => (true, r)
    | r => (false, r)
  let whole := body.takeWhile Char.isDigit
  if whole.isEmpty ∨ (whole.head? = some '0' ∧ 1 < whole.length) then none
  let (fraction, rest) ← fractionPart? (body.dropWhile Char.isDigit)
  let (exponent, rest) ← exponentPart? rest
  match fraction, exponent with
  | none, none => return (← whole? negative whole, rest)
  | _, none =>
    return (← double? negative (Significand.ofDigits whole (fraction.getD [])) (some 0), rest)
  | _, some (down, ds) =>
    let s := Significand.ofDigits whole (fraction.getD [])
    return (← double? negative s (← writtenExponent? (s.value = 0) down ds), rest)

end ExactNeighbors.Json
