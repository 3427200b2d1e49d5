import ExactNeighbors.Number.Score

/-!
# Decimal numerals

Numbers as people type them: an optional sign, digits with an optional point, an optional
exponent, or the words `inf`, `infinity` and `nan` in any case. Nothing else may surround them.
-/
namespace ExactNeighbors

/-- A numeral read but not yet rounded; `finite` is `± digits * 10 ^ exponent`. -/
inductive Numeral where
  | nan
  | infinite (negative : Bool)
  | finite (negative : Bool) (digits : Nat) (exponent : Int)
deriving DecidableEq, Repr

namespace Numeral

def digitsValue (cs : List Char) : Nat := cs.foldl (fun n c => 10 * n + (c.toNat - '0'.toNat)) 0

def sign : List Char → Bool × List Char
  | '-' :: r => (true, r)
  | '+' :: r => (false, r)
  | r => (false, r)

def exponent? : List Char → Option Int
  | [] => some 0
  | c :: r =>
    if c = 'e' ∨ c = 'E' then
      let (negative, ds) := sign r
      if ds.isEmpty ∨ !ds.all Char.isDigit then none
      else some (if negative then -(digitsValue ds : Int) else digitsValue ds)
    else none

def decimal? (negative : Bool) (cs : List Char) : Option Numeral :=
  let whole := cs.takeWhile Char.isDigit
  let (fraction, rest) := match cs.dropWhile Char.isDigit with
    | '.' :: r => (r.takeWhile Char.isDigit, r.dropWhile Char.isDigit)
    | r => ([], r)
  if whole.isEmpty ∧ fraction.isEmpty then none
  else (exponent? rest).map fun e =>
    .finite negative (digitsValue (whole ++ fraction)) (e - fraction.length)

def ofChars? (cs : List Char) : Option Numeral :=
  let (negative, body) := sign cs
  let word := String.ofList (body.map Char.toLower)
  if word = "nan" then some .nan
  else if word = "inf" ∨ word = "infinity" then some (.infinite negative)
  else decimal? negative body

def toScore : Numeral → Score
  | .nan => Score.nan
  | .infinite negative => if negative then Score.negInfinity else Score.infinity
  | .finite negative m e =>
    let x : Score := OfScientific.ofScientific m (e < 0) e.natAbs
    if negative then -x else x

def toFloat : Numeral → Float
  | .nan => Float.ofBits 0x7ff8000000000000
  | .infinite negative => Float.ofBits (if negative then 0xfff0000000000000 else 0x7ff0000000000000)
  | .finite negative m e =>
    let x : Float := OfScientific.ofScientific m (e < 0) e.natAbs
    if negative then -x else x

def score? (s : String) : Option Score := (ofChars? s.toList).map toScore

def float? (s : String) : Option Float := (ofChars? s.toList).map toFloat

/-- A whole number below `2 ^ 64`: digits, perhaps behind a plus. -/
def size? (s : String) : Option Nat :=
  let cs := match s.toList with
    | '+' :: r => r
    | r => r
  if cs.isEmpty ∨ !cs.all Char.isDigit then none
  else
    let n := digitsValue cs
    if n < 0x10000000000000000 then some n else none

/-- A whole number from `-2 ^ 63` up to `2 ^ 63`, exclusive: digits, perhaps behind a sign. -/
def integer? (s : String) : Option Int :=
  let (negative, cs) := sign s.toList
  if cs.isEmpty ∨ !cs.all Char.isDigit then none
  else
    let i : Int := if negative then -(digitsValue cs : Int) else digitsValue cs
    if -0x8000000000000000 ≤ i ∧ i < 0x8000000000000000 then some i else none

end Numeral
end ExactNeighbors
