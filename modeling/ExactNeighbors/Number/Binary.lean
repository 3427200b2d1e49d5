/-!
# Binary floating-point numbers taken apart

A finite number is `mantissa * 2 ^ exponent` with a sign. `narrowBelow` marks the powers of two
whose lower neighbour is only half as far away as the upper one.
-/
namespace ExactNeighbors

inductive Binary where
  | nan
  | infinite (negative : Bool)
  | finite (negative : Bool) (mantissa : Nat) (exponent : Int) (narrowBelow : Bool)
deriving DecidableEq, Repr

namespace Binary

/-- Reads an interchange format with `fraction` mantissa bits and `width` exponent bits. -/
def ofBits (fraction width bits : Nat) : Binary :=
  let f := bits % Nat.pow 2 fraction
  let e := bits / Nat.pow 2 fraction % Nat.pow 2 width
  let negative := bits / Nat.pow 2 (fraction + width) % 2 = 1
  let bias : Int := Nat.pow 2 (width - 1) - 1 + fraction
  if e = Nat.pow 2 width - 1 then
    if f = 0 then .infinite negative else .nan
  else if e = 0 then .finite negative f (1 - bias) false
  else .finite negative (Nat.pow 2 fraction + f) (e - bias) (f = 0 && 1 < e)

def ofFloat32 (x : Float32) : Binary := ofBits 23 8 x.toBits.toNat

def ofFloat (x : Float) : Binary := ofBits 52 11 x.toBits.toNat

/-- The nearest integer, a half going away from zero. A NaN gives zero; infinity gives `none`. -/
def round? : Binary → Option Int
  | .nan => some 0
  | .infinite _ => none
  | .finite negative m e _ =>
    let n :=
      if 0 ≤ e then m * Nat.pow 2 e.toNat
      else (2 * m + Nat.pow 2 (-e).toNat) / Nat.pow 2 ((-e).toNat + 1)
    some (if negative then -(n : Int) else n)

end Binary
end ExactNeighbors
