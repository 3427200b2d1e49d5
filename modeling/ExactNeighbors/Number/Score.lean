/-!
# Scores

A score is a binary32 number computed by a distance. Comparison by `<` follows IEEE 754 and
leaves NaN aside; `key` is the total order in which scores are ranked.
-/
namespace ExactNeighbors

abbrev Score := Float32

namespace Score

def zero : Score := Float32.ofBits 0x00000000
def negZero : Score := Float32.ofBits 0x80000000
def half : Score := Float32.ofBits 0x3f000000
def infinity : Score := Float32.ofBits 0x7f800000
def negInfinity : Score := Float32.ofBits 0xff800000
def nan : Score := Float32.ofBits 0x7fc00000

/-- Place in the total order of all scores. It refines `<`; `-0.0` comes directly before `0.0`. -/
def key (x : Score) : Int :=
  let b := x.toBits.toNat
  if b < 0x80000000 then b else 0x7fffffff - (b : Int)

/-- The larger of two scores; a NaN gives way to the other operand. -/
def larger (x y : Score) : Score :=
  if x.isNaN then y else if y.isNaN then x else if x < y then y else x

def smaller (x y : Score) : Score :=
  if x.isNaN then y else if y.isNaN then x else if y < x then y else x

def total (start : Score) (terms : List Score) : Score := terms.foldl (· + ·) start

end Score
end ExactNeighbors
