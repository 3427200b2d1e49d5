import ExactNeighbors.Distance.Primary
import ExactNeighbors.Metric.Basic

/-!
# The distance of each metric

Every metric scores two vectors over their common length. Sums of terms start from `-0.0`;
running maxima and quotients of two sums start from `0.0`.
-/
namespace ExactNeighbors
namespace Distance

def gap (x y : Score) : Score := (x - y).abs

/-- Terms `|x - y| / (|x| + |y|)`; a pair of zeros has none. -/
def canberraTerm? (x y : Score) : Option Score :=
  let scale := x.abs + y.abs
  if scale == Score.zero then none else some (gap x y / scale)

def canberra (x y : List Score) : Score :=
  Score.total Score.negZero ((x.zip y).filterMap fun (a, b) => canberraTerm? a b)

def quotient (numerator denominator : Score → Score → Score) (x y : List Score) : Score :=
  Score.total Score.zero (x.zipWith numerator y) / Score.total Score.zero (x.zipWith denominator y)

def brayCurtis (x y : List Score) : Score := quotient gap (fun a b => (a + b).abs) x y

def jaccard (x y : List Score) : Score := quotient Score.smaller Score.larger x y

/-- `x * ln (x / m)` for a positive `x`, to be added onto a term. -/
def divergence (x m term : Score) : Score :=
  if x > Score.zero then term + x * (x / m).log else term

def jensenShannonTerm (x y : Score) : Score :=
  let m := Score.half * (x + y)
  divergence y m (divergence x m Score.zero)

def jensenShannon (x y : List Score) : Score :=
  Score.half * Score.total Score.negZero (x.zipWith jensenShannonTerm y)

/-- Scales the squared distance of the components present on both sides up to the length of `x`. -/
def nanEuclidean (x y : List Score) : Score :=
  let present := (x.zip y).filter fun (a, b) => !a.isNaN && !b.isNaN
  if present.isEmpty then Score.nan
  else
    let sum := Score.total Score.zero (present.map fun (a, b) => squaredGap a b)
    (Nat.toFloat32 x.length / Nat.toFloat32 present.length * sum).sqrt

end Distance

def Metric.distance (m : Metric) (x y : List Score) : Score :=
  match m with
  | .l2 => Distance.l2Sqr x y
  | .innerProduct => Distance.innerProduct x y
  | .l1 => Score.total Score.negZero (x.zipWith Distance.gap y)
  | .linf => (x.zipWith Distance.gap y).foldl Score.larger Score.zero
  | .lp p => Score.total Score.negZero (x.zipWith (fun a b => (Distance.gap a b).pow p) y)
  | .canberra => Distance.canberra x y
  | .brayCurtis => Distance.brayCurtis x y
  | .jensenShannon => Distance.jensenShannon x y
  | .jaccard => Distance.jaccard x y
  | .nanEuclidean => Distance.nanEuclidean x y

end ExactNeighbors
