import ExactNeighbors.Number.Score

/-!
# Metrics

The two primary metrics, squared Euclidean distance and inner product, take part in every
operation; the others score in nearest-neighbour search only.
-/
namespace ExactNeighbors

inductive Metric where
  | l2
  | innerProduct
  | l1
  | linf
  /-- The sum of `|x - y| ^ p`, without a root. -/
  | lp (p : Score)
  | canberra
  | brayCurtis
  | jensenShannon
  | jaccard
  /-- Euclidean distance over the components that neither side lacks. -/
  | nanEuclidean
deriving DecidableEq

namespace Metric

def isSimilarity : Metric → Bool
  | .innerProduct | .jaccard => true
  | _ => false

def isPrimary : Metric → Bool
  | .l2 | .innerProduct => true
  | _ => false

def admits (p : Score) : Bool := !(p.isNaN || p ≤ Score.zero)

def isValid : Metric → Bool
  | .lp p => admits p
  | _ => true

end Metric
end ExactNeighbors
