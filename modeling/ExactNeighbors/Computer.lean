import ExactNeighbors.Distance.Metric
import ExactNeighbors.Store.Read

/-!
# Distance computers

A computer is bound to one query at a time, scores slots of a store against it and counts its
evaluations. A failed binding leaves the query that was bound before.
-/
namespace ExactNeighbors

/-- How a computer scores: the primary metrics have kernels of their own for four slots at once,
any other metric scores one slot after the other. -/
inductive Adapter where
  | l2
  | innerProduct
  | plain (metric : Metric)
deriving DecidableEq

namespace Adapter

def ofMetric : Metric → Adapter
  | .l2 => .l2
  | .innerProduct => .innerProduct
  | m => .plain m

def metric : Adapter → Metric
  | .l2 => .l2
  | .innerProduct => .innerProduct
  | .plain m => m

def kernel : Adapter → List Score → List Score → Score
  | .l2 => Distance.l2Sqr
  | .innerProduct => Distance.innerProduct
  | .plain m => m.distance

def kernelFour? : Adapter → Option (List Score → Four (List Score) → Four Score)
  | .l2 => some Distance.l2SqrFour
  | .innerProduct => some Distance.innerProductFour
  | .plain _ => none

end Adapter

structure Computer where
  adapter : Adapter
  query? : Option (List Score) := none
  evaluations : Nat := 0

/-- A computation with a computer at hand. What it did before a failure is kept. -/
abbrev Scoring := ExceptT IndexError (StateM Computer)

namespace Store

def values (s : Store Single) (slot : Nat) : Except IndexError (List Score) :=
  (s.code slot).map fun code => code.map Single.value

end Store

namespace Computer

def ofStore (s : Store Single) : Computer := { adapter := .ofMetric s.metric }

def setQuery (s : Store Single) (query : List Score) : Scoring Unit := do
  if query.length ≠ s.dimension then throw (.dimensionMismatch s.dimension query.length)
  modify fun c => { c with query? := some query }

def query : Scoring (List Score) := do
  match (← get).query? with
  | some q => return q
  | none => throw .queryNotSet

def count (n : Nat) : Scoring Unit := modify fun c => { c with evaluations := c.evaluations + n }

def distanceTo (s : Store Single) (slot : Nat) : Scoring Score := do
  let q ← query
  let y ← s.values slot
  count 1
  return (← get).adapter.kernel q y

def distanceToFour (s : Store Single) (slots : Four Nat) : Scoring (Four Score) := do
  match (← get).adapter.kernelFour? with
  | some kernel =>
    let q ← query
    let ys : Four (List Score) :=
      ⟨← s.values slots.a, ← s.values slots.b, ← s.values slots.c, ← s.values slots.d⟩
    count 4
    return kernel q ys
  | none =>
    return ⟨← distanceTo s slots.a, ← distanceTo s slots.b, ← distanceTo s slots.c,
      ← distanceTo s slots.d⟩

/-- The score of two stored vectors. It needs no query and counts nothing. -/
def symmetric (s : Store Single) (adapter : Adapter) (i j : Nat) : Except IndexError Score := do
  let y ← s.values j
  let x ← s.values i
  return adapter.kernel y x

/-- Runs a computation and keeps the computer as it is afterwards. -/
def run {α : Type} (c : Computer) (action : Scoring α) : Except IndexError α × Computer :=
  action.run.run c

end Computer
end ExactNeighbors
