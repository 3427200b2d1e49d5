import ExactNeighbors.Number.Score
import ExactNeighbors.Number.Word
import ExactNeighbors.Rows

/-!
# The two primary distances

Squared Euclidean distance and inner product, for one candidate, for four at once, and for rows
of a flat buffer picked by number. One candidate is summed from `-0.0`, four from `0.0`; the
order of additions is that of the components.
-/
namespace ExactNeighbors

structure Four (α : Type) where
  a : α
  b : α
  c : α
  d : α
deriving DecidableEq, Repr

namespace Four

variable {α β : Type}

def map (f : α → β) (x : Four α) : Four β := ⟨f x.a, f x.b, f x.c, f x.d⟩

def toList (x : Four α) : List α := [x.a, x.b, x.c, x.d]

end Four

namespace Distance

def squaredGap (x y : Score) : Score := (x - y) * (x - y)

def l2Sqr (x y : List Score) : Score := Score.total Score.negZero (x.zipWith squaredGap y)

def innerProduct (x y : List Score) : Score := Score.total Score.negZero (x.zipWith (· * ·) y)

def commonLength (q : List Score) (ys : Four (List Score)) : Nat :=
  min (min (min (min q.length ys.a.length) ys.b.length) ys.c.length) ys.d.length

/-- One term per component in each of four lanes, added up from `0.0`. -/
def lanes (term : Score → Score → Score) (q : List Score) (ys : Four (List Score)) : Four Score :=
  let n := commonLength q ys
  ys.map fun y => Score.total Score.zero ((q.take n).zipWith term (y.take n))

def l2SqrFour (q : List Score) (ys : Four (List Score)) : Four Score := lanes squaredGap q ys

def innerProductFour (q : List Score) (ys : Four (List Score)) : Four Score := lanes (· * ·) q ys

/-- Row `i` of a flat buffer, when the program finds it there. Where its bounds do not fit a
register and are not checked, it finds another one. -/
def indexedRow? (overflow : Word.Overflow) (dim i : Nat) (base : List Score) :
    Option (List Score) := do
  let start ← overflow.fit? (i * dim)
  let next ← overflow.fit? (i + 1)
  let stop ← overflow.fit? (next * dim)
  Rows.slice? start stop base

def indexedScore? (overflow : Word.Overflow) (missing : Score)
    (kernel : List Score → List Score → Score) (dim : Nat) (base query : List Score) :
    Option Nat → Option Score
  | none => some missing
  | some i => (indexedRow? overflow dim i base).map (kernel query)

/-- Writes one score per candidate number over `out`: `k` candidates for each query, as many
queries as all three buffers have rows. `none` when a candidate has no row in `base`. -/
def byIndex? (overflow : Word.Overflow) (missing : Score)
    (kernel : List Score → List Score → Score) (out queries base : List Score)
    (ids : List (Option Nat)) (dim k : Nat) : Option (List Score) :=
  if dim = 0 ∨ k = 0 then some out
  else
    let rows := ((Rows.split dim queries).zip (Rows.split k ids)).take (out.length / k)
    let jobs := rows.flatMap fun (query, candidates) => candidates.map fun id => (query, id)
    let scores? := jobs.mapM fun (query, id) =>
      indexedScore? overflow missing kernel dim base query id
    scores?.map fun scores => scores ++ out.drop scores.length

def l2SqrByIndex? (overflow : Word.Overflow) (out queries base : List Score)
    (ids : List (Option Nat)) (dim k : Nat) : Option (List Score) :=
  byIndex? overflow Score.infinity l2Sqr out queries base ids dim k

def innerProductByIndex? (overflow : Word.Overflow) (out queries base : List Score)
    (ids : List (Option Nat)) (dim k : Nat) : Option (List Score) :=
  byIndex? overflow Score.negInfinity innerProduct out queries base ids dim k

end Distance
end ExactNeighbors
