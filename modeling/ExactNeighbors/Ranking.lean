import ExactNeighbors.Number.Score

/-!
# Bounded rankings

A ranking keeps the best `capacity` entries offered to it, best first. Entries are compared by
the total order of their rank and then by their id; a NaN score is never kept.
-/
namespace ExactNeighbors

inductive Preference where
  | smallest
  | largest
deriving DecidableEq, Repr

namespace Preference

def rank : Preference → Score → Score
  | .smallest, x => x
  | .largest, x => -x

end Preference

abbrev Scored := Score × Nat

/-- Whether `x` ranks strictly before `y`. -/
def Scored.before (p : Preference) (x y : Scored) : Bool :=
  let i := Score.key (p.rank x.1)
  let j := Score.key (p.rank y.1)
  i < j || (i = j && x.2 < y.2)

structure Ranking where
  capacity : Nat
  preference : Preference
  entries : List Scored := []

namespace Ranking

def new (capacity : Nat) (preference : Preference) : Ranking := { capacity, preference }

def size (r : Ranking) : Nat := r.entries.length

def isEmpty (r : Ranking) : Bool := r.entries.isEmpty

def insert (p : Preference) (x : Scored) : List Scored → List Scored
  | [] => [x]
  | y :: ys => if Scored.before p x y then x :: y :: ys else y :: insert p x ys

/-- The score that a newcomer has to beat, once the ranking is full. -/
def threshold? (r : Ranking) : Option Score :=
  if r.size < r.capacity then none else r.entries.getLast?.map (·.1)

/-- Offers an entry; the answer says whether it was kept. A full ranking gives up its last entry
for one that ranks strictly before it. -/
def push (r : Ranking) (score : Score) (id : Nat) : Bool × Ranking :=
  if r.capacity = 0 ∨ score.isNaN then (false, r)
  else if r.size < r.capacity then
    (true, { r with entries := insert r.preference (score, id) r.entries })
  else
    match r.entries.getLast? with
    | some last =>
      if Scored.before r.preference (score, id) last then
        (true, { r with entries := insert r.preference (score, id) r.entries.dropLast })
      else (false, r)
    | none => (false, r)

def pushAll (r : Ranking) (xs : List Scored) : Ranking :=
  xs.foldl (fun r x => (r.push x.1 x.2).2) r

end Ranking
end ExactNeighbors
