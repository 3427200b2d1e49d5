import ExactNeighbors.Index.Basic

/-!
# Scoring given candidates

Each query is scored against its own `k` candidates, dead slots included and in the order given.
A missing candidate has the worst possible score.
-/
namespace ExactNeighbors.Index

def scoreSlotSubset (ix : Index) (queries : List Score) (k : Nat) (slots : List (Option Nat)) :
    Except IndexError (List Score) := do
  if !ix.metric.isPrimary then throw (.unsupportedMetric ix.metric .subsetScoring)
  if k = 0 then throw (.invalidK k)
  let expected := (← ix.queryCount queries) * k
  if Word.size ≤ expected then throw (.invalidK k)
  if slots.length ≠ expected then throw (.candidateCount expected slots.length)
  let total := ix.store.physical
  if let some slot := (slots.filterMap id).find? (total ≤ ·) then
    throw (.outOfBounds slot 1 total)
  let base := (← ix.store.codesRange 0 total).map Single.value
  let out := List.replicate expected Score.zero
  let scores? := match ix.metric with
    | .innerProduct => Distance.innerProductByIndex? .trap out queries base slots ix.dimension k
    | _ => Distance.l2SqrByIndex? .trap out queries base slots ix.dimension k
  match scores? with
  | some scores => return scores
  | none => throw .overrun

def resolveCandidate (ix : Index) : Option Nat → Except IndexError (Option Nat)
  | none => .ok none
  | some label => (ix.store.resolve label).map some

def scoreLabelSubset (ix : Index) (queries : List Score) (k : Nat) (labels : List (Option Nat)) :
    Except IndexError (List Score) := do
  ix.scoreSlotSubset queries k (← labels.mapM ix.resolveCandidate)

end ExactNeighbors.Index
