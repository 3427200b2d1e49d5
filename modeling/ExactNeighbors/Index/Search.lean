import ExactNeighbors.Index.Basic
import ExactNeighbors.Ranking
import ExactNeighbors.Selector

/-!
# Nearest neighbours and range search

Both scan the candidate slots in ascending order, four at a time and the last few one by one.
Nearest-neighbour search keeps a bounded ranking of the scores; range search keeps the scores on
the right side of a radius and sorts them. Equal scores are ordered by slot.
-/
namespace ExactNeighbors.Index

/-- Whether a slot takes part in a search. Selectors judge labels. -/
def isCandidate (ix : Index) (selector : Option Selector) (slot : Nat) : Bool :=
  if ix.excludesTombstones && ix.store.isDeleted slot then false
  else
    match ix.store.labelOf? slot, selector with
    | none, _ => false
    | some _, none => true
    | some label, some s => s.accepts label

def candidates (ix : Index) (selector : Option Selector) : List Nat :=
  (List.range ix.store.physical).filter (ix.isCandidate selector)

/-- Scores slots against the bound query, four at a time while four are left. -/
def scoreSlots (s : Store Single) : List Nat → Scoring (List Scored)
  | a :: b :: c :: d :: rest => do
    let scores ← Computer.distanceToFour s ⟨a, b, c, d⟩
    let others ← scoreSlots s rest
    return scores.toList.zip [a, b, c, d] ++ others
  | rest => rest.mapM fun slot => do return (← Computer.distanceTo s slot, slot)

def scan (ix : Index) (selector : Option Selector) (query : List Score) :
    Scoring (List Scored) := do
  Computer.setQuery ix.store query
  scoreSlots ix.store (ix.candidates selector)

def scanAll (ix : Index) (selector : Option Selector) (queries : List Score) :
    Except IndexError (List (List Scored)) :=
  let action := (Rows.split ix.dimension queries).mapM (ix.scan selector)
  ((Computer.ofStore ix.store).run action).1

def hits (ix : Index) (found : List Scored) : List Hit :=
  found.filterMap fun (score, slot) => (ix.store.labelOf? slot).map fun label => ⟨label, score⟩

def preference (m : Metric) : Preference := if m.isSimilarity then .largest else .smallest

def nearest (m : Metric) (k : Nat) (scored : List Scored) : List Scored :=
  ((Ranking.new k (preference m)).pushAll scored).entries

/-- The `k` nearest neighbours of each query, best first. -/
def search (ix : Index) (queries : List Score) (k : Nat) (selector : Option Selector) :
    Except IndexError (List (List Hit)) := do
  if k = 0 then throw (.invalidK k)
  if selector.isSome ∧ !ix.metric.isPrimary ∧ !ix.metric.isSimilarity then
    throw (.selectorNotSupported ix.metric)
  let _ ← ix.queryCount queries
  let scans ← ix.scanAll selector queries
  return scans.map fun scored => ix.hits (nearest ix.metric k scored)

def within (m : Metric) (radius score : Score) : Bool :=
  if m.isSimilarity then score > radius else score < radius

/-- Better scores first in the total order, and smaller slots first among equal scores. -/
def inOrder (m : Metric) (x y : Scored) : Bool :=
  let i := Score.key x.1
  let j := Score.key y.1
  (if m.isSimilarity then j < i else i < j) || (i = j && x.2 ≤ y.2)

/-- Every vector within a radius of each query, best first. -/
def rangeSearch (ix : Index) (queries : List Score) (radius : Score)
    (selector : Option Selector) : Except IndexError (List (List Hit)) := do
  if !ix.metric.isPrimary then throw (.unsupportedMetric ix.metric .rangeSearch)
  let _ ← ix.queryCount queries
  let scans ← ix.scanAll selector queries
  return scans.map fun scored =>
    ix.hits ((scored.filter fun x => within ix.metric radius x.1).mergeSort (inOrder ix.metric))

end ExactNeighbors.Index
