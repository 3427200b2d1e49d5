import ExactNeighbors.IdSet

/-!
# Selectors

A selector says which ids may appear in a result. Explicit sets come in two forms, as a set of
ids and as one bit per id.
-/
namespace ExactNeighbors

/-- One bit per id, least significant first within each byte; ids past the end are absent. -/
structure BitSet where
  bytes : List UInt8 := []
deriving DecidableEq, Repr

namespace BitSet

def mask (id : Nat) : UInt8 := UInt8.ofBitVec (BitVec.twoPow 8 (id % 8))

def contains (s : BitSet) (id : Nat) : Bool :=
  match s.bytes[id / 8]? with
  | some b => b &&& mask id != 0
  | none => false

def insert (s : BitSet) (id : Nat) : BitSet :=
  let grown := s.bytes ++ List.replicate (id / 8 + 1 - s.bytes.length) 0
  ⟨grown.modify (id / 8) (· ||| mask id)⟩

def ofList (ids : List Nat) : BitSet := ids.foldl insert {}

end BitSet

inductive Selector where
  /-- Ids from `low` up to `high`, exclusive. -/
  | range (low high : Nat)
  | set (ids : IdSet)
  | bits (ids : BitSet)
  /-- Ids that pass a test. -/
  | satisfying (test : Nat → Bool)
  | complement (s : Selector)

namespace Selector

def accepts : Selector → Nat → Bool
  | .range low high, id => low ≤ id && id < high
  | .set ids, id => ids.contains id
  | .bits ids, id => ids.contains id
  | .satisfying test, id => test id
  | .complement s, id => !s.accepts id

end Selector
end ExactNeighbors
