import ExactNeighbors.Store.Write
import ExactNeighbors.Computer
import ExactNeighbors.Settings.Basic

/-!
# Exact-search indexes

An index is a store of raw components that is searched exhaustively. Deleted vectors are left
out of search unless the index says otherwise.
-/
namespace ExactNeighbors

structure Index where
  store : Store Single
  excludesTombstones : Bool := true

structure Hit where
  label : Nat
  distance : Score
deriving DecidableEq

structure Stats where
  live : Nat
  physical : Nat
  pendingRemovals : Nat
  dimension : Nat
  codeSize : Nat
  metric : Metric
deriving DecidableEq

namespace Index

def new (memory : Memory) (dimension : Nat) (metric : Metric) : Except IndexError Index :=
  (Store.new memory (Codec.flat dimension) metric).map fun store => { store }

/-- An empty index as settings describe it, with room for their initial capacity. -/
def ofSettings (memory : Memory) (settings : Settings) : Except IndexError Index := do
  match settings.validate with
  | .error e => throw (.settings e)
  | .ok () =>
    let index ← new memory settings.dimension settings.metric
    if 0 < settings.initialCapacity then index.store.reserve settings.initialCapacity
    return { index with excludesTombstones := settings.excludesTombstones }

def metric (ix : Index) : Metric := ix.store.metric

def dimension (ix : Index) : Nat := ix.store.dimension

def add (ix : Index) (x : List Single) : Except IndexError (List Nat × Index) :=
  (ix.store.add x).map fun (labels, store) => (labels, { ix with store })

def markDeleted (ix : Index) (labels : List Nat) : Except IndexError (Nat × Index) :=
  (ix.store.markDeleted labels).map fun (pending, store) => (pending, { ix with store })

def reset (ix : Index) : Index := { ix with store := ix.store.reset }

def stats (ix : Index) : Except IndexError Stats :=
  ix.store.codeSize.map fun codeSize => {
    live := ix.store.live
    physical := ix.store.physical
    pendingRemovals := ix.store.pending
    dimension := ix.store.dimension
    codeSize
    metric := ix.store.metric }

def queryCount (ix : Index) (queries : List Score) : Except IndexError Nat :=
  let rest := queries.length % ix.dimension
  if rest ≠ 0 then .error (.dimensionMismatch ix.dimension rest)
  else .ok (queries.length / ix.dimension)

end Index
end ExactNeighbors
