import ExactNeighbors.Store.Write

/-!
# Stores with reserved room

The code buffer of a store may hold more elements than there are codes. Reserving lets it grow by
whole steps; an insertion reserves a new slot for every vector, also for those that reuse one.
Nothing makes the buffer smaller.
-/
namespace ExactNeighbors

structure RoomyStore (α : Type) where
  store : Store α
  /-- Elements that the code buffer can hold as it is. -/
  capacity : Nat := 0

namespace RoomyStore

variable {α : Type}

def leastCapacity (width : Nat) : Nat := if width ≤ 1 then 8 else 4

/-- The capacity of a buffer that has to hold `needed` elements. One that grows doubles at least. -/
def grown (width capacity needed : Nat) : Nat :=
  if needed ≤ capacity then capacity
  else max (leastCapacity width) (max (2 * capacity) needed)

def capacityFor (r : RoomyStore α) (additional : Nat) : Nat :=
  let codec := r.store.codec
  grown codec.width r.capacity (r.store.codes.length + additional * codec.codeLength)

def reserve (r : RoomyStore α) (additional : Nat) : Except IndexError (RoomyStore α) := do
  r.store.reserve additional
  return { r with capacity := r.capacityFor additional }

def add (r : RoomyStore α) (x : List Single) : Except IndexError (List Nat × RoomyStore α) := do
  let (labels, store) ← r.store.add x
  return (labels, { store, capacity := r.capacityFor labels.length })

def markDeleted (r : RoomyStore α) (labels : List Nat) :
    Except IndexError (Nat × RoomyStore α) := do
  let (pending, store) ← r.store.markDeleted labels
  return (pending, { r with store })

def reset (r : RoomyStore α) : RoomyStore α := { r with store := r.store.reset }

def hasRoom (r : RoomyStore α) (slots : Nat) : Bool :=
  slots ≤ r.capacity / r.store.codec.codeLength

end RoomyStore
end ExactNeighbors
