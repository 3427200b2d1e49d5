import Std.Data.TreeMap.Basic
import ExactNeighbors.Bitmap
import ExactNeighbors.Codec
import ExactNeighbors.Error
import ExactNeighbors.IdSet

/-!
# Slots, labels and codes

A store keeps encoded vectors in numbered slots. Every vector gets a fresh label when it is
inserted. Deleting a label only marks its slot with a tombstone; the label goes on resolving to
that slot until an insertion reuses the slot and retires the label. Free slots are reused from
the least one on.
-/
namespace ExactNeighbors

structure Store (α : Type) where
  memory : Memory
  codec : Codec α
  metric : Metric
  /-- The codes of all slots, one after the other. -/
  codes : List α := []
  tombstones : Bitmap := .empty
  /-- Slots to be reused. -/
  free : IdSet := .empty
  /-- The label of each slot, the last one where the slot is dead. -/
  labels : List Nat := []
  /-- The slot of each label that resolves. -/
  slots : Std.TreeMap Nat Nat := ∅
  pending : Nat := 0
  nextLabel : Nat := 0

namespace Store

variable {α : Type}

/-- An empty store. A codec without components or without code elements is refused. -/
def new (memory : Memory) (codec : Codec α) (metric : Metric) : Except IndexError (Store α) :=
  if codec.dimension = 0 ∨ codec.codeLength = 0 then .error (.dimensionMismatch 1 0)
  else .ok { memory, codec, metric }

/-- Slots ever used, dead ones included. -/
def physical (s : Store α) : Nat := s.labels.length

def live (s : Store α) : Nat := s.physical - s.pending

def isEmpty (s : Store α) : Bool := s.live = 0

def dimension (s : Store α) : Nat := s.codec.dimension

def codeSize (s : Store α) : Except IndexError Nat :=
  match s.codec.codeSize? with
  | some size => .ok size
  | none => .error .overrun

def labelOf? (s : Store α) (slot : Nat) : Option Nat := s.labels[slot]?

def slotOf? (s : Store α) (label : Nat) : Option Nat := s.slots[label]?

def isDeleted (s : Store α) (slot : Nat) : Bool := s.tombstones.get slot

def resolve (s : Store α) (label : Nat) : Except IndexError Nat :=
  match s.slotOf? label with
  | some slot => .ok slot
  | none => .error (.labelNotFound label)

end Store
end ExactNeighbors
