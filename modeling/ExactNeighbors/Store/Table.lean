import ExactNeighbors.Store.Write

/-!
# A plain table of slots

The same operations on one list of entries: an insertion takes the first dead entry or goes to
the end, a deletion marks the entry that carries the label. Nothing is kept besides the list and
the next label.
-/
namespace ExactNeighbors

structure Entry (α : Type) where
  label : Nat
  code : List α
  dead : Bool

structure SlotTable (α : Type) where
  codec : Codec α
  entries : List (Entry α) := []
  nextLabel : Nat := 0

namespace SlotTable

variable {α : Type}

/-- The first dead entry gives way to `e`; without one, `e` goes to the end. -/
def placeIn (e : Entry α) : List (Entry α) → List (Entry α)
  | [] => [e]
  | x :: xs => if x.dead then e :: xs else x :: placeIn e xs

def place (t : SlotTable α) (row : List Single) : SlotTable α :=
  { t with
    entries := placeIn ⟨t.nextLabel, t.codec.encode row, false⟩ t.entries
    nextLabel := t.nextLabel + 1 }

def add (t : SlotTable α) (x : List Single) : Except IndexError (List Nat × SlotTable α) :=
  let dim := t.codec.dimension
  if !t.codec.isTrained then .error .notTrained
  else if x.length % dim ≠ 0 then .error (.dimensionMismatch dim (x.length % dim))
  else
    let rows := Rows.split dim x
    .ok ((List.range rows.length).map (t.nextLabel + ·), rows.foldl place t)

def slotOf? (t : SlotTable α) (label : Nat) : Option Nat :=
  t.entries.findIdx? (·.label = label)

def bury (t : SlotTable α) (label : Nat) : Except IndexError (SlotTable α) :=
  match t.slotOf? label with
  | none => .error (.labelNotFound label)
  | some slot =>
    if t.entries[slot]?.any (·.dead) then .error (.alreadyDeleted label slot)
    else .ok { t with entries := t.entries.modify slot fun e => { e with dead := true } }

def dead (t : SlotTable α) : Nat := t.entries.countP (·.dead)

def markDeleted (t : SlotTable α) (labels : List Nat) : Except IndexError (Nat × SlotTable α) := do
  let t ← labels.foldlM bury t
  return (t.dead, t)

def reset (t : SlotTable α) : SlotTable α := { codec := t.codec }

def free (t : SlotTable α) : List Nat :=
  (List.range t.entries.length).filter fun slot => t.entries[slot]?.any (·.dead)

def labelOf? (t : SlotTable α) (slot : Nat) : Option Nat := t.entries[slot]?.map (·.label)

def isDeleted (t : SlotTable α) (slot : Nat) : Bool := t.entries[slot]?.any (·.dead)

def live (t : SlotTable α) : Nat := t.entries.countP (!·.dead)

end SlotTable
end ExactNeighbors
