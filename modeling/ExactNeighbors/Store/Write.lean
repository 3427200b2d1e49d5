import ExactNeighbors.Store.Basic

/-!
# Inserting, deleting and clearing

An operation that fails has no new store, so the old one stands. Insertion checks everything and
secures room before the first row is placed; deletion checks every label before the first
tombstone is set.
-/
namespace ExactNeighbors.Store

variable {α : Type}

/-- Why there is no room for `additional` more slots, if there is none. -/
def roomFault? (s : Store α) (additional : Nat) : Option RoomFault :=
  let elements := additional * s.codec.codeLength
  if Word.size ≤ elements then some .uncountable
  else
    match Memory.fault? s.memory.codes ((s.codes.length + elements) * s.codec.width) with
    | some fault => some fault
    | none => Memory.fault? (8 * s.memory.slots) (8 * (s.physical + additional))

def reserve (s : Store α) (additional : Nat) : Except IndexError Unit :=
  match s.roomFault? additional with
  | some fault => .error (.capacityExhausted additional fault)
  | none => .ok ()

/-- Puts a code into a dead slot: the slot comes back to life under a new label, and the label
it had is retired. -/
def recycle (s : Store α) (slot : Nat) (free : IdSet) (code : List α) :
    Except IndexError (Store α) :=
  match s.labels[slot]? with
  | none => .error .overrun
  | some retired =>
    let start := slot * s.codec.codeLength
    if start + s.codec.codeLength ≤ s.codes.length ∧ slot < s.tombstones.length ∧ 0 < s.pending then
      .ok { s with
        codes := Rows.overlay start code s.codes
        tombstones := s.tombstones.unset slot
        free
        labels := s.labels.set slot s.nextLabel
        slots := (s.slots.erase retired).insert s.nextLabel slot
        pending := s.pending - 1
        nextLabel := s.nextLabel + 1 }
    else .error .overrun

def append (s : Store α) (code : List α) : Store α :=
  { s with
    codes := s.codes ++ code
    tombstones := s.tombstones.push false
    labels := s.labels ++ [s.nextLabel]
    slots := s.slots.insert s.nextLabel s.physical
    nextLabel := s.nextLabel + 1 }

def place (s : Store α) (row : List Single) : Except IndexError (Store α) :=
  match s.free.popLeast? with
  | some (slot, free) => s.recycle slot free (s.codec.encode row)
  | none => .ok (s.append (s.codec.encode row))

def placeAll (s : Store α) : List (List Single) → Except IndexError (List Nat × Store α)
  | [] => .ok ([], s)
  | row :: rows => do
    let next ← s.place row
    let (labels, last) ← next.placeAll rows
    return (s.nextLabel :: labels, last)

/-- Inserts the vectors of a flat buffer. The answer is their labels, in order. -/
def add (s : Store α) (x : List Single) : Except IndexError (List Nat × Store α) := do
  if !s.codec.isTrained then throw .notTrained
  if x.length % s.dimension ≠ 0 then throw (.dimensionMismatch s.dimension (x.length % s.dimension))
  let rows := Rows.split s.dimension x
  if rows.isEmpty then return ([], s)
  s.reserve rows.length
  s.placeAll rows

/-- The slots of labels that may all be deleted together: each resolves to a slot that is neither
dead nor named before. -/
def deletable (s : Store α) (named : List Nat) : List Nat → Except IndexError (List Nat)
  | [] => .ok []
  | label :: labels => do
    let slot ← s.resolve label
    if s.isDeleted slot ∨ slot ∈ named then throw (.alreadyDeleted label slot)
    let slots ← s.deletable (slot :: named) labels
    return slot :: slots

def bury (s : Store α) (slot : Nat) : Store α :=
  { s with
    tombstones := s.tombstones.set slot
    free := s.free.insert slot
    pending := s.pending + 1 }

/-- Deletes labels, all or none. The answer is how many slots are waiting to be reused. -/
def markDeleted (s : Store α) (labels : List Nat) : Except IndexError (Nat × Store α) := do
  let slots ← s.deletable [] labels
  if !slots.all (· < s.tombstones.length) then throw .overrun
  let buried := slots.foldl bury s
  return (buried.pending, buried)

def reset (s : Store α) : Store α :=
  { memory := s.memory, codec := s.codec, metric := s.metric }

end ExactNeighbors.Store
