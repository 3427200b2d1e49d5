import ExactNeighbors.Number.Word

/-!
# Memory

Room for codes, for the bookkeeping of slots and for packed blocks is asked for and may be refused.
How much is granted is a property of the machine. No buffer is longer than
`Word.longestBuffer` on any machine.
-/
namespace ExactNeighbors

inductive RoomFault where
  /-- The number of code elements leaves the 64-bit range. -/
  | uncountable
  /-- The buffer would be longer than any buffer may be. -/
  | tooLong
  /-- The memory is not granted. -/
  | ungranted
deriving DecidableEq, Repr

namespace RoomFault

def reason? : RoomFault → Option String
  | .uncountable => none
  | .tooLong => some ("memory allocation failed because the computed capacity exceeded " ++
      "the collection's maximum")
  | .ungranted => some "memory allocation failed because the memory allocator returned an error"

def told (request : String) (fault : RoomFault) : String :=
  "Capacity exhausted: " ++ request ++
    (match fault.reason? with
      | none => ""
      | some reason => ": " ++ reason)

end RoomFault

/-- The longest requests that are granted. -/
structure Memory where
  /-- Bytes of one buffer of codes. -/
  codes : Nat
  /-- Slots that have a label, an entry for it and a tombstone, 8 bytes for each label. -/
  slots : Nat
  /-- Bytes of one buffer of packed blocks. -/
  packed : Nat
  codes_le : codes ≤ Word.longestBuffer
  slots_le : 8 * slots ≤ Word.longestBuffer

namespace Memory

/-- What there is to say against a buffer of some bytes, where so many are granted. -/
def fault? (granted bytes : Nat) : Option RoomFault :=
  if Word.longestBuffer < bytes then some .tooLong
  else if granted < bytes then some .ungranted
  else none

/-- Memory of a machine whose addresses have 47 bits. -/
def host : Memory where
  codes := 0x7fffffffffff
  slots := 0x38000000000
  packed := 0x7fffffffffff
  codes_le := by decide
  slots_le := by decide

structure Holds (m : Memory) (bytes slots : Nat) : Prop where
  bytes_le : bytes ≤ m.codes
  slots_le : slots ≤ m.slots

theorem Holds.mono {m : Memory} {bytes slots fewerBytes fewerSlots : Nat} (h : m.Holds bytes slots)
    (hbytes : fewerBytes ≤ bytes) (hslots : fewerSlots ≤ slots) : m.Holds fewerBytes fewerSlots :=
  ⟨Nat.le_trans hbytes h.bytes_le, Nat.le_trans hslots h.slots_le⟩

theorem Holds.bytes_le_longest {m : Memory} {bytes slots : Nat} (h : m.Holds bytes slots) :
    bytes ≤ Word.longestBuffer := Nat.le_trans h.bytes_le m.codes_le

theorem fault?_eq_none_iff {granted bytes : Nat} :
    fault? granted bytes = none ↔ bytes ≤ Word.longestBuffer ∧ bytes ≤ granted := by
  unfold fault?
  split
  · exact iff_of_false (by simp) (by omega)
  · split
    · exact iff_of_false (by simp) (by omega)
    · exact iff_of_true rfl ⟨by omega, by omega⟩

theorem fault?_ne_uncountable (granted bytes : Nat) : fault? granted bytes ≠ some .uncountable := by
  unfold fault?
  split
  · simp
  · split <;> simp

end Memory
end ExactNeighbors
