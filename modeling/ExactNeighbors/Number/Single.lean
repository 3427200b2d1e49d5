import ExactNeighbors.Number.Score

/-!
# Stored components

A component is kept as its 32 bits, so that a NaN payload or the sign of a zero survives
storage. Arithmetic happens on `Single.value`.
-/
namespace ExactNeighbors

structure Single where
  bits : UInt32
deriving DecidableEq, Repr

namespace Single

def value (x : Single) : Score := Float32.ofBits x.bits

def ofScore (v : Score) : Single := ⟨v.toBits⟩

def bytes (x : Single) : List UInt8 :=
  [x.bits.toUInt8, (x.bits >>> 8).toUInt8, (x.bits >>> 16).toUInt8, (x.bits >>> 24).toUInt8]

theorem length_bytes (x : Single) : x.bytes.length = 4 := rfl

end Single
end ExactNeighbors
