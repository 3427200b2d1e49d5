import ExactNeighbors.Number.Single
import ExactNeighbors.Packing

/-!
# Codecs

A codec turns a vector into a code of fixed length and back. Storage sees only codes and their
bytes. The lengths are part of the type: encoding fills a whole code, decoding a whole vector.
-/
namespace ExactNeighbors

structure Codec (α : Type) where
  dimension : Nat
  /-- Elements per code. -/
  codeLength : Nat
  /-- Bytes per element. -/
  width : Nat
  isTrained : Bool
  encode : List Single → List α
  decode : List α → List Single
  elementBytes : α → Bytes
  length_encode : ∀ v, v.length = dimension → (encode v).length = codeLength
  length_decode : ∀ c, c.length = codeLength → (decode c).length = dimension
  length_elementBytes : ∀ a, (elementBytes a).length = width

namespace Codec

variable {α : Type}

def codeSize? (c : Codec α) : Option Nat := Word.product? c.codeLength c.width

def bytes (c : Codec α) (code : List α) : Bytes := code.flatMap c.elementBytes

def flat (dimension : Nat) : Codec Single where
  dimension
  codeLength := dimension
  width := 4
  isTrained := true
  encode v := v
  decode c := c
  elementBytes := Single.bytes
  length_encode _ h := h
  length_decode _ h := h
  length_elementBytes := Single.length_bytes

/-- One byte per component and `padding` bytes behind them that hold the dimension. A component
is cut to a whole number between 0 and 255. -/
def quantized (dimension padding : Nat) (isTrained : Bool) : Codec UInt8 where
  dimension
  codeLength := dimension + padding
  width := 1
  isTrained
  encode v := v.map (fun x => x.value.toUInt8) ++ List.replicate padding (UInt8.ofNat dimension)
  decode c := (c.take dimension).map fun b => Single.ofScore b.toFloat32
  elementBytes b := [b]
  length_encode v h := by simp [h]
  length_decode c h := by simp [h]
  length_elementBytes _ := rfl

/-- A codec whose codes hold nothing. Storage refuses it. -/
def blank (dimension : Nat) : Codec UInt8 where
  dimension
  codeLength := 0
  width := 1
  isTrained := true
  encode _ := []
  decode _ := List.replicate dimension ⟨0⟩
  elementBytes b := [b]
  length_encode _ _ := rfl
  length_decode _ _ := by simp
  length_elementBytes _ := rfl

end Codec
end ExactNeighbors
