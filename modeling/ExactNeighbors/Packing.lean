import ExactNeighbors.Number.Word
import ExactNeighbors.Rows

/-!
# Packing codes into blocks

A packer moves codes of `codeSize` bytes between a flat buffer and blocks that hold `count` codes
each. A layout says how one code is written into a block and read from it; whole blocks are
packed and unpacked code by code.
-/
namespace ExactNeighbors

abbrev Bytes := List UInt8

inductive PackError where
  | length (expected actual : Nat)
  | position (offset count : Nat)
  /-- A buffer cannot be cut into codes of no bytes. -/
  | emptyCode
  /-- The codes of one block have more bytes than a register counts. -/
  | oversized
deriving DecidableEq, Repr

namespace PackError

def message : PackError → String
  | .length expected actual =>
    "Buffer size mismatch: expected " ++ toString expected ++ " bytes, got " ++ toString actual
  | .position offset count =>
    "Offset " ++ toString offset ++ " out of range for block of " ++ toString count ++ " codes"
  | .emptyCode => "Code of no bytes"
  | .oversized => "Block size out of range"

end PackError

/-- Both operations answer with the buffer they write to, as it is afterwards. -/
structure Packer where
  codeSize : Nat
  count : Nat
  blockSize : Nat
  /-- Writes `code` at place `offset` of `block`. -/
  pack : (code : Bytes) → (offset : Nat) → (block : Bytes) → Except PackError Bytes
  /-- Reads the code at place `offset` of `block` over `code`. -/
  unpack : (block : Bytes) → (offset : Nat) → (code : Bytes) → Except PackError Bytes

namespace Packer

def checkLength (expected : Nat) (buffer : Bytes) : Except PackError Unit :=
  if buffer.length = expected then .ok () else .error (.length expected buffer.length)

def packFrom (p : Packer) : Nat → List Bytes → Bytes → Except PackError Unit × Bytes
  | _, [], block => (.ok (), block)
  | offset, code :: codes, block =>
    match p.pack code offset block with
    | .ok block => p.packFrom (offset + 1) codes block
    | .error e => (.error e, block)

def unpackFrom (p : Packer) (block : Bytes) :
    Nat → List Bytes → Except PackError Unit × List Bytes
  | _, [] => (.ok (), [])
  | offset, code :: codes =>
    match p.unpack block offset code with
    | .ok code =>
      let (outcome, codes) := p.unpackFrom block (offset + 1) codes
      (outcome, code :: codes)
    | .error e => (.error e, code :: codes)

def checkFlat (p : Packer) (codes : Bytes) : Except PackError Unit := do
  let some flatLength := Word.product? p.codeSize p.count | throw .oversized
  checkLength flatLength codes
  if p.codeSize = 0 then throw .emptyCode

def packAll (p : Packer) (codes block : Bytes) : Except PackError Unit × Bytes :=
  match p.checkFlat codes with
  | .error e => (.error e, block)
  | .ok () => p.packFrom 0 (Rows.split p.codeSize codes) block

def unpackAll (p : Packer) (block codes : Bytes) : Except PackError Unit × Bytes :=
  match p.checkFlat codes with
  | .error e => (.error e, codes)
  | .ok () =>
    let (outcome, rows) := p.unpackFrom block 0 (Rows.split p.codeSize codes)
    (outcome, rows.flatten ++ codes.drop rows.flatten.length)

def flat (codeSize : Nat) : Packer where
  codeSize
  count := 1
  blockSize := codeSize
  pack code offset block := do
    if offset ≠ 0 then throw (.position offset 1)
    checkLength codeSize code
    checkLength codeSize block
    return code
  unpack block offset code := do
    if offset ≠ 0 then throw (.position offset 1)
    checkLength codeSize block
    checkLength codeSize code
    return block

/-- `count` codes per block, byte by byte: all first bytes, then all second bytes, and so on. -/
def interleaved (codeSize count : Nat) : Except PackError Packer :=
  match Word.product? codeSize count with
  | none => .error .oversized
  | some blockSize => .ok {
      codeSize
      count
      blockSize
      pack := fun code offset block => do
        if count ≤ offset then throw (.position offset count)
        checkLength codeSize code
        checkLength blockSize block
        return code.zipIdx.foldl (fun block (b, i) => block.set (i * count + offset) b) block
      unpack := fun block offset code => do
        if count ≤ offset then throw (.position offset count)
        checkLength codeSize code
        checkLength blockSize block
        return (List.range codeSize).map fun i => block.getD (i * count + offset) 0 }

end Packer
end ExactNeighbors
