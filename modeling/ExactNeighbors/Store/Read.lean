import ExactNeighbors.Store.Basic

/-!
# Reading codes, vectors and bytes

Ranges of slots include dead ones, whose codes stay until they are reused. An empty range is
never out of bounds.
-/
namespace ExactNeighbors.Store

variable {α : Type}

def codesRange (s : Store α) (start count : Nat) : Except IndexError (List α) :=
  if count = 0 then .ok []
  else if start + count ≤ s.physical then
    let width := s.codec.codeLength
    match Rows.slice? (start * width) ((start + count) * width) s.codes with
    | some codes => .ok codes
    | none => .error .overrun
  else .error (.outOfBounds start count s.physical)

def code (s : Store α) (slot : Nat) : Except IndexError (List α) := s.codesRange slot 1

def codeBytes (s : Store α) (slot : Nat) : Except IndexError Bytes :=
  (s.code slot).map s.codec.bytes

def allBytes (s : Store α) : Bytes := s.codec.bytes s.codes

/-- Decodes the codes of `count` slots into a fresh buffer. It holds 4 bytes for every component,
and nothing asks beforehand whether there are buffers of that length. -/
def decodeAll (codec : Codec α) (count : Nat) (codes : List α) : Except IndexError (List Single) :=
  if 4 * (count * codec.dimension) ≤ Word.longestBuffer then
    .ok ((Rows.split codec.codeLength codes).flatMap codec.decode)
  else .error .overrun

def reconstructRange (s : Store α) (start count : Nat) : Except IndexError (List Single) := do
  decodeAll s.codec count (← s.codesRange start count)

def reconstructSlot (s : Store α) (slot : Nat) : Except IndexError (List Single) :=
  s.reconstructRange slot 1

def reconstruct (s : Store α) (label : Nat) : Except IndexError (List Single) := do
  s.reconstructSlot (← s.resolve label)

def packer (s : Store α) : Except IndexError Packer := s.codeSize.map Packer.flat

def packBlock (p : Packer) (code : Bytes) : Except IndexError Bytes :=
  match p.packAll code (List.replicate p.blockSize 0) with
  | (.ok (), block) => .ok block
  | (.error e, _) => .error (.packing e)

def packCodes (s : Store α) (start count : Nat) : Except IndexError Bytes := do
  let p ← s.packer
  let codes ← s.codesRange start count
  let some bytes := Word.product? count p.blockSize | throw .overrun
  if let some fault := Memory.fault? s.memory.packed bytes then throw (.packedExhausted count fault)
  if p.codeSize = 0 then throw .overrun
  return (← (Rows.split p.codeSize (s.codec.bytes codes)).mapM (packBlock p)).flatten

end ExactNeighbors.Store
