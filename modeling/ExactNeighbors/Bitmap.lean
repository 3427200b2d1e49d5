/-!
# Growing bitmaps

One bit per position, sixty-four to a word. Bits beyond the length are zero.
-/
namespace ExactNeighbors

structure Bitmap where
  words : List UInt64 := []
  length : Nat := 0
deriving DecidableEq, Repr

namespace Bitmap

def empty : Bitmap := {}

def mask (i : Nat) : UInt64 := UInt64.ofBitVec (BitVec.twoPow 64 (i % 64))

def get (b : Bitmap) (i : Nat) : Bool :=
  i < b.length && (b.words.getD (i / 64) 0).toBitVec.getLsbD (i % 64)

def set (b : Bitmap) (i : Nat) : Bitmap :=
  { b with words := b.words.modify (i / 64) (· ||| mask i) }

def unset (b : Bitmap) (i : Nat) : Bitmap :=
  { b with words := b.words.modify (i / 64) (· &&& ~~~mask i) }

def push (b : Bitmap) (bit : Bool) : Bitmap :=
  let grown : Bitmap :=
    { words := if b.length % 64 = 0 then b.words ++ [0] else b.words, length := b.length + 1 }
  if bit then grown.set b.length else grown

def onesIn (w : UInt64) : Nat := (List.range 64).countP fun i => w.toBitVec.getLsbD i

def countOnes (b : Bitmap) : Nat := b.words.foldr (fun w n => onesIn w + n) 0

def toList (b : Bitmap) : List Bool := (List.range b.length).map b.get

end Bitmap
end ExactNeighbors
