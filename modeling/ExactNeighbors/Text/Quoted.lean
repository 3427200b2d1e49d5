import ExactNeighbors.Text.GraphemeExtend
import ExactNeighbors.Text.Unassigned

/-!
# Quoted paths

A path in a message stands between double quotes. Quotes, backslashes and characters that do not
show by themselves are written as escapes.
-/
namespace ExactNeighbors

/-- Controls, separators other than the space, format characters and private use. -/
def formless : CharRanges :=
  [(0x0, 0x1f), (0x7f, 0xa0), (0xad, 0xad), (0x600, 0x605), (0x61c, 0x61c), (0x6dd, 0x6dd),
   (0x70f, 0x70f), (0x890, 0x891), (0x8e2, 0x8e2), (0x1680, 0x1680), (0x180e, 0x180e),
   (0x2000, 0x200f), (0x2028, 0x202f), (0x205f, 0x2064), (0x2066, 0x206f), (0x3000, 0x3000),
   (0xe000, 0xf8ff), (0xfeff, 0xfeff), (0xfff9, 0xfffb), (0x110bd, 0x110bd), (0x110cd, 0x110cd),
   (0x13430, 0x1343f), (0x1bca0, 0x1bca3), (0x1d173, 0x1d17a), (0xe0001, 0xe0001),
   (0xe0020, 0xe007f), (0xf0000, 0xffffd), (0x100000, 0x10fffd)]

def fillers : CharRanges := [(0x115f, 0x1160), (0x3164, 0x3164), (0xffa0, 0xffa0)]

def spacedMarks : CharRanges := [(0xff9e, 0xff9f)]

def isAttached (c : Char) : Bool := graphemeExtend.contains c && !spacedMarks.contains c

/-- Characters that do not show by themselves. All that show in ASCII lie from `' '` to `'~'`. -/
def isHidden (c : Char) : Bool :=
  if ' ' ≤ c ∧ c ≤ '~' then false
  else formless.contains c || fillers.contains c || isAttached c || unassigned.contains c

def quoteEscape (c : Char) : List Char :=
  if c = '"' then ['\\', '"']
  else if c = '\\' then ['\\', '\\']
  else if c = '\t' then ['\\', 't']
  else if c = '\n' then ['\\', 'n']
  else if c = '\r' then ['\\', 'r']
  else if c.toNat = 0 then ['\\', '0']
  else if isHidden c then ['\\', 'u', '\x7b'] ++ Nat.toDigits 16 c.toNat ++ ['\x7d']
  else [c]

def quotedPath (path : String) : String :=
  String.ofList ('"' :: path.toList.flatMap quoteEscape ++ ['"'])

end ExactNeighbors
