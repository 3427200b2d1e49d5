/-!
# Ranges of characters

A property of characters is a list of ranges of their numbers, both ends included.
-/
namespace ExactNeighbors

abbrev CharRanges := List (Nat × Nat)

namespace CharRanges

def contains (rs : CharRanges) (c : Char) : Bool :=
  rs.any fun (first, last) => first ≤ c.toNat && c.toNat ≤ last

end CharRanges
end ExactNeighbors
