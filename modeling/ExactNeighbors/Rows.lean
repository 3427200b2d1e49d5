/-!
# Rows of a flat buffer

A buffer of fixed-width records holds row `i` at positions `i * width` up to
`(i + 1) * width`. A remainder shorter than the width belongs to no row.
-/
namespace ExactNeighbors.Rows

variable {α : Type}

/-- The whole rows of a buffer, in order. A width of zero gives none. -/
def split (width : Nat) (xs : List α) : List (List α) :=
  (List.range (xs.length / width)).map fun i => (xs.drop (i * width)).take width

def slice? (start stop : Nat) (xs : List α) : Option (List α) :=
  if start ≤ stop ∧ stop ≤ xs.length then some ((xs.drop start).take (stop - start)) else none

def overlay (start : Nat) (row xs : List α) : List α :=
  xs.take start ++ row ++ xs.drop (start + row.length)

@[simp] theorem length_split (width : Nat) (xs : List α) :
    (split width xs).length = xs.length / width := by
  simp [split]

theorem length_overlay {start : Nat} {row xs : List α} (h : start + row.length ≤ xs.length) :
    (overlay start row xs).length = xs.length := by
  simp [overlay]; omega

end ExactNeighbors.Rows
