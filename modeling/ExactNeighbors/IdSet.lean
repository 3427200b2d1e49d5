/-!
# Finite sets of ids

A set is the ascending list of its members.
-/
namespace ExactNeighbors

structure IdSet where
  members : List Nat := []
deriving DecidableEq, Repr

namespace IdSet

def empty : IdSet := {}

def insertInto (id : Nat) : List Nat → List Nat
  | [] => [id]
  | x :: xs => if id < x then id :: x :: xs else if id = x then x :: xs else x :: insertInto id xs

def insert (s : IdSet) (id : Nat) : IdSet := ⟨insertInto id s.members⟩

def ofList (ids : List Nat) : IdSet := ids.foldl insert empty

def contains (s : IdSet) (id : Nat) : Bool := s.members.contains id

def size (s : IdSet) : Nat := s.members.length

def isEmpty (s : IdSet) : Bool := s.members.isEmpty

def popLeast? (s : IdSet) : Option (Nat × IdSet) :=
  match s.members with
  | [] => none
  | x :: xs => some (x, ⟨xs⟩)

theorem mem_insertInto {id x : Nat} {xs : List Nat} : x ∈ insertInto id xs ↔ x = id ∨ x ∈ xs := by
  induction xs with
  | nil => simp [insertInto]
  | cons y ys ih =>
    unfold insertInto
    split
    · simp
    · split
      · rename_i h; subst h; simp
      · simp only [List.mem_cons, ih]; constructor <;> (rintro (h | h | h) <;> simp [h])

theorem pairwise_insertInto {id : Nat} {xs : List Nat} (h : xs.Pairwise (· < ·)) :
    (insertInto id xs).Pairwise (· < ·) := by
  induction xs with
  | nil => simp [insertInto]
  | cons y ys ih =>
    have hy := List.pairwise_cons.1 h
    unfold insertInto
    split
    · rename_i hlt
      exact List.pairwise_cons.2 ⟨fun z hz => by
        rcases List.mem_cons.1 hz with rfl | hz
        · exact hlt
        · exact Nat.lt_trans hlt (hy.1 z hz), h⟩
    · split
      · exact h
      · exact List.pairwise_cons.2 ⟨fun z hz => by
          rcases mem_insertInto.1 hz with rfl | hz
          · omega
          · exact hy.1 z hz, ih hy.2⟩

theorem length_insertInto {id : Nat} {xs : List Nat} (h : id ∉ xs) :
    (insertInto id xs).length = xs.length + 1 := by
  induction xs with
  | nil => rfl
  | cons x xs ih =>
    unfold insertInto
    split
    · rfl
    · obtain ⟨hne, hmem⟩ := not_or.1 (mt List.mem_cons.2 h)
      rw [if_neg hne, List.length_cons, ih hmem, List.length_cons]

end IdSet
end ExactNeighbors
