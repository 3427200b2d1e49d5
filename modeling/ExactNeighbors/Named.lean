/-!
# Lists of named values

A list of names and values in which a name stands once. Setting a name changes its value in place;
a new name goes to the end.
-/
namespace ExactNeighbors.Named

variable {α : Type}

def set (name : String) (v : α) : List (String × α) → List (String × α)
  | [] => [(name, v)]
  | (key, old) :: ms => if key = name then (key, v) :: ms else (key, old) :: set name v ms

def erase (name : String) (ms : List (String × α)) : List (String × α) :=
  ms.filter (·.1 ≠ name)

/-- Of entries with the same name the last one counts. -/
def distinct (ms : List (String × α)) : List (String × α) :=
  ms.foldr (fun e rest => if rest.any (·.1 = e.1) then rest else e :: rest) []

end ExactNeighbors.Named
