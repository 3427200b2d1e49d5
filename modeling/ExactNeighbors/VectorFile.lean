import ExactNeighbors.Files
import ExactNeighbors.Json.Reader
import ExactNeighbors.Number.Single
import ExactNeighbors.Text.Quoted

/-!
# Vector files

A vector file holds equally long, non-empty rows of numbers. Any parser may find the rows of a text;
the standard one takes a JSON list of lists, where whole numbers of 64 bits are rounded once to
binary32 and other numbers by way of binary64.
-/
namespace ExactNeighbors

inductive VectorFileError where
  | unreadable (path : String)
  | malformed (path : String)
  | emptyVector (path : String)
  | noVectors (path : String)
  | unevenVector (number : Nat) (path : String) (length expected : Nat)
deriving DecidableEq, Repr

namespace VectorFileError

def message : VectorFileError → String
  | .unreadable path => "Failed to read vector file " ++ quotedPath path
  | .malformed path => "Failed to parse vector file " ++ quotedPath path
  | .emptyVector path => "Vector file " ++ quotedPath path ++ " holds an empty vector"
  | .noVectors path => "Vector file " ++ quotedPath path ++ " holds no vectors"
  | .unevenVector number path length expected =>
    "Vector " ++ toString number ++ " in " ++ quotedPath path ++ " has " ++ toString length ++
      " components, expected " ++ toString expected

end VectorFileError

structure Vectors where
  dimension : Nat
  flat : List Single
deriving DecidableEq, Repr

namespace Vectors

def component? : Json → Option Single
  | .int i => some (.ofScore (Float32.ofInt i))
  | .double x => some (.ofScore x.toFloat32)
  | _ => none

def rowsOfJson? (j : Json) : Option (List (List Single)) := do
  (← j.asList?).mapM fun row => do (← row.asList?).mapM component?

def rowsOfText? (text : String) : Option (List (List Single)) :=
  (Json.ofText? text).bind rowsOfJson?

/-- Lays rows into one buffer. All must be as long as the first one, and that must not be empty. -/
def ofRows (path : String) : List (List Single) → Except VectorFileError Vectors
  | [] => .error (.noVectors path)
  | first :: rest =>
    if first.isEmpty then .error (.emptyVector path)
    else
      match ((first :: rest).zipIdx).find? fun (row, _) => row.length ≠ first.length with
      | some (row, number) => .error (.unevenVector number path row.length first.length)
      | none => .ok ⟨first.length, (first :: rest).flatten⟩

def read (rows? : String → Option (List (List Single))) (files : Files) (path : String) :
    Except VectorFileError Vectors :=
  match files path with
  | none => .error (.unreadable path)
  | some text =>
    match rows? text with
    | none => .error (.malformed path)
    | some rows => ofRows path rows

def count (v : Vectors) : Nat := v.flat.length / v.dimension

def values (v : Vectors) : List Score := v.flat.map Single.value

end Vectors
end ExactNeighbors
