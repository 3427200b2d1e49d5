/-!
# Files as the program sees them

The text behind each path, where there is one that can be read. A path is a list of steps between
slashes; empty steps and `.` lead nowhere.
-/
namespace ExactNeighbors

abbrev Files := String → Option String

namespace Files

def prepend (c : Char) : List (List Char) → List (List Char)
  | [] => [[c]]
  | step :: steps => if c = '/' then [] :: step :: steps else (c :: step) :: steps

def steps (path : String) : List String := (path.toList.foldr prepend [[]]).map String.ofList

def leadsNowhere (step : String) : Bool := step = "" || step = "."

/-- The name behind a path inside the working directory. A file cannot be stepped into, so the
last step of its path is a name. -/
def localName? (path : String) : Option String :=
  if path.toList.head? = some '/' ∨ (steps path).getLast?.all leadsNowhere then none
  else some ("/".intercalate ((steps path).filter (!leadsNowhere ·)))

def ofList (entries : List (String × String)) : Files := fun path =>
  (localName? path).bind fun name => entries.lookup name

/-- A path up to its last step that is a name, if that is not the one for the directory above. -/
def trimmed? (path : String) : Option String :=
  match (steps path).reverse.dropWhile leadsNowhere with
  | [] => none
  | last :: earlier =>
    if last = ".." then none else some ("/".intercalate (last :: earlier).reverse)

/-- The extension of a path: what follows the last point of its last step, if that step has
anything before the point. -/
def extension? (path : String) : Option String :=
  let step := (path.toList.reverse.takeWhile (· ≠ '/'))
  let extension := step.takeWhile (· ≠ '.')
  if extension.length + 1 < step.length then some (String.ofList extension.reverse) else none

end Files
end ExactNeighbors
