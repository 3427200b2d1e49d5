import ExactNeighbors.InputError
import ExactNeighbors.Memory
import ExactNeighbors.Metric.Text
import ExactNeighbors.Packing

/-!
# Why an operation is refused

Every refusal is a cause; `IndexError.message` puts it into words.
-/
namespace ExactNeighbors

inductive PrimaryOperation where
  | rangeSearch
  | subsetScoring
deriving DecidableEq, Repr

namespace PrimaryOperation

def name : PrimaryOperation → String
  | .rangeSearch => "range_search"
  | .subsetScoring => "compute_distance_subset"

end PrimaryOperation

inductive IndexError where
  | notTrained
  | invalidK (k : Nat)
  | dimensionMismatch (expected actual : Nat)
  | unsupportedMetric (metric : Metric) (operation : PrimaryOperation)
  | selectorNotSupported (metric : Metric)
  | labelNotFound (label : Nat)
  | alreadyDeleted (label slot : Nat)
  | outOfBounds (start count total : Nat)
  | queryNotSet
  | capacityExhausted (slots : Nat) (fault : RoomFault)
  | packedExhausted (slots : Nat) (fault : RoomFault)
  | candidateCount (expected actual : Nat)
  | packing (cause : PackError)
  | settings (cause : InputError)
  /-- The program stops: a position past the end of a buffer, a size past the end of the 64-bit
  range in a build that checks for it, or a buffer longer than any buffer may be. -/
  | overrun

namespace IndexError

def message : IndexError → String
  | .notTrained => "Index is not trained"
  | .invalidK k => "Invalid k: " ++ toString k
  | .dimensionMismatch expected actual =>
    "Dimension mismatch: expected " ++ toString expected ++ ", got " ++ toString actual
  | .unsupportedMetric metric operation =>
    "Metric " ++ metric.text ++ " not supported for " ++ operation.name
  | .selectorNotSupported metric => "Selector not supported with metric " ++ metric.text
  | .labelNotFound label => "Label not found: " ++ toString label
  | .alreadyDeleted label slot =>
    "Label " ++ toString label ++ " already deleted (slot " ++ toString slot ++ ")"
  | .outOfBounds start count total =>
    "Slot range " ++ toString start ++ ".." ++ toString start ++ "+" ++ toString count ++
      " out of bounds (total " ++ toString total ++ ")"
  | .queryNotSet => "No query bound to distance computer"
  | .capacityExhausted slots fault => fault.told (toString slots ++ " slots")
  | .packedExhausted slots fault => fault.told (toString slots ++ " packed slots")
  | .candidateCount expected actual =>
    "Candidate count mismatch: expected " ++ toString expected ++ ", got " ++ toString actual
  | .packing cause => "Pack error: " ++ cause.message
  | .settings cause => cause.message
  | .overrun => "Position or size out of range"

end IndexError
end ExactNeighbors
