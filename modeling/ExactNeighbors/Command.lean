import ExactNeighbors.Index.Search
import ExactNeighbors.Settings.Load
import ExactNeighbors.VectorFile

/-!
# Commands

Every command builds an index from a vector file and deletes labels from it. Then it searches,
lists what lies within a radius, inserts vectors and reports which slots were reused, or counts.
-/
namespace ExactNeighbors

inductive Purpose where
  | create
  | load
  | delete
  | search
  | rangeSearch
  | insert
  | count
deriving DecidableEq, Repr

namespace Purpose

def failure : Purpose → String
  | .create => "Failed to create index"
  | .load => "Failed to add vectors"
  | .delete => "Failed to delete labels"
  | .search => "Search failed"
  | .rangeSearch => "Range search failed"
  | .insert => "Failed to insert vectors"
  | .count => "Failed to count vectors"

end Purpose

inductive CommandError where
  | settings (cause : LoadError)
  | vectors (cause : VectorFileError)
  | index (purpose : Purpose) (cause : IndexError)
  | queryDimension (given expected : Nat)
  | insertDimension (given expected : Nat)

namespace CommandError

/-- What went wrong, then why. The causes of unreadable settings are not put into words. -/
def messages : CommandError → List String
  | .settings (.input cause) => ["Failed to load configuration", cause.message]
  | .settings _ => ["Failed to load configuration"]
  | .vectors cause => [cause.message]
  | .index purpose cause => [purpose.failure, cause.message]
  | .queryDimension given expected =>
    ["Queries have dimension " ++ toString given ++ ", index has " ++ toString expected]
  | .insertDimension given expected =>
    ["Inserted vectors have dimension " ++ toString given ++ ", index has " ++ toString expected]

end CommandError

structure Host where
  memory : Memory
  /-- The rows in the text of a vector file. -/
  rows? : String → Option (List (List Single))

def Host.standard : Host where
  memory := .host
  rows? := Vectors.rowsOfText?

structure BuildOptions where
  data : String
  metric? : Option Metric := none
  delete : List Nat := []
  includeTombstones : Bool := false

structure SlotEntry where
  slot : Nat
  label : Nat
  deleted : Bool
deriving DecidableEq, Repr

structure RecycleReport where
  before : List SlotEntry
  freeSlots : List Nat
  inserted : List Nat
  after : List SlotEntry
  stats : Stats

namespace Command

variable (host : Host) (files : Files)

def readVectors (path : String) : Except CommandError Vectors :=
  (Vectors.read host.rows? files path).mapError .vectors

def during {α : Type} (purpose : Purpose) (r : Except IndexError α) : Except CommandError α :=
  r.mapError (.index purpose)

/-- The settings of the index for `count` vectors of the given dimension: options override, and
there is room for all vectors. -/
def effective (settings : Settings) (options : BuildOptions) (dimension count : Nat) : Settings :=
  { settings with
    dimension
    metric := options.metric?.getD settings.metric
    excludesTombstones := settings.excludesTombstones && !options.includeTombstones
    initialCapacity := max settings.initialCapacity count }

def build (settings : Settings) (options : BuildOptions) :
    Except CommandError Index := do
  let data ← readVectors host files options.data
  let chosen := effective settings options data.dimension data.count
  let empty ← during .create (Index.ofSettings host.memory chosen)
  let (_, full) ← during .load (empty.add data.flat)
  if options.delete.isEmpty then return full
  let (_, index) ← during .delete (full.markDeleted options.delete)
  return index

def readQueries (index : Index) (path : String) :
    Except CommandError (List Score) := do
  let queries ← readVectors host files path
  if queries.dimension ≠ index.dimension then
    throw (.queryDimension queries.dimension index.dimension)
  return queries.values

def search (settings : Settings) (options : BuildOptions) (queries : String)
    (k : Nat) : Except CommandError (List (List Hit)) := do
  let index ← build host files settings options
  let queries ← readQueries host files index queries
  during .search (index.search queries k none)

def range (settings : Settings) (options : BuildOptions) (queries : String)
    (radius : Score) : Except CommandError (List (List Hit)) := do
  let index ← build host files settings options
  let queries ← readQueries host files index queries
  during .rangeSearch (index.rangeSearch queries radius none)

def slotTable (index : Index) : List SlotEntry :=
  (List.range index.store.physical).filterMap fun slot =>
    (index.store.labelOf? slot).map fun label => ⟨slot, label, index.store.isDeleted slot⟩

/-- Inserts the vectors of a file and reports the slots before and after. -/
def recycle (settings : Settings) (options : BuildOptions) (insert : String) :
    Except CommandError RecycleReport := do
  let index ← build host files settings options
  let fresh ← readVectors host files insert
  if fresh.dimension ≠ index.dimension then
    throw (.insertDimension fresh.dimension index.dimension)
  let (inserted, after) ← during .insert (index.add fresh.flat)
  return {
    before := slotTable index
    freeSlots := index.store.free.members
    inserted
    after := slotTable after
    stats := ← during .count after.stats }

def stats (settings : Settings) (options : BuildOptions) :
    Except CommandError Stats := do
  during .count (← build host files settings options).stats

end Command
end ExactNeighbors
