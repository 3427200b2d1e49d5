import ExactNeighbors.Command
import ExactNeighbors.Json.Printer

/-!
# Reports

The results of commands as documents. The order of members is that in which they are written.
-/
namespace ExactNeighbors

def Hit.toJson (h : Hit) : Json :=
  .object [("label", .nat h.label), ("distance", .single h.distance)]

def Stats.toJson (s : Stats) : Json :=
  .object [("live", .nat s.live), ("physical", .nat s.physical),
    ("pending_removals", .nat s.pendingRemovals), ("dimension", .nat s.dimension),
    ("code_size", .nat s.codeSize), ("metric", .text s.metric.text)]

def SlotEntry.toJson (e : SlotEntry) : Json :=
  .object [("slot", .nat e.slot), ("label", .nat e.label), ("deleted", .bool e.deleted)]

def RecycleReport.toJson (r : RecycleReport) : Json :=
  .object [("before", .list (r.before.map SlotEntry.toJson)),
    ("free_slots", .list (r.freeSlots.map Json.nat)),
    ("inserted", .list (r.inserted.map Json.nat)),
    ("after", .list (r.after.map SlotEntry.toJson)), ("stats", r.stats.toJson)]

def hitLists (found : List (List Hit)) : Json :=
  .list (found.map fun hits => .list (hits.map Hit.toJson))

end ExactNeighbors
