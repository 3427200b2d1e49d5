import ExactNeighbors.Main
import ExactNeighbors.Store.Room
import ExactNeighbors.Store.Table
import ExactNeighbors.Index.Subset
import ExactNeighbors.Settings.Document
import ExactNeighbors.Proofs.Bitmap
import ExactNeighbors.Proofs.Rows
import ExactNeighbors.Proofs.Store.Coherent
import ExactNeighbors.Proofs.Store.Insert
import ExactNeighbors.Proofs.Store.Delete
import ExactNeighbors.Proofs.Store.Run
import ExactNeighbors.Proofs.Store.Seats
import ExactNeighbors.Proofs.Store.Recycling
import ExactNeighbors.Proofs.Store.AllOrNothing
import ExactNeighbors.Proofs.Store.Moved
import ExactNeighbors.Proofs.Store.Lifecycle
import ExactNeighbors.Proofs.Store.Contents
import ExactNeighbors.Proofs.Number.Key
import ExactNeighbors.Proofs.Ranking
import ExactNeighbors.Proofs.Ranking.Threshold
import ExactNeighbors.Proofs.Computer
import ExactNeighbors.Proofs.Index.Reachable
import ExactNeighbors.Proofs.Index.Scan
import ExactNeighbors.Proofs.Index.Search
import ExactNeighbors.Proofs.Number.Sum
import ExactNeighbors.Proofs.Store.Table
import ExactNeighbors.Proofs.Index.Sorting
import ExactNeighbors.Proofs.Index.Range
import ExactNeighbors.Proofs.Store.Rebuild
import ExactNeighbors.Proofs.Store.Batches
import ExactNeighbors.Proofs.Index.Visible
import ExactNeighbors.Proofs.Index.Restriction
import ExactNeighbors.Proofs.Store.Packed
import ExactNeighbors.Proofs.Store.InRange
import ExactNeighbors.Proofs.Distance.Lanes
import ExactNeighbors.Proofs.Computer.History
import ExactNeighbors.Proofs.Index.Lanes
import ExactNeighbors.Proofs.Index.Hits
import ExactNeighbors.Proofs.Index.Subset
import ExactNeighbors.Proofs.Index.SubsetScores
import ExactNeighbors.Proofs.Index.Agreement
import ExactNeighbors.Proofs.Index.Bystanders
import ExactNeighbors.Proofs.Index.InRange
import ExactNeighbors.Proofs.VectorFile
import ExactNeighbors.Proofs.Index.Loaded
import ExactNeighbors.Proofs.Command
import ExactNeighbors.Proofs.Index.Queries
import ExactNeighbors.Proofs.Packing
import ExactNeighbors.Proofs.Store.Ranges
import ExactNeighbors.Proofs.Command.Recycling
import ExactNeighbors.Proofs.Selector
import ExactNeighbors.Proofs.Number.Nearest
import ExactNeighbors.Proofs.Number.Canonical
import ExactNeighbors.Proofs.Number.Commute
import ExactNeighbors.Proofs.Distance.Symmetric
import ExactNeighbors.Proofs.Number.Digits
import ExactNeighbors.Proofs.Number.Shortest
import ExactNeighbors.Proofs.Number.ReadBack
import ExactNeighbors.Proofs.Text.Spelling
import ExactNeighbors.Proofs.Metric.Text
import ExactNeighbors.Proofs.Settings.Document
import ExactNeighbors.Proofs.Settings.Standard
import ExactNeighbors.Proofs.Settings.Load
import ExactNeighbors.Proofs.Bitmap.Changes
import ExactNeighbors.Proofs.Distance.ByIndex
import ExactNeighbors.Proofs.Index.Sizes
