import Reactivity.Number.Shortest
import Reactivity.Number.Layout
import Reactivity.Text.Classes
import Reactivity.Text.Quote
import Reactivity.Text.Alphanumeric
import Reactivity.Text.Label
import Reactivity.Json.Basic
import Reactivity.Json.Reader
import Reactivity.Config
import Reactivity.Handle
import Reactivity.Value
import Reactivity.Fault
import Reactivity.Machine
import Reactivity.Path
import Reactivity.Collect
import Reactivity.Track
import Reactivity.Observe
import Reactivity.Watcher
import Reactivity.Schedule
import Reactivity.Sorting
import Reactivity.Write
import Reactivity.Scope
import Reactivity.Cell
import Reactivity.Render
import Reactivity.Script.Registry
import Reactivity.Script.Decode
import Reactivity.Script.Control
import Reactivity.Script.Containers
import Reactivity.Script.Scopes
import Reactivity.Script.Watchers
import Reactivity.Script.Ticks
import Reactivity.Script.Eval
import Reactivity.Script.Session
import Reactivity.Proofs.Triple
import Reactivity.Proofs.Frame
import Reactivity.Proofs.Queue
import Reactivity.Proofs.Host
import Reactivity.Proofs.Scheduler
import Reactivity.Proofs.Runaway
import Reactivity.Proofs.Pending
import Reactivity.Proofs.ListReads
import Reactivity.Proofs.SortSpec
import Reactivity.Proofs.SmallSort
import Reactivity.Proofs.SortOrder
import Reactivity.Proofs.Stable
import Reactivity.Proofs.Operations
import Reactivity.Proofs.Subscribed
import Reactivity.Proofs.Sessions
import Reactivity.Proofs.Subscriptions
import Reactivity.Proofs.ComputedCache
import Reactivity.Proofs.ChangeCallbacks
import Reactivity.Proofs.Observation
import Reactivity.Proofs.RootData
import Reactivity.Proofs.RootLedger
import Reactivity.Proofs.Context
import Reactivity.Proofs.DeepReads
import Reactivity.Proofs.DeepObservation
import Reactivity.Proofs.ObservedWrites
import Reactivity.Proofs.ListEdits
import Reactivity.Proofs.ObjectEdits
import Reactivity.Proofs.RenderLifecycle
import Reactivity.Proofs.CollectOnce
import Reactivity.Proofs.ObservationLaws
import Reactivity.Proofs.Dismantling
import Reactivity.Proofs.DestroyCascade
import Reactivity.Proofs.ErrorRouting
import Reactivity.Proofs.TickBridge
import Reactivity.Proofs.FaultDelivery
import Reactivity.Proofs.ReadAttribution
import Reactivity.Proofs.ScopeRegistry
import Reactivity.Proofs.Invalidation
import Reactivity.Proofs.CellBorrow
import Reactivity.Proofs.ScriptHost
