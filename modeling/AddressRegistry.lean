import AddressRegistry.Allocation.Indexes
import AddressRegistry.Allocation.Register
import AddressRegistry.Allocation.Registration
import AddressRegistry.Command.Basic
import AddressRegistry.Config.Basic
import AddressRegistry.Config.Document
import AddressRegistry.Config.Loading
import AddressRegistry.Config.Seeding
import AddressRegistry.Document.Basic
import AddressRegistry.Error
import AddressRegistry.Finite.SortedMap
import AddressRegistry.Gateway.Basic
import AddressRegistry.Gateway.Status
import AddressRegistry.Hash.XXHash64
import AddressRegistry.Json.Printer
import AddressRegistry.Json.Reader
import AddressRegistry.Main
import AddressRegistry.Network.Basic
import AddressRegistry.Network.Family
import AddressRegistry.Network.Parse
import AddressRegistry.Network.Printer
import AddressRegistry.Network.Syntax
import AddressRegistry.Proofs.Network.Nesting
import AddressRegistry.Queue.Basic
import AddressRegistry.Queue.Waiting
import AddressRegistry.Reconcile.Controller
import AddressRegistry.Reconcile.Effect
import AddressRegistry.Reconcile.Pass
import AddressRegistry.Reconcile.Round
import AddressRegistry.Resource.Document
import AddressRegistry.Resource.Kind
import AddressRegistry.Resource.Name
import AddressRegistry.Resource.Object
import AddressRegistry.Resource.Phase
import AddressRegistry.Retry.Ladder
import AddressRegistry.Route.BlockSearch
import AddressRegistry.Route.Index
import AddressRegistry.Route.Label
import AddressRegistry.Route.Strategy
import AddressRegistry.Service.Basic
import AddressRegistry.Service.Engine
import AddressRegistry.Service.Health
import AddressRegistry.Store.Access
import AddressRegistry.Store.Basic
import AddressRegistry.Text.Blank
import AddressRegistry.Text.Scan
import AddressRegistry.Toml.Moment
import AddressRegistry.Toml.Number
import AddressRegistry.Toml.Printer
import AddressRegistry.Toml.Quoted
import AddressRegistry.Toml.Reader
import AddressRegistry.Toml.Table
import AddressRegistry.Toml.Trivia
import AddressRegistry.Proofs.Route.Contents
import AddressRegistry.Proofs.Route.FreeBlock
import AddressRegistry.Proofs.Route.Runs
import AddressRegistry.Proofs.Route.Scan
import AddressRegistry.Proofs.Route.Search
import AddressRegistry.Proofs.Allocation.Dynamic
import AddressRegistry.Proofs.Route.Walk
import AddressRegistry.Proofs.Allocation.Registering
import AddressRegistry.Proofs.Allocation.Filling
import AddressRegistry.Proofs.Allocation.Ledger
import AddressRegistry.Proofs.Network.Reading
import AddressRegistry.Proofs.Network.RoundTrip
import AddressRegistry.Proofs.Allocation.Replay
import AddressRegistry.Proofs.Allocation.Apart
import AddressRegistry.Proofs.Allocation.Provenance
import AddressRegistry.Proofs.Store.Contents
import AddressRegistry.Proofs.Reconcile.Effect
import AddressRegistry.Proofs.Reconcile.Pass
import AddressRegistry.Proofs.Reconcile.History
import AddressRegistry.Proofs.Reconcile.OwnRoute
import AddressRegistry.Proofs.Reconcile.Ownership
import AddressRegistry.Proofs.Reconcile.Separation
import AddressRegistry.Proofs.Allocation.Repeat
import AddressRegistry.Proofs.Allocation.Release
import AddressRegistry.Proofs.Reconcile.Waking
import AddressRegistry.Proofs.Reconcile.Report
import AddressRegistry.Proofs.Reconcile.Repeat
import AddressRegistry.Proofs.Queue.Sound
import AddressRegistry.Proofs.Store.Writes
import AddressRegistry.Proofs.Reconcile.Frame
import AddressRegistry.Proofs.Reconcile.Retry
import AddressRegistry.Proofs.Reconcile.Holdings
import AddressRegistry.Proofs.Reconcile.OpenPools
import AddressRegistry.Proofs.Service.Quiescence
import AddressRegistry.Proofs.Reconcile.Stage
import AddressRegistry.Proofs.Reconcile.Lifecycle
import AddressRegistry.Proofs.Service.Crew
import AddressRegistry.Proofs.Service.Orphans
import AddressRegistry.Proofs.Gateway.Calls
import AddressRegistry.Proofs.Gateway.Leaks
import AddressRegistry.Proofs.Reconcile.Course
import AddressRegistry.Proofs.Reconcile.Phases
import AddressRegistry.Proofs.Reconcile.Entitlement
import AddressRegistry.Proofs.Reconcile.Legible
import AddressRegistry.Proofs.Reconcile.Convergence
import AddressRegistry.Proofs.Gateway.InPlace
import AddressRegistry.Proofs.Gateway.Restart
import AddressRegistry.Proofs.Gateway.Contract
import AddressRegistry.Proofs.Resource.Naming
import AddressRegistry.Proofs.Reconcile.FanOut
import AddressRegistry.Proofs.Queue.Rooms
import AddressRegistry.Proofs.Queue.Runs
import AddressRegistry.Proofs.Queue.Timers
import AddressRegistry.Proofs.Queue.Wakeups
import AddressRegistry.Proofs.Store.Steps
import AddressRegistry.Proofs.Store.Log
import AddressRegistry.Proofs.Store.Lifetime
import AddressRegistry.Proofs.Reconcile.Isolation
import AddressRegistry.Proofs.Document.Reading
import AddressRegistry.Proofs.Resource.RoundTrip
import AddressRegistry.Proofs.Config.RoundTrip
import AddressRegistry.Proofs.Resource.Composing
import AddressRegistry.Proofs.Reconcile.Texts
import AddressRegistry.Proofs.Route.Cycle
import AddressRegistry.Proofs.Reconcile.PoolRoute
import AddressRegistry.Proofs.Reconcile.Unrecorded
import AddressRegistry.Proofs.Retry.Delays
import AddressRegistry.Proofs.Reconcile.Incidents
import AddressRegistry.Proofs.Reconcile.Removal
import AddressRegistry.Proofs.Reconcile.Rungs
import AddressRegistry.Proofs.Config.Seeding
import AddressRegistry.Proofs.Route.Lineage
import AddressRegistry.Proofs.Route.Bounds
