import CmInventory.Config
import CmInventory.Coordination.Cache
import CmInventory.Event.Basic
import CmInventory.Inventory.Consolidation
import CmInventory.Inventory.Cycle
import CmInventory.Inventory.Registrar
import CmInventory.Main
import CmInventory.Plugin.Client
import CmInventory.Program.World
import CmInventory.Rehearsal.Timeouts
import CmInventory.Registration.Request
import CmInventory.Registration.Response
import CmInventory.Service.Basic
import CmInventory.Store.Call
import CmInventory.Proofs.Json.ReadBack
import CmInventory.Proofs.Time.ReadBack
import CmInventory.Proofs.Handle.ReadBack
import CmInventory.Proofs.Store.Records
import CmInventory.Proofs.Inventory.Lives
import CmInventory.Proofs.Program.Ensures
import CmInventory.Proofs.Inventory.Announced
import CmInventory.Proofs.Inventory.Registration
import CmInventory.Proofs.Inventory.Cycles
import CmInventory.Proofs.Inventory.History
import CmInventory.Proofs.Program.Interleaving
import CmInventory.Proofs.Program.Asks
import CmInventory.Proofs.Inventory.Demands
import CmInventory.Proofs.Inventory.Operations
import CmInventory.Proofs.Inventory.AtWork
import CmInventory.Proofs.Inventory.SideBySide
import CmInventory.Proofs.Inventory.StaleUpdate
import CmInventory.Proofs.Inventory.Changes
import CmInventory.Proofs.Inventory.Accesses
import CmInventory.Proofs.Inventory.Overlap
import CmInventory.Proofs.Coordination.Awaited
import CmInventory.Proofs.Coordination.Markers
import CmInventory.Proofs.Program.Recorded
import CmInventory.Proofs.Consolidation.Rules
import CmInventory.Proofs.Consolidation.Calls
import CmInventory.Proofs.Consolidation.Outcomes
import CmInventory.Proofs.Consolidation.Independence
import CmInventory.Proofs.Consolidation.Runs
import CmInventory.Proofs.Service.ReadBack
import CmInventory.Proofs.Service.Inputs
import CmInventory.Proofs.Service.Keywise
import CmInventory.Proofs.Service.Chronicle
import CmInventory.Proofs.Service.Overtaken
import CmInventory.Proofs.Service.Deadline
import CmInventory.Proofs.Inventory.Exclusion
import CmInventory.Proofs.Inventory.Marking
import CmInventory.Proofs.Inventory.Removal
import CmInventory.Proofs.Inventory.Singly
import CmInventory.Proofs.Inventory.Traces
import CmInventory.Proofs.Store.Selections
import CmInventory.Proofs.Inventory.Picks
import CmInventory.Proofs.Inventory.SwitchedOff
import CmInventory.Proofs.Inventory.KeptData
import CmInventory.Proofs.Inventory.Tales
import CmInventory.Proofs.Inventory.Failures
import CmInventory.Proofs.Inventory.Retries
import CmInventory.Proofs.Program.Courses
import CmInventory.Proofs.Inventory.Views
import CmInventory.Proofs.Inventory.Visits
import CmInventory.Proofs.Inventory.Rounds
import CmInventory.Proofs.Inventory.AnyOrder
import CmInventory.Proofs.Store.HandleMap
import CmInventory.Proofs.Registration.ReadBack
import CmInventory.Proofs.Event.ReadBack
import CmInventory.Proofs.Coordination.Expiry
import CmInventory.Proofs.Consolidation.Failures
import CmInventory.Proofs.Text.ByteOrder
import CmInventory.Proofs.Store.Latest
import CmInventory.Proofs.Consolidation.Received
import CmInventory.Proofs.Consolidation.Orders
import CmInventory.Proofs.Inventory.CreatedAgain
import CmInventory.Proofs.Inventory.NewHandles
import CmInventory.Proofs.Inventory.Creation
import CmInventory.Proofs.Inventory.Batches
import CmInventory.Proofs.Program.Delays
import CmInventory.Proofs.Inventory.Tidy
import CmInventory.Proofs.Inventory.Phases
import CmInventory.Proofs.Consolidation.ForwardedAgain
import CmInventory.Proofs.Store.Deletions
import CmInventory.Proofs.Inventory.SwitchRetries
import CmInventory.Proofs.Inventory.PropertyUpdates
import CmInventory.Proofs.Json.AnyValue
import CmInventory.Proofs.Inventory.DataAttempts
import CmInventory.Proofs.Handle.ReasonText
import CmInventory.Proofs.Time.Elapsed
import CmInventory.Proofs.Handle.Waiting
import CmInventory.Proofs.Inventory.RetryCandidates
import CmInventory.Proofs.Json.Nesting
import CmInventory.Proofs.Store.Arranged
import CmInventory.Proofs.Store.LastSaved
import CmInventory.Proofs.Plugin.Services
import CmInventory.Proofs.Inventory.Services
