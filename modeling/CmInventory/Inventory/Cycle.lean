import CmInventory.Inventory.Selection
import CmInventory.Inventory.Transition

/-!
# Synchronization in the background

In a cycle a member works on one handle after the other until none is left that it has not visited. What
fails is left for a later cycle. While a member works on a handle it holds the marker of the handle, so
that no other member does the same work.

- A data cycle visits the ready handles of which the operational data are not in step, and stores the
  first member of what the plugin reads.
- A module cycle first advises the locked handles again that have waited long enough. Then it visits the
  advised handles: those of which the plugin knows the modules become ready, the others are locked.

A cycle is given a bound on the number of its visits. A bound larger than the number of stored handles is
never reached, since no handle is visited twice.
-/

namespace CmInventory

/-- What a cycle did. -/
structure CycleReport where
  synchronized : Nat
  skipped : Nat
  failed : Nat
  deriving DecidableEq, Repr

namespace CycleReport

def empty : CycleReport := ⟨0, 0, 0⟩

/-- The report after another visit. A handle that another member works on, or that wants no data, was
skipped. -/
def record (r : CycleReport) : Except InventoryError Unit → CycleReport
  | .ok () => { r with synchronized := r.synchronized + 1 }
  | .error (.alreadyProcessing _) | .error (.dataSyncDisabled _) => { r with skipped := r.skipped + 1 }
  | .error _ => { r with failed := r.failed + 1 }

end CycleReport

/-- A member of the inventory: the name under which it puts markers, how long they live, the base of the
waiting times of locked handles and the topic of its events. -/
structure Member where
  name : String
  markerLife : Interval
  retryBase : Interval
  topic : String

namespace Inventory

/-! ## Visits -/

/-- Does some work on a handle while holding its marker. -/
def whileMarked (m : Member) (kind : SyncKind) (id : HandleId) (work : Action Unit) :
    Program (Except InventoryError Unit) := do
  if ← Program.request (.mark kind id m.name m.markerLife) then
    let result ← work.run
    -- The marker goes whether the work succeeded or not.
    Program.request (.unmark kind id)
    return result
  else return .error (.alreadyProcessing id)

/-- Visits handles as long as `pick` finds one that was not visited, but at most `bound` times. -/
def visitAll (pick : List HandleId → Action (Option Handle))
    (visit : Handle → Program (Except InventoryError Unit)) :
    (bound : Nat) → (visited : List HandleId) → CycleReport → Program CycleReport
  | 0, _, report => return report
  | bound + 1, visited, report => do
      match ← (pick visited).run with
      | .ok (some h) =>
          let result ← visit h
          visitAll pick visit bound (h.id :: visited) (report.record result)
      -- A selection that fails ends the cycle; the next one starts afresh.
      | .ok none | .error _ => return report

/-! ## Operational data -/

/-- The resource that is read to synchronize operational data. -/
def rootResource : String := "/"

/-- The data to store of what a plugin read. -/
def dataOfReply (reply : PluginReply) : Except PluginError Json.Value := do
  let body ← reply.successBody
  match Json.decode .value body with
  | .error fault => .error (.invalidBody fault.message)
  | .ok value =>
      match value.firstMember? with
      | some data => .ok data
      | none => .error (.invalidBody "resource data has no top-level member")

/-- Reads the operational data of a handle and stores them. -/
def syncData (h : Handle) : Action Unit := do
  if h.status.dataSync then
    let reply ← Action.plugin (.read h rootResource .operational)
    let data ← Action.ofExcept ((dataOfReply reply).mapError .plugin)
    -- The data come before the status: a status in step implies that there are data.
    Action.store (.saveData h.id data)
    markSynchronized h.id
  else throw (.dataSyncDisabled h.id)

/-- A cycle of data synchronization. -/
def dataCycle (m : Member) (bound : Nat) : Program CycleReport :=
  visitAll pickUnsynchronized (fun h => whileMarked m .data h.id (syncData h)) bound [] .empty

/-! ## Modules -/

/-- Moves a handle, and fails if the move does. -/
def commit (topic : String) (snapshot : Handle) (target : Lifecycle) : Action Unit := do
  let result ← Action.lift (applyBatch topic [(snapshot, target)])
  match result.failed.getLast? with
  | some (_, e) => throw e
  | none => return ()

/-- A handle with the reason of another failure. -/
def withFailure (h : Handle) (e : PluginError) : Handle :=
  let reason := h.status.failureReason .moduleSyncFailed e.message
  { h with status := { h.status with lockReason := some reason } }

/-- Asks for the modules of a handle, stores them and moves the handle to ready. If the plugin fails, the
handle is locked. -/
def syncModules (topic : String) (h : Handle) : Action Unit := do
  match ← Action.lift (Program.plugin (.modules h)) with
  | .ok modules =>
      Action.store (.saveModules h.id modules)
      commit topic h .ready
  | .error e =>
      -- An error of the move itself takes precedence over that of the plugin.
      commit topic (withFailure h e) .locked
      throw (.plugin e)

/-- Advises the locked handles again that have waited long enough. Gives their number. -/
def readvise (m : Member) : Program Nat := do
  let now ← Program.now
  match ← (dueForRetry now m.retryBase).run with
  | .error _ => return 0
  | .ok handles =>
      let result ← applyBatch m.topic (handles.map fun h => (h, .advised))
      return result.committed.length

/-- A cycle of module synchronization. -/
def moduleCycle (m : Member) (bound : Nat) : Program CycleReport := do
  let _ ← readvise m
  visitAll pickAdvised (fun h => whileMarked m .modules h.id (syncModules m.topic h)) bound [] .empty

end Inventory

/-- A bound on the visits of a cycle that starts with the given store. -/
def Store.visitBound (s : Store) : Nat :=
  s.handles.size + 1

end CmInventory
