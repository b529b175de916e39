import CmInventory.Inventory.Error

/-!
# Selecting handles for synchronization

Which handles the synchronization in the background works on next. All members look into the same store;
a handle is drawn at random, so that they do not all turn to the same one.
-/

namespace CmInventory
namespace Inventory

/-- An advised handle other than the ones in `visited`. -/
def pickAdvised (visited : List HandleId) : Action (Option Handle) := do
  let handles ← Action.store (.byLifecycle .advised)
  let drawn ← Action.lift (Program.draw (handles.filter fun h => !visited.contains h.id))
  return drawn.map (·.1)

/-- The first of some handles, in a random order, that is ready when it is read again. `bound` is at least
the number of handles. -/
def firstReady : (bound : Nat) → List HandleId → Action (Option Handle)
  | 0, _ => return none
  | bound + 1, ids => do
      match ← Action.lift (Program.draw ids) with
      | none => return none
      | some (id, others) =>
          match ← Action.lift (Program.store (.get id)) with
          | .ok h => if h.lifecycle = .ready then return some h else firstReady bound others
          -- A handle that was deleted since the selection is passed over.
          | .error (.notFound _) => firstReady bound others
          | .error e => throw (.ofStore e)

/-- A ready handle, other than the ones in `visited`, of which the operational data are not in step.
Whether it is ready is looked up after it was drawn, since another member may have moved it. -/
def pickUnsynchronized (visited : List HandleId) : Action (Option Handle) := do
  let handles ← Action.store (.bySyncState .unsynchronized)
  let ids := (handles.map (·.id)).filter fun id => !visited.contains id
  firstReady ids.length ids

/-- The handles that are locked because they misbehaved. -/
def misbehaving : Action (List Handle) :=
  Action.store (.byLockCategory .misbehaving)

/-- The locked handles that may be tried again. -/
def dueForRetry (now : Instant) (base : Interval) : Action (List Handle) := do
  let failed ← Action.store (.byLockCategory .moduleSyncFailed)
  let failedUpgrades ← Action.store (.byLockCategory .moduleUpgradeFailed)
  return (failed ++ failedUpgrades).filter fun h => h.status.isReadyForRetry now base

end Inventory
end CmInventory
