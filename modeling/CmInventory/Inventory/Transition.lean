import CmInventory.Inventory.Error

/-!
# Moves between lifecycle states

All changes of the status of handles. A batch is applied handle by handle: every move is written by one
call of the store, which takes effect only while the handle is still in the state from which the move
starts; what fails is reported for the handle and does not touch the rest of the batch. Each move that
was committed is announced by an event.

Main definitions:

- `Inventory.register`: stores new handles as advised;
- `Inventory.applyBatch`: moves handles to other states;
- `Inventory.markSynchronized`, `Inventory.setDataSync`: changes of a ready handle that leave it ready.
-/

namespace CmInventory

/-- What became of the handles of a batch. -/
structure BatchResult where
  /-- The move was written and announced. -/
  committed : List HandleId
  /-- The handle was in the requested state already. -/
  unchanged : List HandleId
  failed : List (HandleId × InventoryError)
  deriving DecidableEq, Repr

namespace BatchResult

def empty : BatchResult := ⟨[], [], []⟩

/-- The result of one batch followed by another. -/
def append (a b : BatchResult) : BatchResult :=
  ⟨a.committed ++ b.committed, a.unchanged ++ b.unchanged, a.failed ++ b.failed⟩

def isSuccess (r : BatchResult) : Bool :=
  r.failed.isEmpty

/-- The first failure of a handle. -/
def error? (r : BatchResult) (id : HandleId) : Option InventoryError :=
  (r.failed.find? fun f => f.1 = id).map (·.2)

/-- Whether a handle got to the requested state or was in it. -/
def reached (r : BatchResult) (id : HandleId) : Bool :=
  r.committed.contains id || r.unchanged.contains id

end BatchResult

namespace Inventory

/-! ## Announcing -/

/-- Announces the move of a handle. -/
def announce (topic : String) (id : HandleId) (old : Option Lifecycle) (new : Lifecycle) :
    Program Unit := do
  let eventId ← Program.request .newEventId
  let timestamp ← Program.now
  Program.request (.publish ⟨topic, id.text, .lifecycle ⟨eventId, id, old, new, timestamp⟩⟩)

/-! ## New handles -/

/-- The handles that are advised, with the time set and without a reason of a lock, and the failures of
the others. -/
def accept : List Handle → Program (List Handle × List (HandleId × InventoryError))
  | [] => return ([], [])
  | h :: rest => do
      if h.lifecycle = .advised then
        let now ← Program.now
        let (admitted, failed) ← accept rest
        return ({ h with status := { h.status with lockReason := none, updatedAt := now } } :: admitted,
          failed)
      else
        let (admitted, failed) ← accept rest
        return (admitted, (h.id, .illegalTransition h.id h.lifecycle .advised) :: failed)

/-- Announces the handles that are not among those stored before, and reports on all. -/
def announceNew (topic : String) (present : List HandleId) : List Handle → Program BatchResult
  | [] => return .empty
  | h :: rest => do
      if present.contains h.id then
        let more ← announceNew topic present rest
        return BatchResult.append ⟨[], [], [(h.id, .alreadyExists h.id)]⟩ more
      else
        announce topic h.id none .advised
        let more ← announceNew topic present rest
        return BatchResult.append ⟨[h.id], [], []⟩ more

/-- Stores new handles as advised. The ids under which there is a handle fail; the other handles of the
batch are stored. -/
def register (topic : String) (handles : List Handle) : Program BatchResult := do
  let (admitted, rejected) ← accept handles
  let rejections : BatchResult := ⟨[], [], rejected⟩
  match ← Program.store (.insert admitted) with
  | .ok () => return rejections.append (← announceNew topic [] admitted)
  -- The batch was not refused: the handles that are not named were stored.
  | .error (.alreadyExists present) =>
      return rejections.append (← announceNew topic present admitted)
  | .error e => return rejections.append ⟨[], [], admitted.map fun h => (h.id, .batchFailed e)⟩

/-! ## Moves -/

/-- Writes a status unless the handle has left the state that it was read in. -/
def saveFrom (id : HandleId) (old : Lifecycle) (status : HandleStatus) : Action Unit := do
  if ← Action.store (.saveStatusIf id old status) then return ()
  else throw (.concurrentModification id old)

/-- The reason that a handle has after a move. To be locked it takes the reason of the snapshot. A locked
handle that is advised again keeps its reason, so that the count of attempts goes on. -/
def nextReason (snapshot : Handle) (current : HandleStatus) (target : Lifecycle) :
    Except InventoryError (Option LockReason) :=
  match target with
  | .locked =>
      match snapshot.status.lockReason with
      | some reason => .ok (some reason)
      | none => .error (.missingLockReason snapshot.id)
  | .advised => .ok (if current.lifecycle = .locked then current.lockReason else none)
  | _ => .ok none

/-- The status after a move. A handle that becomes ready starts to synchronize its data anew. -/
def nextStatus (current : HandleStatus) (target : Lifecycle) (reason : Option LockReason)
    (now : Instant) : HandleStatus where
  lifecycle := target
  lockReason := reason
  updatedAt := now
  dataSync := current.dataSync
  operational := if target = .ready then .initial current.dataSync else current.operational

/-- The end of a handle whose record is gone: only the snapshot tells where it was. -/
def completeDeletion (snapshot : Handle) : Except InventoryError Lifecycle :=
  if snapshot.lifecycle.canMoveTo .deleted then .ok snapshot.lifecycle
  else .error (.illegalTransition snapshot.id snapshot.lifecycle .deleted)

/-- Moves the handle of a snapshot. Gives the state it was in, or none if it stays there. -/
def move (snapshot : Handle) (target : Lifecycle) : Action (Option Lifecycle) := do
  if target = .deleted then
    -- The record is gone, so there is nothing left to read or to write.
    let old ← Action.ofExcept (completeDeletion snapshot)
    return some old
  else
    let current ← Action.store (.status snapshot.id)
    if current.lifecycle = target then return none
    else if current.lifecycle.canMoveTo target then
      let reason ← Action.ofExcept (nextReason snapshot current target)
      let now ← Action.lift Program.now
      -- What is written was computed from `current`, so the write must not hit a later state.
      saveFrom snapshot.id current.lifecycle (nextStatus current target reason now)
      return some current.lifecycle
    else throw (.illegalTransition snapshot.id current.lifecycle target)

/-- Moves the handle of a snapshot and announces it. -/
def applyEntry (topic : String) (snapshot : Handle) (target : Lifecycle) : Program BatchResult := do
  match ← (move snapshot target).run with
  | .ok (some old) =>
      announce topic snapshot.id (some old) target
      return ⟨[snapshot.id], [], []⟩
  | .ok none => return ⟨[], [snapshot.id], []⟩
  | .error e => return ⟨[], [], [(snapshot.id, e)]⟩

/-- Moves handles, each from the state it is in to the state beside it. The handles of the batch are the
caller's snapshots. -/
def applyBatch (topic : String) : List (Handle × Lifecycle) → Program BatchResult
  | [] => return .empty
  | (snapshot, target) :: rest => do
      let here ← applyEntry topic snapshot target
      let more ← applyBatch topic rest
      return here.append more

/-! ## Changes of ready handles -/

/-- Notes that the operational data of a ready handle are in step. -/
def markSynchronized (id : HandleId) : Action Unit := do
  let current ← Action.store (.status id)
  if current.lifecycle = .ready then
    let now ← Action.lift Program.now
    saveFrom id .ready (current.markSynchronized now)
  else throw (.invalidState id current.lifecycle)

/-- Switches the synchronization of the operational data of a ready handle on or off. What was stored of
data that are in step is dropped when it is switched off. -/
def setDataSync (id : HandleId) (enabled : Bool) : Action Unit := do
  let current ← Action.store (.status id)
  if current.dataSync = enabled then return ()
  else if current.lifecycle = .ready then
    let now ← Action.lift Program.now
    saveFrom id .ready (current.setDataSync enabled now)
    -- The status is written first; data are dropped only if they were in step before.
    if !enabled && current.syncState = .synchronized then Action.store (.deleteData id)
    else return ()
  else throw (.invalidState id current.lifecycle)

end Inventory
end CmInventory
