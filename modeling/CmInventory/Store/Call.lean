import CmInventory.Store.Basic

/-!
# Calls of the store

The operations of the store as data: what is asked for (`StoreCall`), the type of the answer
(`StoreCall.Answer`) and what a call does (`Store.perform`). A call is one atomic step of whoever makes
it.
-/

namespace CmInventory

/-- A call of the store. -/
inductive StoreCall
  | get (id : HandleId)
  | getMany (ids : List HandleId)
  | byLifecycle (state : Lifecycle)
  | bySyncState (state : SyncState)
  | byLockCategory (category : LockCategory)
  | status (id : HandleId)
  | insert (handles : List Handle)
  | save (handle : Handle)
  | saveStatus (id : HandleId) (status : HandleStatus)
  /-- Writes the status only while the handle is in the expected state. -/
  | saveStatusIf (id : HandleId) (expected : Lifecycle) (status : HandleStatus)
  | deleteAll (ids : List HandleId)
  | delete (id : HandleId)
  | countByLifecycle
  | saveData (id : HandleId) (data : Json.Value)
  | getData (id : HandleId)
  | deleteData (id : HandleId)
  | saveModules (id : HandleId) (modules : List ModuleReference)
  | getModules (id : HandleId)
  | saveAnswer (answer : PluginAnswer)
  | statuses (clientId subscriptionName : String)

/-- The type of what a call gives if it does not fail. -/
abbrev StoreCall.Answer : StoreCall → Type
  | .get _ => Handle
  | .getMany _ | .byLifecycle _ | .bySyncState _ | .byLockCategory _ => List Handle
  | .status _ => HandleStatus
  | .saveStatusIf .. => Bool
  | .countByLifecycle => List (Lifecycle × Nat)
  | .getData _ => Option Json.Value
  | .getModules _ => List ModuleReference
  | .statuses .. => List DeviceStatus
  | .insert _ | .save _ | .saveStatus .. | .deleteAll _ | .delete _ | .saveData .. | .deleteData _
  | .saveModules .. | .saveAnswer _ => Unit

namespace Store

/-- The store after a change that may have failed. -/
def settle (s : Store) : Except StoreError Store → Except StoreError Unit × Store
  | .ok s => (.ok (), s)
  | .error e => (.error e, s)

/-- What a call gives, and the store after it. -/
def perform (s : Store) : (c : StoreCall) → Except StoreError c.Answer × Store
  | .get id => (s.get id, s)
  | .getMany ids => (s.getMany ids, s)
  | .byLifecycle state => (s.byLifecycle state, s)
  | .bySyncState state => (s.bySyncState state, s)
  | .byLockCategory category => (s.byLockCategory category, s)
  | .status id => (s.status id, s)
  | .insert handles =>
      match s.insert handles with
      | ([], s) => (.ok (), s)
      | (present, s) => (.error (.alreadyExists present), s)
  | .save h => s.settle (s.save h)
  | .saveStatus id status => s.settle ((s.replaceStatus id none status).map (·.2))
  | .saveStatusIf id expected status =>
      match s.replaceStatus id (some expected) status with
      | .ok (written, s) => (.ok written, s)
      | .error e => (.error e, s)
  | .deleteAll ids => s.settle (s.deleteAll ids)
  | .delete id => s.settle (s.delete id)
  | .countByLifecycle => (s.countByLifecycle, s)
  | .saveData id data => (.ok (), s.saveData id data)
  | .getData id => (s.getData id, s)
  | .deleteData id => (.ok (), s.deleteData id)
  | .saveModules id modules => (.ok (), s.saveModules id modules)
  | .getModules id => (.ok (s.getModules id), s)
  | .saveAnswer answer => (.ok (), s.saveAnswer answer)
  | .statuses clientId subscriptionName => (s.statusesOf clientId subscriptionName, s)

end Store
end CmInventory
