import CmInventory.Handle.LockReason
import CmInventory.Time.Interval
import CmInventory.Time.Notation

/-!
# The status of a handle

The lifecycle state of a handle together with the reason of a lock, the time of the last change,
whether operational data are to be kept in step, and how far they are.

`isReadyForRetry` says when a locked handle may be tried again: a failed attempt with number `n` waits
`base · 2 ^ min n 16` from the time it was recorded.
-/

namespace CmInventory

/-- How far the stored operational data of a handle are in step with the device. -/
inductive SyncState
  | noneRequested
  | unsynchronized
  | synchronized
  deriving DecidableEq, Repr, Inhabited

namespace SyncState

def all : List SyncState := [.noneRequested, .unsynchronized, .synchronized]

/-- The name under which a sync state is stored and published. -/
def name : SyncState → String
  | .noneRequested => "NONE_REQUESTED"
  | .unsynchronized => "UNSYNCHRONIZED"
  | .synchronized => "SYNCHRONIZED"

def ofName? (name : String) : Option SyncState :=
  all.find? fun s => s.name = name

theorem ofName?_name (s : SyncState) : ofName? s.name = some s := by
  cases s <;> decide

/-- Where synchronization starts, depending on whether it is wanted. -/
def initial (wanted : Bool) : SyncState :=
  if wanted then .unsynchronized else .noneRequested

def toJson (s : SyncState) : Json.Value :=
  .text s.name

def decoder : Json.Decoder SyncState :=
  Json.Decoder.enumeration ofName?

end SyncState

/-- The operational datastore of a handle: its sync state and when it was last in step. -/
structure OperationalStore where
  syncState : SyncState
  lastSync : Option Instant
  deriving DecidableEq, Inhabited

namespace OperationalStore

/-- A datastore that nothing was requested for. -/
def unrequested : OperationalStore := ⟨.noneRequested, none⟩

/-- The datastore at the start, depending on whether synchronization is wanted. -/
def initial (wanted : Bool) : OperationalStore := ⟨.initial wanted, none⟩

def timeToJson : Option Instant → Json.Value
  | none => .null
  | some t => t.toJson

def toJson (o : OperationalStore) : Json.Value :=
  .object [("sync_state", o.syncState.toJson), ("last_sync_time", timeToJson o.lastSync)]

def decoder : Json.Decoder OperationalStore := .record <|
  OperationalStore.mk <$> .required "sync_state" SyncState.decoder
    <*> .optional "last_sync_time" Instant.decoder

/-- The datastores of a handle, of which there is one, as an object. -/
def storesToJson (o : OperationalStore) : Json.Value :=
  .object [("operational", o.toJson)]

def storesDecoder : Json.Decoder OperationalStore := .record <|
  id <$> .required "operational" decoder

end OperationalStore

/-- The status of a handle. -/
structure HandleStatus where
  lifecycle : Lifecycle
  lockReason : Option LockReason
  updatedAt : Instant
  dataSync : Bool
  operational : OperationalStore
  deriving DecidableEq, Inhabited

namespace HandleStatus

/-- The status of a handle that is new at a given time. -/
def advised (now : Instant) : HandleStatus :=
  ⟨.advised, none, now, false, .unrequested⟩

/-- The sync state of the operational datastore. -/
def syncState (s : HandleStatus) : SyncState :=
  s.operational.syncState

/-- The status with a new time of the last change. -/
def touch (s : HandleStatus) (now : Instant) : HandleStatus :=
  { s with updatedAt := now }

/-- The status once the operational data are in step. -/
def markSynchronized (s : HandleStatus) (now : Instant) : HandleStatus :=
  { s with updatedAt := now, operational := ⟨.synchronized, some now⟩ }

/-- The status with synchronization switched on or off, which starts it over. -/
def setDataSync (s : HandleStatus) (enabled : Bool) (now : Instant) : HandleStatus :=
  { s with updatedAt := now, dataSync := enabled, operational := .initial enabled }

/-- The reason for another failure of the handle. -/
def failureReason (s : HandleStatus) (category : LockCategory) (message : String) : LockReason :=
  LockReason.afterFailure s.lockReason category message

/-- The status in one line: the lifecycle state, the sync state and, if there is a reason of a lock, its
category and attempt. -/
def summary (s : HandleStatus) : String :=
  let reason := match s.lockReason with
    | some r => s!"/{r.category.name}#{r.attempt.toNat}"
    | none => ""
  s!"{s.lifecycle.name}/{s.syncState.name}{reason}"

/-! ## Retry -/

/-- The greatest exponent of the waiting time. -/
def greatestBackoffExponent : Nat := 16

/-- How long a handle waits after the failed attempt with the given number. -/
def backoff (attempt : UInt32) (base : Interval) : Interval :=
  base.times (Nat.pow 2 (min attempt.toNat greatestBackoffExponent))

/-- Whether a locked handle may be tried again. -/
def isReadyForRetry (s : HandleStatus) (now : Instant) (base : Interval) : Bool :=
  if s.lifecycle ≠ .locked then false
  else
    match s.lockReason with
    | none => true
    | some reason =>
        if !reason.category.isRetryable then false
        else if reason.attempt = 0 then true
        else
          match (backoff reason.attempt base).signed? with
          | some wait => wait ≤ now.since s.updatedAt
          | none => false

/-! ## As JSON -/

def toJson (s : HandleStatus) : Json.Value :=
  .object <|
    [("cm_handle_state", s.lifecycle.toJson)] ++
    Json.Value.memberIfAny "lock_reason" (s.lockReason.map LockReason.toJson) ++
    [("last_update_time", s.updatedAt.toJson), ("data_sync_enabled", .bool s.dataSync),
      ("data_stores", s.operational.storesToJson)]

def decoder : Json.Decoder HandleStatus := .record <|
  HandleStatus.mk <$> .required "cm_handle_state" Lifecycle.decoder
    <*> .defaulted "lock_reason" (.nullable LockReason.decoder) none
    <*> .required "last_update_time" Instant.decoder
    <*> .defaulted "data_sync_enabled" .bool false
    <*> .defaulted "data_stores" OperationalStore.storesDecoder .unrequested

end HandleStatus
end CmInventory
