import CmInventory.Json.Printer
import CmInventory.Store.Error
import CmInventory.Subscription.Basic

/-!
# The store

What the inventory keeps: a row for every handle, the operational data and the modules of handles, and
the statuses that devices reported under subscriptions.

A row holds the record of the handle as JSON text. Beside it stand the names by which handles are
selected: the lifecycle state, the sync state and, for a locked handle, the category of the reason. They
are written together with the record (`HandleRow.ofHandle`); everything that is not a selection reads
the record.

Every operation is atomic: it fails and changes nothing, or it is done as a whole. The one exception is
stated in its type: `insert` stores the new handles of a batch and names the others.
-/

namespace CmInventory

/-! ## Rows -/

/-- The row of a handle. -/
structure HandleRow where
  lifecycle : String
  syncState : String
  lockCategory : Option String
  record : String
  deriving DecidableEq, Repr

namespace HandleRow

/-- The category by which a locked handle is selected. -/
def lockCategoryOf (s : HandleStatus) : Option LockCategory :=
  if s.lifecycle = .locked then s.lockReason.map (·.category) else none

def ofHandle (h : Handle) : HandleRow where
  lifecycle := h.lifecycle.name
  syncState := h.status.syncState.name
  lockCategory := (lockCategoryOf h.status).map LockCategory.name
  record := h.toJson.render

/-- The handle of a row. -/
def handle (r : HandleRow) : Except StoreError Handle :=
  (Json.decode Handle.decoder r.record).mapError .unreadable

end HandleRow

/-- What a device reported under a subscription. -/
structure StatusRow where
  verdict : String
  details : Option String
  deriving DecidableEq, Repr

namespace StatusRow

/-- The row of a device status. -/
def ofStatus (s : DeviceStatus) : StatusRow :=
  ⟨s.verdict.name, s.details⟩

def status (id : String) (r : StatusRow) : Except StoreError DeviceStatus :=
  match DeviceVerdict.ofName? r.verdict with
  | some verdict => .ok ⟨⟨id⟩, verdict, r.details⟩
  | none => .error (.invalidData s!"unknown subscription status '{r.verdict}'")

end StatusRow

/-- What the inventory keeps. The statuses are found by the client, the subscription and the device. -/
structure Store where
  handles : Dictionary HandleRow
  data : Dictionary String
  modules : Dictionary (List ModuleReference)
  statuses : Dictionary (Dictionary (Dictionary StatusRow))

namespace Store

def empty : Store := ⟨.empty, .empty, .empty, .empty⟩

instance : Inhabited Store := ⟨empty⟩

/-! ## Reading handles -/

def get (s : Store) (id : HandleId) : Except StoreError Handle :=
  match s.handles.find? id.text with
  | some row => row.handle
  | none => .error (.notFound id.text)

/-- The handles of those ids under which one is stored. -/
def getMany (s : Store) : List HandleId → Except StoreError (List Handle)
  | [] => .ok []
  | id :: rest =>
      match s.get id with
      | .ok h => (s.getMany rest).map (h :: ·)
      | .error (.notFound _) => s.getMany rest
      | .error e => .error e

/-- The handles of the rows that satisfy `p`. -/
def select (s : Store) (p : HandleRow → Bool) : Except StoreError (List Handle) :=
  (s.handles.values.filter p).mapM HandleRow.handle

def byLifecycle (s : Store) (state : Lifecycle) : Except StoreError (List Handle) :=
  s.select fun r => r.lifecycle = state.name

def bySyncState (s : Store) (state : SyncState) : Except StoreError (List Handle) :=
  s.select fun r => r.syncState = state.name

/-- The handles that are locked for a reason of a category. -/
def byLockCategory (s : Store) (category : LockCategory) : Except StoreError (List Handle) :=
  s.select fun r => r.lifecycle = Lifecycle.locked.name && r.lockCategory = some category.name

def status (s : Store) (id : HandleId) : Except StoreError HandleStatus :=
  (s.get id).map (·.status)

/-- How many rows stand for each name of a lifecycle state. -/
def tally (s : Store) : Dictionary Nat :=
  s.handles.values.foldl
    (fun d r => d.insert r.lifecycle ((d.find? r.lifecycle).getD 0 + 1)) .empty

/-- How many handles are in each lifecycle state that occurs. -/
def countByLifecycle (s : Store) : Except StoreError (List (Lifecycle × Nat)) :=
  s.tally.entries.mapM fun (name, count) =>
    match Lifecycle.ofName? name with
    | some state => .ok (state, count)
    | none => .error (.invalidData s!"unknown state '{name}'")

/-! ## Writing handles -/

/-- Puts the row of a handle under its id. -/
def putHandle (s : Store) (h : Handle) : Store :=
  { s with handles := s.handles.insert h.id.text (.ofHandle h) }

/-- Stores the handles under whose ids there is none yet, and gives the ids of the others. -/
def insert (s : Store) : List Handle → List HandleId × Store
  | [] => ([], s)
  | h :: rest =>
      if s.handles.contains h.id.text then
        let (present, s) := s.insert rest
        (h.id :: present, s)
      else (s.putHandle h).insert rest

/-- Puts the row of a handle, if there is one under its id. -/
def overwrite (s : Store) (h : Handle) : Store :=
  if s.handles.contains h.id.text then s.putHandle h else s

def save (s : Store) (h : Handle) : Except StoreError Store :=
  if s.handles.contains h.id.text then .ok (s.putHandle h) else .error (.notFound h.id.text)

/-- Writes the status of a stored handle; if a lifecycle state is expected, only while the handle is in
it. Tells whether the status was written. -/
def replaceStatus (s : Store) (id : HandleId) (expected : Option Lifecycle) (status : HandleStatus) :
    Except StoreError (Bool × Store) := do
  let h ← s.get id
  match expected with
  | some state =>
      if h.lifecycle = state then return (true, s.overwrite { h with status := status })
      -- The handle has left the state; nothing is written, and this is no error.
      else return (false, s)
  | none => return (true, s.overwrite { h with status := status })

def delete (s : Store) (id : HandleId) : Except StoreError Store :=
  if !id.isValid then .error (.invalidId id.text)
  else if s.handles.contains id.text then
    .ok { s with
      handles := s.handles.erase id.text
      data := s.data.erase id.text
      modules := s.modules.erase id.text }
  else .error (.notFound id.text)

/-- Removes handles, all or none of them. -/
def deleteAll (s : Store) : List HandleId → Except StoreError Store
  | [] => .ok s
  -- An id that is repeated is not found any more; its error undoes the whole batch.
  | id :: rest => do
      let s ← s.delete id
      s.deleteAll rest

/-! ## Operational data and modules -/

def saveData (s : Store) (id : HandleId) (data : Json.Value) : Store :=
  { s with data := s.data.insert id.text data.render }

/-- The operational data of a handle. -/
def getData (s : Store) (id : HandleId) : Except StoreError (Option Json.Value) :=
  match s.data.find? id.text with
  | none => .ok none
  | some text => ((Json.decode .value text).map some).mapError .unreadable

/-- Drops the operational data of a handle. -/
def deleteData (s : Store) (id : HandleId) : Store :=
  { s with data := s.data.erase id.text }

/-- A list of modules in order, each of them once. -/
def arrange (modules : List ModuleReference) : List ModuleReference :=
  modules.foldl place []
where
  /-- Puts a module at its place. -/
  place : List ModuleReference → ModuleReference → List ModuleReference
    | [], m => [m]
    | n :: rest, m =>
        if m.precedes n then m :: n :: rest
        else if m = n then n :: rest
        else n :: place rest m

def saveModules (s : Store) (id : HandleId) (modules : List ModuleReference) : Store :=
  { s with modules := s.modules.insert id.text (arrange modules) }

/-- The modules of a handle. -/
def getModules (s : Store) (id : HandleId) : List ModuleReference :=
  (s.modules.find? id.text).getD []

/-! ## Statuses under subscriptions -/

/-- The rows of a subscription. -/
def statusRows (s : Store) (clientId subscriptionName : String) : Dictionary StatusRow :=
  (((s.statuses.find? clientId).bind (·.find? subscriptionName))).getD .empty

/-- Keeps the statuses that a plugin reported, over earlier ones of the same devices. -/
def saveAnswer (s : Store) (a : PluginAnswer) : Store :=
  let rows := a.statuses.foldl (fun d st => d.insert st.id.text (.ofStatus st))
    (s.statusRows a.clientId a.subscriptionName)
  let ofClient := (s.statuses.find? a.clientId).getD .empty
  { s with statuses := s.statuses.insert a.clientId (ofClient.insert a.subscriptionName rows) }

/-- The statuses under a subscription in the order of the devices. -/
def statusesOf (s : Store) (clientId subscriptionName : String) :
    Except StoreError (List DeviceStatus) :=
  (s.statusRows clientId subscriptionName).entries.mapM fun (id, row) => row.status id

end Store
end CmInventory
