import CmInventory.Inventory.Transition
import CmInventory.Registration.Request
import CmInventory.Registration.Response

/-!
# Registration

What a plugin asks for in a registration is done in the order removals, creations, updates. There is one
response for every handle of the request, in its order; a handle that is refused does not keep the
others from being processed.

Handles are removed in two steps. First all of them are moved to deleting. Then they are deleted from the
store in chunks of `deleteChunkSize`, and a chunk that fails is deleted handle by handle. A handle whose
deletion failed stays deleting.

Main definitions: `Inventory.create`, `Inventory.update`, `Inventory.remove`, `Inventory.process`.
-/

namespace CmInventory
namespace Inventory

/-! ## Properties -/

/-- The properties that have a value. -/
def presentProperties (properties : Dictionary (Option String)) : Dictionary String :=
  properties.filterMap id

/-- Properties after changes, which set the ones with a value and remove the others. -/
def mergeProperties (properties : Dictionary String) (changes : Dictionary (Option String)) :
    Dictionary String :=
  changes.entries.foldl
    (fun found (name, value) =>
      match value with
      | some value => found.insert name value
      | none => found.erase name)
    properties

/-! ## Creation -/

/-- What becomes of a requested handle: it is refused, or it is to be registered. -/
inductive Candidate
  | refused (response : HandleResponse)
  | admitted (handle : Handle)

/-- The new handle that a request describes. -/
def newHandle (id : HandleId) (endpoints : Endpoints) (r : RequestedHandle) (now : Instant) : Handle :=
  let h := Handle.advised id endpoints now
  { h with
    dmiProperties := presentProperties r.dmiProperties
    publicProperties := presentProperties r.publicProperties
    moduleSetTag := r.moduleSetTag
    status := { h.status with dataSync := r.dataSync.getD false } }

/-- Sorts out the requested handles whose id is not valid or was asked for before. -/
def screen (endpoints : Endpoints) (seen : List HandleId) :
    List RequestedHandle → Program (List Candidate)
  | [] => return []
  | r :: rest => do
      match HandleId.parse r.id with
      | .error _ =>
          let more ← screen endpoints seen rest
          return .refused (.failure ⟨r.id⟩ .invalidId) :: more
      | .ok id =>
          -- Within one request the first handle of an id wins.
          if seen.contains id then
            let more ← screen endpoints seen rest
            return .refused (.failure id .alreadyExists) :: more
          else
            let now ← Program.now
            let more ← screen endpoints (id :: seen) rest
            return .admitted (newHandle id endpoints r now) :: more

/-- The handles to register. -/
def admittedHandles (candidates : List Candidate) : List Handle :=
  candidates.filterMap fun
    | .refused _ => none
    | .admitted h => some h

/-- The response for a handle that was to be registered. -/
def creationResponse (result : BatchResult) (id : HandleId) : HandleResponse :=
  match result.error? id with
  | none => .success id
  | some (.alreadyExists _) => .failure id .alreadyExists
  | some e => .unknownFailure id e.message

/-- The response for a requested handle. -/
def Candidate.response (result : BatchResult) : Candidate → HandleResponse
  | .refused response => response
  | .admitted h => creationResponse result h.id

/-- Registers new handles with the given services. -/
def create (topic : String) (endpoints : Endpoints) (requested : List RequestedHandle) :
    Action (List HandleResponse) :=
  match endpoints.flaw? with
  | some flaw => throw (.validation flaw)
  | none => Action.lift do
      let candidates ← screen endpoints [] requested
      let result ← register topic (admittedHandles candidates)
      return candidates.map (Candidate.response result)

/-! ## Updates -/

/-- Changes the properties of a handle. -/
def updateOne (r : RequestedHandle) : Program HandleResponse := do
  match HandleId.parse r.id with
  | .error _ => return .failure ⟨r.id⟩ .invalidId
  | .ok id =>
      match ← Program.store (.get id) with
      | .error (.notFound _) => return .failure id .doesNotExist
      | .error e => return .unknownFailure id e.message
      | .ok h =>
          let changed := { h with
            dmiProperties := mergeProperties h.dmiProperties r.dmiProperties
            publicProperties := mergeProperties h.publicProperties r.publicProperties }
          match ← Program.store (.save changed) with
          | .ok () => return .success id
          | .error e => return .unknownFailure id e.message

/-- Changes the properties of handles, one after the other. -/
def update (requested : List RequestedHandle) : Program (List HandleResponse) :=
  requested.mapM updateOne

/-! ## Removal -/

/-- How many handles are deleted by one call of the store. -/
def deleteChunkSize : Nat := 100

/-- A list in chunks of the given size, of which the last may be shorter. -/
def chunks {α : Type} (size : Nat) : List α → List (List α)
  | [] => []
  | x :: rest => (x :: rest.take (size - 1)) :: chunks size (rest.drop (size - 1))
termination_by xs => xs.length
decreasing_by simp only [List.length_drop, List.length_cons]; omega

/-- Moves the stored handles among the given ones to deleting. Gives a snapshot of each handle that is
deleting now, by its id. -/
def markDeleting (topic : String) (ids : List HandleId) :
    Program (Except StoreError (Dictionary Handle)) := do
  match ← Program.store (.getMany ids) with
  | .error e => return .error e
  | .ok snapshots =>
      let result ← applyBatch topic (snapshots.map fun h => (h, .deleting))
      -- A handle that was deleting before counts as well, so that a removal can be repeated.
      let deleting := snapshots.filter fun h => result.reached h.id
      return .ok <| .ofList <| deleting.map fun h =>
        (h.id.text, { h with status := { h.status with lifecycle := .deleting } })

/-- Takes the markers off a handle that is gone. -/
def clearMarkers (id : HandleId) : Program Unit := do
  Program.request (.unmark .data id)
  Program.request (.unmark .modules id)

/-- What became of the deletion of a handle. -/
structure Deletion where
  id : HandleId
  result : Except StoreError Unit

namespace Deletion

def isDone (d : Deletion) : Bool :=
  match d.result with
  | .ok () => true
  | .error _ => false

/-- The response for the handle. -/
def response (d : Deletion) : HandleResponse :=
  match d.result with
  | .ok () => .success d.id
  | .error (.notFound _) => .failure d.id .doesNotExist
  | .error (.invalidId _) => .failure d.id .invalidId
  | .error e => .unknownFailure d.id e.message

end Deletion

/-- Notes that a handle was deleted. -/
def deleted (id : HandleId) : Program Deletion := do
  clearMarkers id
  return ⟨id, .ok ()⟩

/-- Deletes one handle. -/
def deleteOne (id : HandleId) : Program Deletion := do
  match ← Program.store (.delete id) with
  | .ok () => deleted id
  | .error e => return ⟨id, .error e⟩

/-- Deletes a chunk of handles, at once if that is possible and otherwise one by one. -/
def deleteChunk (ids : List HandleId) : Program (List Deletion) := do
  match ← Program.store (.deleteAll ids) with
  | .ok () => ids.mapM deleted
  -- Nothing of the chunk was deleted, so each handle gets a try and an error of its own.
  | .error _ => ids.mapM deleteOne

/-- Deletes handles chunk by chunk. -/
def deleteChunks : List (List HandleId) → Program (List Deletion)
  | [] => return []
  | chunk :: rest => do
      let here ← deleteChunk chunk
      let more ← deleteChunks rest
      return here ++ more

/-- Removes handles. If not even the handles can be loaded, every response tells so. -/
def remove (topic : String) (rawIds : List String) : Program (List HandleResponse) := do
  let ids := rawIds.map HandleId.mk
  match ← markDeleting topic ids with
  | .error e => return ids.map fun id => .unknownFailure id e.message
  | .ok deleting =>
      let deletions ← deleteChunks (chunks deleteChunkSize ids)
      -- Only a handle of which a snapshot was taken can be announced as deleted.
      let gone := (deletions.filter Deletion.isDone).filterMap fun d => deleting.find? d.id.text
      let _ ← applyBatch topic (gone.map fun h => (h, .deleted))
      return deletions.map Deletion.response

/-! ## Whole registrations -/

/-- Does what a plugin asks for: removals, creations and updates, in this order. Nothing is done if the
services of the registration are not as they should be. -/
def process (topic : String) (r : Registration) : Action RegistrationResponse :=
  match r.endpoints.flaw? with
  | some flaw => throw (.validation flaw)
  | none => do
      let removed ← if r.removed.isEmpty then pure [] else Action.lift (remove topic r.removed)
      let created ← if r.created.isEmpty then pure [] else create topic r.endpoints r.created
      let updated ← if r.updated.isEmpty then pure [] else Action.lift (update r.updated)
      return ⟨created, updated, removed⟩

end Inventory
end CmInventory
