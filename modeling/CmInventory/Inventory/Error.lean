import CmInventory.Program.Basic

/-!
# Errors of the inventory

Why an operation of the inventory failed, and the operations that can fail: programs that end in an
error or in a result (`Action`).
-/

namespace CmInventory

/-- Why an operation failed. -/
inductive InventoryError
  /-- A registration does not name its services as it should. -/
  | validation (flaw : Endpoints.Flaw)
  | notFound (id : HandleId)
  | alreadyExists (id : HandleId)
  | invalidId (id : String)
  | illegalTransition (id : HandleId) (old new : Lifecycle)
  /-- A handle was to be locked without a reason. -/
  | missingLockReason (id : HandleId)
  /-- The operation requires another lifecycle state. -/
  | invalidState (id : HandleId) (state : Lifecycle)
  /-- The handle left the expected state between reading and writing. -/
  | concurrentModification (id : HandleId) (expected : Lifecycle)
  /-- Another member works on the handle. -/
  | alreadyProcessing (id : HandleId)
  | dataSyncDisabled (id : HandleId)
  | plugin (e : PluginError)
  | store (e : StoreError)
  /-- A batch failed as a whole. -/
  | batchFailed (e : StoreError)
  deriving DecidableEq, Repr

namespace InventoryError

def message : InventoryError → String
  | .validation flaw => s!"validation error: {flaw.message}"
  | .notFound id => s!"cm handle not found: {id.text}"
  | .alreadyExists id => s!"cm handle already exists: {id.text}"
  | .invalidId id => s!"invalid cm handle id: {id}"
  | .illegalTransition id old new =>
      s!"illegal transition for {id.text}: {old.name} -> {new.name}"
  | .missingLockReason id => s!"no lock reason supplied for {id.text}"
  | .invalidState id state => s!"cm handle {id.text} is {state.name}"
  | .concurrentModification id expected =>
      s!"cm handle {id.text} changed concurrently, no longer {expected.name}"
  | .alreadyProcessing id => s!"cm handle {id.text} is already being processed"
  | .dataSyncDisabled id => s!"data sync is disabled for {id.text}"
  | .plugin e => s!"transport error: {e.message}"
  | .store e => s!"storage error: {e.message}"
  | .batchFailed e => s!"batch failed: {e.message}"

/-- An error of the store as one of the operation that called it. -/
def ofStore : StoreError → InventoryError
  | .notFound id => .notFound ⟨id⟩
  | .invalidId id => .invalidId id
  | e => .store e

end InventoryError

/-- A program that ends in an error or in a result. -/
abbrev Action := ExceptT InventoryError Program

namespace Action

/-- A program of which every result is one. -/
def lift {α : Type} (p : Program α) : Action α :=
  ExceptT.lift p

def store (call : StoreCall) : Action call.Answer :=
  ExceptT.mk do
    let answer ← Program.store call
    return answer.mapError .ofStore

def plugin (call : PluginCall) : Action call.Answer :=
  ExceptT.mk do
    let answer ← Program.plugin call
    return answer.mapError .plugin

/-- What was found without asking for anything. -/
def ofExcept {α : Type} (result : Except InventoryError α) : Action α :=
  ExceptT.mk (.done result)

end Action
end CmInventory
