import CmInventory.Inventory.Transition

/-!
# Operations on handles

What members of the inventory do to the status of handles, and the deletion of handles, as data. A member
that does one operation after the other is a program (`Operation.script`), and several members are a list
of such programs.
-/

namespace CmInventory

/-- What a member does to handles. -/
inductive Operation
  | register (topic : String) (handles : List Handle)
  | apply (topic : String) (batch : List (Handle × Lifecycle))
  | markSynchronized (id : HandleId)
  | setDataSync (id : HandleId) (enabled : Bool)
  | delete (id : HandleId)
  | deleteAll (ids : List HandleId)

/-- What came of an operation. -/
inductive Operation.Result
  | batch (result : BatchResult)
  | change (result : Except InventoryError Unit)
  | deletion (result : Except StoreError Unit)

/-- The program of an operation. -/
def Operation.program : Operation → Program Result
  | .register topic handles => do
      let result ← Inventory.register topic handles
      return .batch result
  | .apply topic batch => do
      let result ← Inventory.applyBatch topic batch
      return .batch result
  | .markSynchronized id => do
      let result ← (Inventory.markSynchronized id).run
      return .change result
  | .setDataSync id enabled => do
      let result ← (Inventory.setDataSync id enabled).run
      return .change result
  | .delete id => do
      let result ← Program.store (.delete id)
      return .deletion result
  | .deleteAll ids => do
      let result ← Program.store (.deleteAll ids)
      return .deletion result

/-- The program of a member that does one operation after the other. -/
def Operation.script (ops : List Operation) : Program (List Result) :=
  ops.mapM Operation.program

end CmInventory
