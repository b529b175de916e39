import CmInventory.Handle.Basic
import CmInventory.Text.Quoted

/-!
# Errors of the store

Why a call of the store failed.
-/

namespace CmInventory

/-- Why a call of the store failed. -/
inductive StoreError
  /-- No handle is stored under the id. -/
  | notFound (id : String)
  /-- The given handles of a batch were stored already; the others are stored now. -/
  | alreadyExists (ids : List HandleId)
  /-- The id is none that requests may name. -/
  | invalidId (id : String)
  /-- A stored name means nothing. -/
  | invalidData (text : String)
  /-- The store is out of order since a writer broke off. -/
  | outOfOrder
  /-- A stored text cannot be read. -/
  | unreadable (fault : Json.Fault)
  deriving DecidableEq, Repr

namespace StoreError

/-- A list of ids, as it stands in messages. -/
def idList (ids : List HandleId) : String :=
  "[" ++ String.intercalate ", " (ids.map fun id => s!"CmHandleId({Text.quoted id.text})") ++ "]"

def message : StoreError → String
  | .notFound id => s!"cm handle not found: {id}"
  | .alreadyExists ids => s!"cm handles already exist: {idList ids}"
  | .invalidId id => s!"invalid cm handle id: {id}"
  | .invalidData text => s!"invalid data: {text}"
  | .outOfOrder => "storage lock poisoned"
  | .unreadable fault => s!"serialization error: {fault.message}"

end StoreError
end CmInventory
