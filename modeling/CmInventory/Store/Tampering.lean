import CmInventory.Store.Basic

/-!
# Tampering

Stored text that was changed by someone who goes past the store. It is what the store meets when a file
was damaged or written by another program: the names by which handles are selected no longer agree with
the records, or a text cannot be read.
-/

namespace CmInventory

/-- A text that the store keeps for a handle. -/
inductive StoredText
  | lifecycle
  | syncState
  | lockCategory
  | record
  | data
  /-- The verdict of the device, under every subscription. -/
  | verdict
  deriving DecidableEq, Repr

namespace HandleRow

/-- The row with one of its texts replaced. -/
def withText (r : HandleRow) (place : StoredText) (text : String) : HandleRow :=
  match place with
  | .lifecycle => { r with lifecycle := text }
  | .syncState => { r with syncState := text }
  | .lockCategory => { r with lockCategory := some text }
  | .record => { r with record := text }
  | .data | .verdict => r

end HandleRow

namespace Store

/-- Changes the value under a key, and counts the changes. -/
def changeAt {β : Type} (key : String) (f : β → β) (d : Dictionary β) : Nat × Dictionary β :=
  (if d.contains key then 1 else 0, d.modify key f)

/-- Replaces a text that is kept for a handle wherever it stands, and counts the places. -/
def tamper (s : Store) (place : StoredText) (id text : String) : Nat × Store :=
  match place with
  | .data =>
      let (n, data) := changeAt id (fun _ => text) s.data
      (n, { s with data := data })
  | .verdict =>
      let replaced := fun (r : StatusRow) => { r with verdict := text }
      let places := s.statuses.values.flatMap fun ofClient =>
        ofClient.values.filter fun rows => rows.contains id
      (places.length,
        { s with statuses := s.statuses.map fun ofClient =>
            ofClient.map fun rows => rows.modify id replaced })
  | place =>
      let (n, handles) := changeAt id (fun r => r.withText place text) s.handles
      (n, { s with handles := handles })

end Store
end CmInventory
