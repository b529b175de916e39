import CmInventory.Json.Decoder

/-!
# The lifecycle of handles

A handle is advised when it is registered, ready once its modules are known and locked when that
failed. From each of these states it can be taken to deleting, and from there only to deleted, which is
final.
-/

namespace CmInventory

/-- The lifecycle states of a handle. -/
inductive Lifecycle
  | advised
  | ready
  | locked
  | deleting
  | deleted
  deriving DecidableEq, Repr, Inhabited

namespace Lifecycle

def all : List Lifecycle := [.advised, .ready, .locked, .deleting, .deleted]

/-- The name under which a state is stored and published. -/
def name : Lifecycle → String
  | .advised => "ADVISED"
  | .ready => "READY"
  | .locked => "LOCKED"
  | .deleting => "DELETING"
  | .deleted => "DELETED"

def ofName? (name : String) : Option Lifecycle :=
  all.find? fun s => s.name = name

/-- Whether a handle may move from one state to another. -/
def canMoveTo : Lifecycle → Lifecycle → Bool
  | .deleted, _ => false
  | _, .deleting => true
  | .advised, .ready | .advised, .locked => true
  | .ready, .locked => true
  | .locked, .advised | .locked, .ready => true
  | .deleting, .deleted => true
  | _, _ => false

/-- The states to which a handle may move. -/
def targets (s : Lifecycle) : List Lifecycle :=
  all.filter s.canMoveTo

theorem ofName?_name (s : Lifecycle) : ofName? s.name = some s := by
  cases s <;> decide

theorem canMoveTo_deleted_left (s : Lifecycle) : Lifecycle.deleted.canMoveTo s = false := by
  cases s <;> rfl

def toJson (s : Lifecycle) : Json.Value :=
  .text s.name

def decoder : Json.Decoder Lifecycle :=
  Json.Decoder.enumeration ofName?

end Lifecycle
end CmInventory
