import CmInventory.Coordination.NameSet
import CmInventory.Event.Basic
import CmInventory.Plugin.Basic
import CmInventory.Store.Call

/-!
# Requests to the surroundings

Whatever an operation of the inventory needs from outside itself it asks for by a `Request`: calls of the
store, of the shared caches and of plugins, the publication of an event, the clock, a fresh id, and a
random choice. Each request is answered by one atomic step of the surroundings, so that requests are the
points at which other members may come in between.
-/

namespace CmInventory

/-- The kinds of work on a handle of which at most one is under way at a time. -/
inductive SyncKind
  | data
  | modules
  deriving DecidableEq, Repr

/-- A call of the cache that holds, for the key of a subscription, the plugins still awaited. -/
inductive PendingCall
  | put (key : String) (plugins : NameSet) (life : Interval)
  /-- Removes a plugin from those awaited, if any are, and lets the entry live anew. -/
  | strike (key plugin : String) (life : Interval)
  | get (key : String)
  | take (key : String)

/-- The type of what a call of the cache of awaited plugins gives. -/
abbrev PendingCall.Answer : PendingCall → Type
  | .put .. => Unit
  | .strike .. | .get _ | .take _ => Option NameSet

/-- What an operation asks of its surroundings. -/
inductive Request
  | store (call : StoreCall)
  /-- Puts a marker on a handle for a time, unless there is one. Tells whether it was put. -/
  | mark (kind : SyncKind) (id : HandleId) (owner : String) (life : Interval)
  /-- Takes the marker off a handle, whoever put it. -/
  | unmark (kind : SyncKind) (id : HandleId)
  | pending (call : PendingCall)
  | plugin (call : PluginCall)
  | publish (event : Published)
  /-- The time of day. -/
  | now
  /-- An id that no event has yet. -/
  | newEventId
  /-- A number up to the given one, chosen at random. -/
  | choose (last : Nat)

/-- The type of the answer to a request. -/
abbrev Request.Reply : Request → Type
  | .store call => Except StoreError call.Answer
  | .mark .. => Bool
  | .unmark .. | .publish _ => Unit
  | .pending call => call.Answer
  | .plugin call => Except PluginError call.Answer
  | .now => Instant
  | .newEventId => EventId
  | .choose last => Fin (last + 1)

end CmInventory
