import CmInventory.Coordination.Cache
import CmInventory.Program.Basic

/-!
# The world of a run

The surroundings in which the programs of the inventory are run: the store and the caches that all
members share, the time on the clock of the caches, and the events that were published. What the world
does not decide by itself is laid down by `Circumstances`: the readings of the clock, fresh ids, random
choices, failures of the store and the answers of plugins, each depending on how many requests were made
before.

The clock of the caches goes on without an end, so that it shows the deadline of whatever is put. On a clock
that ends the calls of the caches are the same until they come to a later deadline (`Cache.perform`).
-/

namespace CmInventory

/-- What a run depends on besides its requests. -/
structure Circumstances where
  clock : Nat → Instant
  eventId : Nat → EventId
  choice : Nat → Nat
  storeFailure : Nat → StoreCall → Option StoreError
  plugin : Nat → (call : PluginCall) → Except PluginError call.Answer

/-- The state that all members share. -/
structure World where
  store : Store
  dataMarkers : Cache String
  moduleMarkers : Cache String
  pending : Cache NameSet
  /-- The nanoseconds on the clock of the caches, which does not end. -/
  time : Nat
  /-- The events in the order in which they were published. -/
  published : List Published
  /-- How many requests were made. -/
  turn : Nat

namespace World

def empty : World := ⟨.empty, .empty, .empty, .empty, 0, [], 0⟩

instance : Inhabited World := ⟨empty⟩

def markers (w : World) : SyncKind → Cache String
  | .data => w.dataMarkers
  | .modules => w.moduleMarkers

/-- The world with other markers of a kind of work. -/
def setMarkers (w : World) (kind : SyncKind) (c : Cache String) : World :=
  match kind with
  | .data => { w with dataMarkers := c }
  | .modules => { w with moduleMarkers := c }

/-- The world in which the clock of the caches has moved on. -/
def advance (w : World) (length : Interval) : World :=
  { w with time := w.time + length.nanos }

/-! ## Replies -/

/-- A call of the store that does not fail for reasons of its own. -/
def callStore (w : World) (call : StoreCall) : Except StoreError call.Answer × World :=
  match w.store.perform call with
  | (answer, store) => (answer, { w with store := store })

/-- A call of the cache of awaited plugins. -/
def callPending (w : World) : (call : PendingCall) → call.Answer × World
  | .put key plugins life =>
      ((), { w with pending := w.pending.put w.time key plugins (some life) })
  | .strike key plugin life =>
      match w.pending.updateIfPresent w.time key (some life) (·.without plugin) with
      | (left, c) => (left, { w with pending := c })
  | .get key =>
      match w.pending.get w.time key with
      | (plugins, c) => (plugins, { w with pending := c })
  | .take key =>
      match w.pending.remove w.time key with
      | (plugins, c) => (plugins, { w with pending := c })

/-- Puts a marker on a handle, unless there is one. -/
def mark (w : World) (kind : SyncKind) (id : HandleId) (owner : String) (life : Interval) :
    Bool × World :=
  match (w.markers kind).putIfAbsent w.time id.text owner (some life) with
  | (put, c) => (put, w.setMarkers kind c)

def unmark (w : World) (kind : SyncKind) (id : HandleId) : World :=
  w.setMarkers kind ((w.markers kind).remove w.time id.text).2

def publish (w : World) (event : Published) : World :=
  { w with published := w.published ++ [event] }

def nextTurn (w : World) : World :=
  { w with turn := w.turn + 1 }

/-- How the world replies to requests. -/
def reply (c : Circumstances) : Program.Surroundings World
  | .store call, w =>
      match c.storeFailure w.turn call with
      | some e => (.error e, w.nextTurn)
      | none => w.nextTurn.callStore call
  | .mark kind id owner life, w => w.nextTurn.mark kind id owner life
  | .unmark kind id, w => ((), w.nextTurn.unmark kind id)
  | .pending call, w => w.nextTurn.callPending call
  | .plugin call, w => (c.plugin w.turn call, w.nextTurn)
  | .publish event, w => ((), w.nextTurn.publish event)
  | .now, w => (c.clock w.turn, w.nextTurn)
  | .newEventId, w => (c.eventId w.turn, w.nextTurn)
  | .choose last, w => (Fin.ofNat (last + 1) (c.choice w.turn), w.nextTurn)

end World
end CmInventory
