import CmInventory.Dictionary
import CmInventory.Time.Interval

/-!
# Caches

A cache maps keys to values, each of which may live for a limited time. The members of the inventory
share caches: an entry marks work that is under way, or holds what is still awaited.

Times are nanoseconds on the clock of the cache. An entry that was put at `t` to live for `d` is live at
the times before `t + d`. One that is no longer live stays in memory until its key is used the next time
(`settle`); through the operations it is never seen.

The operations are for deadlines that the clock can show. A clock ends, and a call that comes to a later
deadline breaks off: what it gives then, and what it leaves behind, is laid down by `Cache.perform`.
-/

namespace CmInventory

/-- A value and the time from which it is no longer live. -/
structure CacheEntry (β : Type) where
  value : β
  expiry : Option Nat
  deriving DecidableEq

namespace CacheEntry

variable {β : Type}

/-- The entry of a value that is put at a given time. The deadline is one that the clock can show. -/
def startingAt (now : Nat) (value : β) (life : Option Interval) : CacheEntry β :=
  ⟨value, life.map fun i => now + i.nanos⟩

def isLive (e : CacheEntry β) (now : Nat) : Bool :=
  match e.expiry with
  | none => true
  | some t => now < t

end CacheEntry

/-- A cache. -/
structure Cache (β : Type) where
  entries : Dictionary (CacheEntry β)

namespace Cache

variable {β : Type}

def empty : Cache β := ⟨.empty⟩

instance : Inhabited (Cache β) := ⟨empty⟩

/-- The live entry of a key. -/
def live? (c : Cache β) (now : Nat) (key : String) : Option (CacheEntry β) :=
  (c.entries.find? key).filter fun e => e.isLive now

/-- The cache without the entry of a key, if that is no longer live. -/
def settle (c : Cache β) (now : Nat) (key : String) : Cache β :=
  match c.entries.find? key with
  | some e => if e.isLive now then c else ⟨c.entries.erase key⟩
  | none => c

/-! ## Operations -/

def get (c : Cache β) (now : Nat) (key : String) : Option β × Cache β :=
  ((c.live? now key).map (·.value), c.settle now key)

def contains (c : Cache β) (now : Nat) (key : String) : Bool × Cache β :=
  ((c.live? now key).isSome, c.settle now key)

/-- Puts a value, over one that is there. -/
def put (c : Cache β) (now : Nat) (key : String) (value : β) (life : Option Interval) : Cache β :=
  ⟨c.entries.insert key (.startingAt now value life)⟩

/-- Puts a value unless there is one. Tells whether it was put. -/
def putIfAbsent (c : Cache β) (now : Nat) (key : String) (value : β) (life : Option Interval) :
    Bool × Cache β :=
  match c.live? now key with
  -- The entry that is there keeps its life.
  | some _ => (false, c)
  | none => (true, c.put now key value life)

/-- Removes the value of a key. -/
def remove (c : Cache β) (now : Nat) (key : String) : Option β × Cache β :=
  ((c.live? now key).map (·.value), ⟨c.entries.erase key⟩)

/-- Changes the value of a key, if it has one, and lets it live anew. -/
def updateIfPresent (c : Cache β) (now : Nat) (key : String) (life : Option Interval)
    (f : β → β) : Option β × Cache β :=
  match c.live? now key with
  | some e => (some (f e.value), c.put now key (f e.value) life)
  | none => (none, c.settle now key)

def size (c : Cache β) (now : Nat) : Nat :=
  (c.entries.values.filter fun e => e.isLive now).length

end Cache

/-! ## Calls on a clock that ends -/

/-- Whether a clock that ends with `last` can show the deadline of what is put at a time to live for an
interval. What lives without a limit has no deadline. -/
def showsDeadline (last now : Nat) (life : Option Interval) : Bool :=
  life.all fun i => now + i.nanos ≤ last

theorem showsDeadline_some {last now : Nat} {i : Interval} :
    showsDeadline last now (some i) = true ↔ now + i.nanos ≤ last := decide_eq_true_iff

/-- A call of a cache. -/
inductive CacheCall (β : Type)
  | get (key : String)
  | contains (key : String)
  | put (key : String) (value : β) (life : Option Interval)
  | putIfAbsent (key : String) (value : β) (life : Option Interval)
  | remove (key : String)
  | updateIfPresent (key : String) (life : Option Interval) (f : β → β)
  | size

namespace CacheCall

variable {β : Type}

/-- The type of what a call gives. -/
abbrev Answer : CacheCall β → Type
  | .get _ | .remove _ | .updateIfPresent .. => Option β
  | .contains _ | .putIfAbsent .. => Bool
  | .put .. => Unit
  | .size => Nat

/-- How long a call lets an entry live, if it comes to put one. -/
def life : CacheCall β → Option Interval
  | .put _ _ life | .putIfAbsent _ _ life | .updateIfPresent _ life _ => life
  | .get _ | .contains _ | .remove _ | .size => none

end CacheCall

namespace Cache

variable {β : Type}

/-- What a call gives on a clock that ends with `last`, and the cache after it. A call that comes to a
deadline which the clock cannot show breaks off and gives nothing. -/
def perform (last : Nat) (c : Cache β) (now : Nat) : (call : CacheCall β) → Option call.Answer × Cache β
  | .get key => (some (c.get now key).1, (c.get now key).2)
  | .contains key => (some (c.contains now key).1, (c.contains now key).2)
  | .put key value life =>
      if showsDeadline last now life then (some (), c.put now key value life) else (none, c)
  | .putIfAbsent key value life =>
      -- Where there is an entry no deadline is needed.
      if (c.live? now key).isSome || showsDeadline last now life then
        (some (c.putIfAbsent now key value life).1, (c.putIfAbsent now key value life).2)
      else (none, c.settle now key)
  | .remove key => (some (c.remove now key).1, (c.remove now key).2)
  | .updateIfPresent key life f =>
      match c.live? now key with
      | none => (some none, c.settle now key)
      | some e =>
          if showsDeadline last now life then
            (some (c.updateIfPresent now key life f).1, (c.updateIfPresent now key life f).2)
          -- The value is changed before the deadline is looked for, and keeps the deadline that it had.
          else (none, ⟨c.entries.insert key { e with value := f e.value }⟩)
  | .size => (some (c.size now), c)

end Cache
end CmInventory
