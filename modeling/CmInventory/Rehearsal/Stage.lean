import CmInventory.Inventory.Cycle
import CmInventory.Rehearsal.Script
import CmInventory.Store.Tampering

/-!
# Rehearsals

A stage is a world with a script. Its replies are those of the world, except that calls of the store meet
the failures and races of the script, that plugins give the scripted answers, and that events are lost
once nobody listens any longer.
-/

namespace CmInventory

/-- A world with a script. -/
structure Stage where
  world : World
  script : Script
  /-- How often plugins were called, by the label of the call. -/
  calls : Dictionary Nat
  isListening : Bool

namespace Stage

def empty : Stage := ⟨.empty, .empty, .empty, true⟩

instance : Inhabited Stage := ⟨empty⟩

/-- The stage with another world. -/
def setWorld (s : Stage) (world : World) : Stage :=
  { s with world := world }

def setScript (s : Stage) (script : Script) : Stage :=
  { s with script := script }

/-- The stage with another store. -/
def setStore (s : Stage) (store : Store) : Stage :=
  s.setWorld { s.world with store := store }

/-- The stage after another member intervened. -/
def intervene (s : Stage) (i : Intervention) : Stage :=
  s.setStore (i.apply s.world.store)

/-- The stage after the races that follow a call. -/
def race (s : Stage) (call : StoreCall) : Stage :=
  -- Every race that follows the call happens, and never again.
  let (now, later) := s.script.races.partition fun r => r.follows call
  let s := { s with script := { s.script with races := later } }
  (now.map (·.intervention)).foldl intervene s

def callStore (s : Stage) (call : StoreCall) : Except StoreError call.Answer × Stage :=
  match Fault.strike call s.script.faults with
  | some (e, faults) => (.error e, { s with script := { s.script with faults := faults } })
  | none =>
      match s.world.callStore call with
      | (answer, world) => (answer, ({ s with world := world } : Stage).race call)

/-- A call of a plugin. -/
def callPlugin (s : Stage) (call : PluginCall) : Except PluginError call.Answer × Stage :=
  let count := (s.calls.find? call.label).getD 0 + 1
  let s := { s with calls := s.calls.insert call.label count }
  let answer := s.script.answer call
  match answer.meanwhile with
  | none => (answer.result, s)
  | some i => (answer.result, s.intervene i)

/-- How a stage replies to requests. -/
def reply (c : Circumstances) : Program.Surroundings Stage
  | .store call, s => s.callStore call
  | .plugin call, s => s.callPlugin call
  | .publish event, s =>
      if s.isListening then ((), { s with world := s.world.publish event }) else ((), s)
  | r, s =>
      match s.world.reply c r with
      | (answer, world) => (answer, { s with world := world })

def run {α : Type} (c : Circumstances) (p : Program α) (s : Stage) : α × Stage :=
  p.run (reply c) s

/-- The events published since the last time they were collected. -/
def collect (s : Stage) : List Published × Stage :=
  (s.world.published, { s with world := { s.world with published := [] } })

/-- The calls of plugins since the last time they were collected. -/
def collectCalls (s : Stage) : Dictionary Nat × Stage :=
  (s.calls, { s with calls := .empty })

end Stage

namespace Inventory

/-- All that `pick` finds if it is asked again and again for handles other than those it gave. The handles
in `given` are the ones found so far, the last one first. -/
def pickAll (pick : List HandleId → Action (Option Handle)) :
    (bound : Nat) → (visited : List HandleId) → (given : List Handle) → Action (List Handle)
  | 0, _, given => return given.reverse
  | bound + 1, visited, given => do
      match ← pick visited with
      | some h => pickAll pick bound (h.id :: visited) (h :: given)
      | none => return given.reverse

end Inventory
end CmInventory
