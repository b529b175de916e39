import CmInventory.Coordination.Agenda
import CmInventory.Inventory.Consolidation
import CmInventory.Rehearsal.Stage

/-!
# Rehearsing timeouts

A stage on which subscriptions are consolidated, together with the timeouts that were set and what became
of each. A timeout that fails counts as one that published nothing.
-/

namespace CmInventory

/-- A stage with timeouts. -/
structure TimeoutStage where
  stage : Stage
  consolidation : Consolidation
  /-- The timeouts that wait, each with its number. -/
  agenda : Agenda (Nat × PluginAnswer)
  /-- Whether each timeout published a report, in the order in which they were set; none for one that has
  not come yet. -/
  results : List (Option Bool)

namespace TimeoutStage

def start (consolidation : Consolidation) : TimeoutStage :=
  ⟨.empty, consolidation, .empty, []⟩

def setStage (s : TimeoutStage) (stage : Stage) : TimeoutStage :=
  { s with stage := stage }

def run {α : Type} (c : Circumstances) (p : Program α) (s : TimeoutStage) : α × TimeoutStage :=
  let (a, stage) := s.stage.run c p
  (a, { s with stage := stage })

/-- Ends the wait for answers to a subscription. -/
def expire (c : Circumstances) (s : TimeoutStage) (due : Nat × PluginAnswer) : TimeoutStage :=
  let (result, s) := s.run c (Inventory.timeOut s.consolidation due.2).run
  let isPublished := match result with
    | .ok isPublished => isPublished
    | .error _ => false
  { s with results := s.results.set due.1 (some isPublished) }

/-- Lets the timeouts come that are due. -/
def expireDue (c : Circumstances) (s : TimeoutStage) : TimeoutStage :=
  let (due, later) := s.agenda.takeDue s.stage.world.time
  due.foldl (expire c) { s with agenda := later }

/-- Sets a timeout. One without delay comes at once. -/
def schedule (c : Circumstances) (s : TimeoutStage) (standIn : PluginAnswer) (delay : Interval) :
    TimeoutStage :=
  expireDue c { s with
    agenda := s.agenda.put (s.stage.world.time + delay.nanos) (s.results.length, standIn)
    results := s.results ++ [none] }

/-- Moves the clock on and lets the timeouts come that have become due. -/
def advance (c : Circumstances) (s : TimeoutStage) (length : Interval) : TimeoutStage :=
  expireDue c { s with stage := { s.stage with world := s.stage.world.advance length } }

end TimeoutStage
end CmInventory
