import CmInventory.Program.World

/-!
# Delayed runs

The circumstances of a run depend on how many requests were made before. A run that begins some requests
later, under circumstances that are behind by as many requests, is therefore the same run: it comes to the
same result and leaves the same world, but for the number of requests (`Program.run_later`). So programs can
be compared of which one makes idle requests that the other does not make.
-/

namespace CmInventory

/-- Circumstances that are behind by a number of requests. -/
def Circumstances.behind (c : Circumstances) (n : Nat) : Circumstances where
  clock t := c.clock (t - n)
  eventId t := c.eventId (t - n)
  choice t := c.choice (t - n)
  storeFailure t := c.storeFailure (t - n)
  plugin t := c.plugin (t - n)

namespace World

/-- The world after a number of requests that changed nothing. -/
def later (w : World) (n : Nat) : World :=
  { w with turn := w.turn + n }

variable {w : World} {n : Nat}

theorem later_later (m : Nat) : (w.later m).later n = w.later (m + n) := by
  simp only [later, Nat.add_assoc]

theorem later_nextTurn : (w.later n).nextTurn = w.nextTurn.later n := by
  simp only [nextTurn, later, Nat.add_right_comm]

/-- A request is answered in the same way, and changes the same. -/
theorem reply_later (c : Circumstances) (r : Request) (w : World) (n : Nat) :
    reply (c.behind n) r (w.later n) = ((reply c r w).1, (reply c r w).2.later n) := by
  have hturn : (w.later n).turn - n = w.turn := Nat.add_sub_cancel w.turn n
  cases r with
  | store call =>
      simp only [reply, Circumstances.behind, hturn]
      cases c.storeFailure w.turn call with
      | some e => rw [later_nextTurn]
      | none => rw [later_nextTurn]; rfl
  | mark kind id owner life => cases kind <;> simp only [reply, later_nextTurn] <;> rfl
  | unmark kind id => cases kind <;> simp only [reply, later_nextTurn] <;> rfl
  | pending call => cases call <;> simp only [reply, later_nextTurn] <;> rfl
  | plugin call => simp only [reply, Circumstances.behind, hturn, later_nextTurn]
  | publish event => simp only [reply, later_nextTurn]; rfl
  | now => simp only [reply, Circumstances.behind, hturn, later_nextTurn]
  | newEventId => simp only [reply, Circumstances.behind, hturn, later_nextTurn]
  | choose last => simp only [reply, Circumstances.behind, hturn, later_nextTurn]

end World

/-- A program that is run later comes to the same. -/
theorem Program.run_later {α : Type} (p : Program α) (c : Circumstances) (w : World) (n : Nat) :
    p.run (World.reply (c.behind n)) (w.later n) =
      ((p.run (World.reply c) w).1, (p.run (World.reply c) w).2.later n) := by
  induction p generalizing w with
  | done a => rfl
  | ask r next ih =>
      rw [run_ask, run_ask, World.reply_later]
      exact ih _ _

end CmInventory
