import CmInventory.Proofs.Program.Ensures

/-!
# Schedules

A schedule lays down whose request is answered next, at what time, and whether the store fails at it.
Members that follow one schedule come to one end (`Members.after`), so that two runs can be compared of which
the second leaves out some of the slots.
-/

namespace CmInventory

variable {α : Type}

/-- When a member has its next request answered. -/
structure Slot where
  member : Nat
  /-- The nanoseconds on the clock of the caches. -/
  time : Nat
  /-- What a call of the store fails with, if it fails. -/
  failure : Option StoreError

/-- What a reply depends on in a slot. -/
def Slot.circumstances (slot : Slot) : Circumstances :=
  { World.undisturbed with storeFailure := fun _ _ => slot.failure }

/-- The world in a slot. -/
def Slot.enter (slot : Slot) (w : World) : World :=
  { w with time := slot.time }

/-- What is left of the programs of the members, and the world that they share. -/
structure Members (α : Type) where
  programs : List (Program α)
  world : World

namespace Members

/-- The members after a slot. One that is done stays so. -/
def turn (m : Members α) (slot : Slot) : Members α :=
  match m.programs[slot.member]? with
  | some (.ask r next) =>
      match World.reply slot.circumstances r (slot.enter m.world) with
      | (reply, w) => ⟨m.programs.set slot.member (next reply), w⟩
  | _ => m

/-- The members after slots. -/
def after (m : Members α) (slots : List Slot) : Members α :=
  slots.foldl turn m

theorem after_snoc (m : Members α) (slots : List Slot) (slot : Slot) :
    m.after (slots ++ [slot]) = (m.after slots).turn slot := by
  simp [after]

theorem turn_of_asked {m : Members α} {slot : Slot} {r : Request} {next : r.Reply → Program α}
    (h : m.programs[slot.member]? = some (.ask r next)) :
    m.turn slot =
      ⟨m.programs.set slot.member (next (World.reply slot.circumstances r (slot.enter m.world)).1),
        (World.reply slot.circumstances r (slot.enter m.world)).2⟩ := by
  rw [turn, h]

theorem turn_idle {m : Members α} {slot : Slot}
    (h : ∀ r next, m.programs[slot.member]? ≠ some (.ask r next)) : m.turn slot = m := by
  rw [turn]
  split
  · rename_i r next hasked
    exact absurd hasked (h r next)
  · rfl

theorem published_of_publish {m : Members α} {slot : Slot} {p : Published}
    {next : Unit → Program α}
    (h : m.programs[slot.member]? = some (.ask (.publish p) next)) :
    (m.turn slot).world.published = m.world.published ++ [p] := by
  rw [turn_of_asked h]
  rfl

/-- In a slot the next request of the member is answered, if it has one. -/
theorem asked_or_idle (m : Members α) (slot : Slot) :
    (∃ r next, m.programs[slot.member]? = some (.ask r next)) ∨ m.turn slot = m := by
  by_cases h : ∃ r next, m.programs[slot.member]? = some (.ask r next)
  · exact Or.inl h
  · exact Or.inr (turn_idle fun r next hasked => h ⟨r, next, hasked⟩)

end Members
end CmInventory
