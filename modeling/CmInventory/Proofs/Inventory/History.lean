import CmInventory.Proofs.Inventory.Cycles
import CmInventory.Proofs.Inventory.Registration

/-!
# Histories of requests

An inventory that starts with nothing and serves requests and cycles one after the other. Deletions may
fail at any time; nothing else fails for reasons of the store. Whatever was asked for, in whatever order,
the events of a handle are lives, and the last of them tells what is stored for it now.
-/

namespace CmInventory

/-- What an inventory is asked for. A cycle that is given a large enough bound is a complete one. -/
inductive Demand
  | create (topic : String) (endpoints : Endpoints) (requested : List RequestedHandle)
  | update (requested : List RequestedHandle)
  | remove (topic : String) (rawIds : List String)
  | process (topic : String) (registration : Registration)
  | dataCycle (m : Member) (bound : Nat)
  | moduleCycle (m : Member) (bound : Nat)
  /-- Nothing, for some time. -/
  | wait (length : Interval)

namespace World

/-- The world after a demand was served. -/
def serve (c : Circumstances) (w : World) : Demand → World
  | .create topic endpoints requested =>
      ((Inventory.create topic endpoints requested).run.run (reply c) w).2
  | .update requested => ((Inventory.update requested).run (reply c) w).2
  | .remove topic rawIds => ((Inventory.remove topic rawIds).run (reply c) w).2
  | .process topic registration =>
      ((Inventory.process topic registration).run.run (reply c) w).2
  | .dataCycle m bound => ((Inventory.dataCycle m bound).run (reply c) w).2
  | .moduleCycle m bound => ((Inventory.moduleCycle m bound).run (reply c) w).2
  | .wait length => w.advance length

/-- The world after demands were served one after the other, from the beginning. -/
def history (c : Circumstances) (demands : List Demand) : World :=
  demands.foldl (serve c) empty

variable {c : Circumstances} {w : World}

theorem consistent_empty : empty.Consistent := by
  refine ⟨Store.sound_empty, ?_⟩
  intro id
  refine ⟨areLives_nil, ?_⟩
  rw [show empty.store = Store.empty from rfl, Store.lifecycle?, Store.record?_empty]
  rfl

/-- One demand keeps the events and the records in agreement. -/
theorem Consistent.serve (hc : ∀ n call e, c.storeFailure n call = some e → call.Deletes)
    (hw : w.Consistent) (d : Demand) : (w.serve c d).Consistent := by
  cases d with
  | create topic endpoints requested => exact run_of_ensures hc (Inventory.ensures_create hw)
  | update requested => exact run_of_ensures hc (Inventory.ensures_update hw)
  | remove topic rawIds => exact run_of_ensures hc (Inventory.ensures_remove hw)
  | process topic registration => exact run_of_ensures hc (Inventory.ensures_process hw)
  | dataCycle m bound => exact run_of_ensures hc (Inventory.ensures_dataCycle hw)
  | moduleCycle m bound => exact run_of_ensures hc (Inventory.ensures_moduleCycle hw)
  | wait length => exact hw.of_same ⟨rfl, rfl⟩

theorem consistent_history (hc : ∀ n call e, c.storeFailure n call = some e → call.Deletes)
    (demands : List Demand) : (history c demands).Consistent := by
  induction demands using List.reverseRecOn with
  | nil => exact consistent_empty
  | append_singleton demands d ih =>
      rw [history, List.foldl_append]
      exact ih.serve hc d

/-- After any demands, the events of a handle are lives. There is no record of the handle if it has no
event or was deleted last, and otherwise its record is in the state that was told last. -/
theorem history_tells_records (hc : ∀ n call e, c.storeFailure n call = some e → call.Deletes)
    (demands : List Demand) (id : HandleId) :
    AreLives (movesOf id (history c demands).published) ∧
      (((history c demands).store.get id = .error (.notFound id.text) ∧
          (movesOf id (history c demands).published = [] ∨
            lastState (movesOf id (history c demands).published) = some .deleted)) ∨
        ∃ h, (history c demands).store.get id = .ok h ∧
          lastState (movesOf id (history c demands).published) = some h.lifecycle ∧
          h.lifecycle ≠ .deleted) := by
  have hw := consistent_history hc demands
  rcases hw.tells id with ⟨hlives, htold⟩
  refine ⟨hlives, ?_⟩
  rw [hw.sound.get_eq]
  cases hr : (history c demands).store.record? id with
  | none =>
      rw [Store.lifecycle?, hr, Option.map_none] at htold
      exact Or.inl ⟨rfl, toldState_eq_none.1 htold⟩
  | some h =>
      rw [Store.lifecycle?, hr, Option.map_some] at htold
      exact Or.inr ⟨h, rfl, toldState_eq_some.1 htold⟩

/-- Circumstances in which every deletion fails. -/
def undeletable : Circumstances where
  clock _ := default
  eventId _ := default
  choice _ := 0
  storeFailure _ call :=
    match call with
    | .delete _ | .deleteAll _ => some .outOfOrder
    | _ => none
  plugin _ _ := .error .emptyBody

/-- The demands to create a handle and to remove it. -/
def comingAndLeaving : List Demand :=
  [.create "lcm" ⟨"dmi", "", ""⟩ [{ (default : RequestedHandle) with id := "a" }], .remove "lcm" ["a"]]

/-- What is told of a move of the handle. -/
def tellsMove (old : Option Lifecycle) (new : Lifecycle) : Published :=
  ⟨"lcm", "a", .lifecycle ⟨default, ⟨"a"⟩, old, new, default⟩⟩

/-- The handle is created and moved to deleting. Nothing is told of it after that. -/
theorem published_undeletable :
    (history undeletable comingAndLeaving).published =
      [tellsMove none .advised, tellsMove (some .advised) .deleting] := by
  let lasting : Handle := .advised ⟨"a"⟩ ⟨"dmi", "", ""⟩ default
  obtain ⟨s, hs⟩ : ∃ s, s = Store.empty.putHandle lasting := ⟨_, rfl⟩
  have sound : s.Sound := hs ▸ Store.sound_empty.putHandle lasting
  have hr : s.record? ⟨"a"⟩ = some lasting := by
    rw [hs]
    exact (Store.record?_putHandle _ lasting _).trans (if_pos rfl)
  have hfound : s.perform (.getMany [⟨"a"⟩]) = (.ok [lasting], s) := by
    rw [Store.perform, sound.getMany_eq, List.filterMap_cons, hr]
    rfl
  have hcreate : ∃ data modules pending time turn, empty.serve undeletable
      (.create "lcm" ⟨"dmi", "", ""⟩ [{ (default : RequestedHandle) with id := "a" }]) =
        ⟨s, data, modules, pending, time, [tellsMove none .advised], turn⟩ := by
    rw [hs]
    exact ⟨_, _, _, _, _, rfl⟩
  rcases hcreate with ⟨data, modules, pending, time, turn, hw⟩
  rw [history, comingAndLeaving, List.foldl_cons, hw, List.foldl_cons, List.foldl_nil]
  have h₁ : (Inventory.remove "lcm" ["a"]).run (reply undeletable)
      ⟨s, data, modules, pending, time, [tellsMove none .advised], turn⟩ = _ := run_call rfl hfound
  have h₂ := h₁.trans (run_call rfl (sound.perform_status hr))
  have h₃ := h₂.trans (Program.run_ask _ _ _ _)
  have h₄ := h₃.trans (run_call rfl (sound.perform_saveStatusIf hr rfl _))
  -- The move is announced, and both attempts to delete the handle fail.
  have h₅ := h₄.trans (Program.run_ask _ _ _ _)
  have h₆ := h₅.trans (Program.run_ask _ _ _ _)
  have h₇ := h₆.trans (Program.run_ask _ _ _ _)
  have hchunks : Inventory.chunks Inventory.deleteChunkSize (["a"].map HandleId.mk) = [[⟨"a"⟩]] := by
    simp [Inventory.chunks]
  rw [serve, h₇, hchunks]
  rfl

/-- A handle that is created and cannot be removed. -/
theorem history_tells_records_undeletable :
    (∀ n call e, undeletable.storeFailure n call = some e → call.Deletes) ∧
      AreLives (movesOf ⟨"a"⟩ (history undeletable comingAndLeaving).published) ∧
      (movesOf ⟨"a"⟩ (history undeletable comingAndLeaving).published).map (fun e => (e.oldState, e.newState)) =
        [(none, .advised), (some .advised, .deleting)] ∧
      ∃ h, (history undeletable comingAndLeaving).store.get ⟨"a"⟩ = .ok h ∧ h.lifecycle = .deleting := by
  have hfails : ∀ n call e, undeletable.storeFailure n call = some e → call.Deletes := by
    intro n call e hfails
    cases call with
    | delete id => trivial
    | deleteAll ids => trivial
    | _ => cases hfails
  rcases history_tells_records hfails comingAndLeaving ⟨"a"⟩ with ⟨hlives, htold⟩
  rw [published_undeletable] at hlives htold ⊢
  refine ⟨hfails, hlives, rfl, ?_⟩
  -- The last event is not that of a deletion, so there is a record, and it is in the state that was told.
  rcases htold with ⟨-, hnone | hdeleted⟩ | ⟨h, hget, hlast, -⟩
  · cases hnone
  · cases hdeleted
  · exact ⟨h, hget, (Option.some.inj hlast).symm⟩

end World
end CmInventory
