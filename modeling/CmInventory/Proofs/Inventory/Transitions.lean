import CmInventory.Inventory.Transition
import CmInventory.Proofs.Program.Ensures

/-!
# Changes of a status, in any setting

Announcements, moves and the changes of ready handles are judged in many settings: alone, beside others, under given
circumstances, with their turns logged or recorded. What is the same in all of them is stated here once, for an
arbitrary setting and an arbitrary assertion `Q` about the end.

Each rule is exact. It leaves the single calls of the store and the clock to the setting, and the cases of the
function are the fields of what it needs (`MoveNeeds`, `NoteNeeds`, `SwitchNeeds`) once a status was read.
-/

namespace CmInventory
namespace Inventory

variable {σ : Type} {E : Setting σ} {s : σ} {id : HandleId} {snapshot : Handle} {target : Lifecycle}
  {current : HandleStatus} {enabled : Bool}

/-! ## Announcements -/

/-- An event is published under a new id, with the time at which that id was drawn. -/
theorem ensures_announce_iff {topic : String} {old : Option Lifecycle} {new : Lifecycle}
    {Q : Unit → σ → Prop} :
    (announce topic id old new).Ensures E Q s ↔
      (Program.request .newEventId).Ensures E (fun eventId => Program.now.Ensures E fun timestamp =>
        (Program.request (.publish
          ⟨topic, id.text, .lifecycle ⟨eventId, id, old, new, timestamp⟩⟩)).Ensures E Q) s := by
  rw [announce, Program.ensures_bind]
  exact Program.ensures_congr fun eventId s' => Program.ensures_bind

/-! ## Writes of a status -/

/-- How a write over an expected state ends, given the answer of the store. -/
def saveResult (id : HandleId) (old : Lifecycle) : Except StoreError Bool → Except InventoryError Unit
  | .ok true => .ok ()
  | .ok false => .error (.concurrentModification id old)
  | .error e => .error (.ofStore e)

theorem ensures_saveFrom_iff {old : Lifecycle} {status : HandleStatus}
    {Q : Except InventoryError Unit → σ → Prop} :
    (saveFrom id old status).run.Ensures E Q s ↔
      (Program.store (.saveStatusIf id old status)).Ensures E (fun answer => Q (saveResult id old answer)) s := by
  rw [saveFrom, Action.ensures_store_bind]
  refine Program.ensures_congr fun answer s' => ?_
  rcases answer with e | written
  · exact Iff.rfl
  · cases written <;> exact Iff.rfl

/-! ## Moves -/

/-- What a move needs once it has read a status, in order to end as `Q` says. -/
structure MoveNeeds (E : Setting σ) (Q : Except InventoryError (Option Lifecycle) → σ → Prop)
    (snapshot : Handle) (target : Lifecycle) (current : HandleStatus) (s : σ) : Prop where
  /-- The handle is in the target state already. -/
  stays : current.lifecycle = target → Q (.ok none) s
  /-- There is no way to the target state. -/
  refused : current.lifecycle ≠ target → ¬ current.lifecycle.canMoveTo target = true →
    Q (.error (.illegalTransition snapshot.id current.lifecycle target)) s
  /-- The handle is to be locked, and the snapshot does not say why. -/
  unexplained : current.lifecycle ≠ target → current.lifecycle.canMoveTo target = true →
    ∀ e, nextReason snapshot current target = .error e → Q (.error e) s
  /-- The next status is written, unless the handle has left the state that was read. -/
  writes : current.lifecycle ≠ target → current.lifecycle.canMoveTo target = true →
    ∀ reason, nextReason snapshot current target = .ok reason →
      Program.now.Ensures E (fun now =>
        (saveFrom snapshot.id current.lifecycle (nextStatus current target reason now)).run.Ensures E
          fun result => Q (result.map fun _ => some current.lifecycle)) s

/-- The last move is decided by the snapshot and calls nothing. -/
theorem run_move_deleted (snapshot : Handle) :
    (move snapshot .deleted).run = .done ((completeDeletion snapshot).map some) := by
  rw [move, if_pos rfl]
  cases completeDeletion snapshot <;> rfl

/-- The last move of a handle that was deleting needs no call of the store. -/
theorem applyEntry_gone {topic : String} (hlife : snapshot.lifecycle = .deleting) :
    applyEntry topic snapshot .deleted = (do
      announce topic snapshot.id (some .deleting) .deleted
      return ⟨[snapshot.id], [], []⟩) := by
  rw [applyEntry, run_move_deleted, completeDeletion, hlife]
  rfl

/-- Any other move reads the status of its handle first, and fails if it cannot be read. -/
theorem ensures_move_iff {Q : Except InventoryError (Option Lifecycle) → σ → Prop} (ht : target ≠ .deleted) :
    (move snapshot target).run.Ensures E Q s ↔
      (Program.store (.status snapshot.id)).Ensures E
        (Action.OnAnswer Q (MoveNeeds E Q snapshot target)) s := by
  rw [move, if_neg ht, Action.ensures_store_bind]
  refine Program.ensures_congr fun answer s' => ?_
  rcases answer with e | current
  · exact Iff.rfl
  change ((if current.lifecycle = target then pure none else _ : Action _)).run.Ensures E Q s' ↔
    MoveNeeds E Q snapshot target current s'
  -- One case for each field, in which the others hold for no reason.
  by_cases hthere : current.lifecycle = target
  · rw [if_pos hthere]
    exact ⟨fun h => ⟨fun _ => h, fun hne => absurd hthere hne, fun hne => absurd hthere hne,
      fun hne => absurd hthere hne⟩, fun h => h.stays hthere⟩
  rw [if_neg hthere]
  by_cases hcan : current.lifecycle.canMoveTo target = true
  · rw [if_pos hcan, Action.ensures_ofExcept_bind]
    cases hreason : nextReason snapshot current target with
    | error e =>
        refine ⟨fun h => ⟨fun heq => absurd heq hthere, fun _ hnot => absurd hcan hnot, ?_, ?_⟩,
          fun h => h.unexplained hthere hcan e hreason⟩
        · intro _ _ e' he'
          rw [hreason, Except.error.injEq] at he'
          exact he' ▸ h
        · intro _ _ reason hok
          rw [hreason] at hok
          cases hok
    | ok reason =>
        rw [Action.goes_ok, Action.ensures_lift_bind]
        simp only [Action.ensures_bind_pure]
        refine ⟨fun h => ⟨fun heq => absurd heq hthere, fun _ hnot => absurd hcan hnot, ?_, ?_⟩,
          fun h => h.writes hthere hcan reason hreason⟩
        · intro _ _ e he
          rw [hreason] at he
          cases he
        · intro _ _ reason' hok
          rw [hreason, Except.ok.injEq] at hok
          exact hok ▸ h
  · rw [if_neg hcan]
    exact ⟨fun h => ⟨fun heq => absurd heq hthere, fun _ _ => h, fun _ h => absurd h hcan,
      fun _ h => absurd h hcan⟩, fun h => h.refused hthere hcan⟩

/-- An entry of a batch is a move that is announced if it was made. -/
theorem ensures_applyEntry_of {topic : String} {Q : BatchResult → σ → Prop}
    {M : Except InventoryError (Option Lifecycle) → σ → Prop}
    (hmove : (move snapshot target).run.Ensures E M s)
    (hfailed : ∀ e s', M (.error e) s' → Q ⟨[], [], [(snapshot.id, e)]⟩ s')
    (hstays : ∀ s', M (.ok none) s' → Q ⟨[], [snapshot.id], []⟩ s')
    (hmoved : ∀ old s', M (.ok (some old)) s' →
      (announce topic snapshot.id (some old) target).Ensures E (fun _ => Q ⟨[snapshot.id], [], []⟩) s') :
    (applyEntry topic snapshot target).Ensures E Q s := by
  rw [applyEntry]
  refine hmove.bind fun result s' hresult => ?_
  rcases result with e | _ | old
  · exact hfailed e s' hresult
  · exact hstays s' hresult
  · exact Program.ensures_bind.2 (hmoved old s' hresult)

/-! ## Changes of ready handles -/

/-- What is needed of the note that data are in step, once it has read a status. -/
structure NoteNeeds (E : Setting σ) (Q : Except InventoryError Unit → σ → Prop) (id : HandleId)
    (current : HandleStatus) (s : σ) : Prop where
  unready : current.lifecycle ≠ .ready → Q (.error (.invalidState id current.lifecycle)) s
  writes : current.lifecycle = .ready →
    Program.now.Ensures E (fun now =>
      (saveFrom id .ready (current.markSynchronized now)).run.Ensures E Q) s

theorem ensures_markSynchronized_iff {Q : Except InventoryError Unit → σ → Prop} :
    (markSynchronized id).run.Ensures E Q s ↔
      (Program.store (.status id)).Ensures E (Action.OnAnswer Q (NoteNeeds E Q id)) s := by
  rw [markSynchronized, Action.ensures_store_bind]
  refine Program.ensures_congr fun answer s' => ?_
  rcases answer with e | current
  · exact Iff.rfl
  change ((if current.lifecycle = .ready then _ else _ : Action Unit)).run.Ensures E Q s' ↔
    NoteNeeds E Q id current s'
  by_cases hready : current.lifecycle = .ready
  · rw [if_pos hready, Action.ensures_lift_bind]
    exact ⟨fun h => ⟨fun hne => absurd hready hne, fun _ => h⟩, fun h => h.writes hready⟩
  · rw [if_neg hready]
    exact ⟨fun h => ⟨fun _ => h, fun heq => absurd heq hready⟩, fun h => h.unready hready⟩

/-- What is done about the stored data once the switch was written. -/
def dropData (id : HandleId) (current : HandleStatus) (enabled : Bool) : Action Unit :=
  if !enabled && current.syncState = .synchronized then Action.store (.deleteData id) else return ()

/-- What a switch of data synchronization needs once it has read a status. -/
structure SwitchNeeds (E : Setting σ) (Q : Except InventoryError Unit → σ → Prop) (id : HandleId)
    (enabled : Bool) (current : HandleStatus) (s : σ) : Prop where
  already : current.dataSync = enabled → Q (.ok ()) s
  unready : current.dataSync ≠ enabled → current.lifecycle ≠ .ready →
    Q (.error (.invalidState id current.lifecycle)) s
  writes : current.dataSync ≠ enabled → current.lifecycle = .ready →
    Program.now.Ensures E (fun now =>
      (saveFrom id .ready (current.setDataSync enabled now)).run.Ensures E
        (Action.Goes E (fun _ => dropData id current enabled) Q)) s

theorem ensures_setDataSync_iff {Q : Except InventoryError Unit → σ → Prop} :
    (setDataSync id enabled).run.Ensures E Q s ↔
      (Program.store (.status id)).Ensures E (Action.OnAnswer Q (SwitchNeeds E Q id enabled)) s := by
  rw [setDataSync, Action.ensures_store_bind]
  refine Program.ensures_congr fun answer s' => ?_
  rcases answer with e | current
  · exact Iff.rfl
  change ((if current.dataSync = enabled then pure () else _ : Action Unit)).run.Ensures E Q s' ↔
    SwitchNeeds E Q id enabled current s'
  by_cases hset : current.dataSync = enabled
  · rw [if_pos hset]
    exact ⟨fun h => ⟨fun _ => h, fun hne => absurd hset hne, fun hne => absurd hset hne⟩,
      fun h => h.already hset⟩
  rw [if_neg hset]
  by_cases hready : current.lifecycle = .ready
  · rw [if_pos hready, Action.ensures_lift_bind]
    simp only [Action.ensures_bind]
    exact ⟨fun h => ⟨fun heq => absurd heq hset, fun _ hne => absurd hready hne, fun _ _ => h⟩,
      fun h => h.writes hset hready⟩
  · rw [if_neg hready]
    exact ⟨fun h => ⟨fun heq => absurd heq hset, fun _ _ => h, fun _ heq => absurd heq hready⟩,
      fun h => h.unready hset hready⟩

/-- The data of a handle are dropped by one call of the store, or they stay. -/
theorem ensures_dropData_iff {Q : Except InventoryError Unit → σ → Prop} :
    (dropData id current enabled).run.Ensures E Q s ↔
      if !enabled && current.syncState = .synchronized then
        (Program.store (.deleteData id)).Ensures E (fun answer => Q (answer.mapError .ofStore)) s
      else Q (.ok ()) s := by
  rw [dropData]
  split
  · rw [Action.run_store, Program.ensures_bind]
    exact Iff.rfl
  · exact Iff.rfl

end Inventory
end CmInventory
