import CmInventory.Proofs.Handle.Waiting
import CmInventory.Proofs.Inventory.History
import CmInventory.Proofs.Inventory.Demands
import CmInventory.Proofs.Store.Selections

/-!
# One handle and one member

A member works alone on an inventory of one handle, in a store that does not fail, and the plugin of the handle does
not know its modules. Then every module cycle is known to the request: it locks the handle if it is advised
(`World.Idle.serve_failing`), lets a locked one wait (`World.Idle.serve_waiting`), or advises it again and locks it
once more (`World.Idle.serve_retrying`).

The clock may show anything. Which of its readings is written is told by the number of requests, so that a course of
several cycles can be followed against a clock that is laid down in advance.
-/

namespace CmInventory

open Inventory

variable {c : Circumstances} {m : Member} {topic : String} {s : Store} {h : Handle} {k : Cache String} {n : Nat}
  {w : World}

/-! ## Single steps -/

/-- Where a run has come to: one handle is stored, these are the markers of the work on modules, and so many
requests were made. -/
structure World.Stage (h : Handle) (markers : Cache String) (n : Nat) (w : World) : Prop where
  holds : w.store.HoldsOnly h
  markers : w.moduleMarkers = markers
  turn : w.turn = n

/-- Where a run has come to when nobody works on the handle. -/
def World.Idle (h : Handle) (n : Nat) (w : World) : Prop :=
  ∃ markers, w.Stage h markers n ∧ markers.entries.find? h.id.text = none

/-- The handle after a move. -/
def Handle.movedTo (h : Handle) (target : Lifecycle) (reason : Option LockReason) (now : Instant) : Handle :=
  { h with status := nextStatus h.status target reason now }

/-- The handle once its plugin failed. -/
def Handle.failedAt (h : Handle) (now : Instant) : Handle :=
  h.movedTo .locked (some (h.status.failureReason .moduleSyncFailed PluginError.emptyBody.message)) now

/-- The reason to lock a handle, if there is one, has to do with its modules. -/
def Handle.FailsModules (h : Handle) : Prop :=
  h.lifecycle = .locked → h.status.lockReason.map (·.category) = some .moduleSyncFailed

namespace Inventory

theorem stage_announce {id : HandleId} {old : Option Lifecycle} {new : Lifecycle} (hw : w.Stage h k n) :
    (announce topic id old new).Ensures (.under c) (fun _ => World.Stage h k (n + 3)) w := by
  refine ensures_announce_iff.2 (under_request (under_request (under_request ?_)))
  exact ⟨hw.holds, hw.markers, congrArg (· + 3) hw.turn⟩

/-- A move that can be made takes six requests, of which the second reads the clock. -/
theorem stage_applyBatch (hc : ∀ n call, c.storeFailure n call = none) (hw : w.Stage h k n) {snapshot : Handle}
    {target : Lifecycle} {reason : Option LockReason} (hid : snapshot.id = h.id) (ht : target ≠ .deleted)
    (hne : h.lifecycle ≠ target) (hcan : h.lifecycle.canMoveTo target = true)
    (hreason : nextReason snapshot h.status target = .ok reason) :
    (applyBatch topic [(snapshot, target)]).Ensures (.under c)
      (fun result w' => result = ⟨[snapshot.id], [], []⟩ ∧
        w'.Stage (h.movedTo target reason (c.clock (n + 1))) k (n + 6)) w := by
  have hr : w.store.record? snapshot.id = some h := hid ▸ hw.holds.record
  obtain rfl := hw.turn
  have hmove : (move snapshot target).run.Ensures (.under c)
      (fun result w' => result = .ok (some h.lifecycle) ∧
        w'.Stage (h.movedTo target reason (c.clock (w.turn + 1))) k (w.turn + 3)) w := by
    refine (ensures_move_iff ht).2 (under_performed hc (hw.holds.sound.perform_status hr) ?_)
    refine ⟨fun heq => absurd heq hne, fun _ hnot => absurd hcan hnot, ?unexplained, ?writes⟩
    case unexplained =>
      intro _ _ e he
      rw [hreason] at he
      cases he
    case writes =>
      intro _ _ reason' hok
      rw [hreason, Except.ok.injEq] at hok
      subst hok
      refine under_request (ensures_saveFrom_iff.2 ?_)
      refine under_performed hc (hw.holds.sound.perform_saveStatusIf hr rfl _) ?_
      exact ⟨rfl, hw.holds.put rfl, hw.markers, rfl⟩
  have hentry : (applyEntry topic snapshot target).Ensures (.under c)
      (fun result w' => result = ⟨[snapshot.id], [], []⟩ ∧
        w'.Stage (h.movedTo target reason (c.clock (w.turn + 1))) k (w.turn + 6)) w := by
    refine ensures_applyEntry_of hmove (fun e w' h => by cases h.1) (fun w' h => by cases h.1) ?_
    rintro old w' ⟨-, hw'⟩
    exact (stage_announce hw').mono fun _ w'' hw'' => ⟨rfl, hw''⟩
  refine hentry.bind ?_
  rintro _ w' ⟨rfl, hw'⟩
  exact ⟨rfl, hw'⟩

/-- An advised handle is locked if its plugin fails. -/
theorem stage_syncModules (hc : ∀ n call, c.storeFailure n call = none)
    (hplugin : ∀ n h, c.plugin n (.modules h) = .error .emptyBody) (hw : w.Stage h k n)
    (hadvised : h.lifecycle = .advised) :
    (syncModules topic h).run.Ensures (.under c)
      (fun _ => World.Stage (h.failedAt (c.clock (n + 2))) k (n + 7)) w := by
  obtain rfl := hw.turn
  have hasked : w.nextTurn.Stage h k (w.turn + 1) := ⟨hw.holds, hw.markers, rfl⟩
  have hcan : h.lifecycle.canMoveTo .locked = true := by
    rw [hadvised]
    rfl
  have hid : (withFailure h .emptyBody).id = h.id := rfl
  have hreason : nextReason (withFailure h .emptyBody) h.status .locked =
      .ok (some (h.status.failureReason .moduleSyncFailed PluginError.emptyBody.message)) := rfl
  rw [syncModules, Action.ensures_lift_bind]
  refine under_request ?_
  rw [show (World.reply c (.plugin (.modules h)) w).1 = .error .emptyBody from hplugin _ _]
  -- The failure is written into the record before it is passed on.
  change Program.Ensures _ _
    (commit topic (withFailure h .emptyBody) .locked >>= fun _ => throw _ : Action Unit).run _
  rw [Action.ensures_bind, commit, Action.ensures_lift_bind]
  refine (stage_applyBatch hc hasked hid (by decide) (by simp [hadvised]) hcan hreason).mono ?_
  rintro _ w' ⟨rfl, hw'⟩
  exact hw'

/-- An advised handle is drawn and marked, and it is locked if its plugin fails. -/
theorem idle_visits (hc : ∀ n call, c.storeFailure n call = none)
    (hplugin : ∀ n h, c.plugin n (.modules h) = .error .emptyBody) (hw : w.Idle h n)
    (hadvised : h.lifecycle = .advised) :
    (visitAll (pick .modules) (attempt m .modules) 1 [] .empty).Ensures (.under c)
      (fun _ => World.Idle (h.failedAt (c.clock (n + 5))) (n + 11)) w := by
  rcases hw with ⟨k, hw, hfree⟩
  obtain rfl := hw.turn
  have hpick : (pickAdvised []).run.Ensures (.under c)
      (fun picked w' => picked = .ok (some h) ∧ w'.Stage h k (w.turn + 2)) w := by
    rw [pickAdvised, Action.ensures_store_bind]
    refine under_performed hc (hw.holds.perform_byLifecycle .advised) ?_
    rw [if_pos hadvised]
    change Program.Ensures _ _ (_ : Action (Option Handle)).run _
    rw [Action.ensures_lift_bind]
    -- Whichever number is chosen, there is one handle to draw.
    refine Program.ensures_draw (fun _ => trivial) (fun hnone => by simp at hnone) ?_
    intro g others last i w' hperm hreply
    obtain ⟨rfl, -⟩ : g = h ∧ others = [] := by simpa using hperm
    cases hreply
    exact ⟨rfl, hw.holds, hw.markers, rfl⟩
  have hvisit : ∀ w' : World, w'.Stage h k (w.turn + 2) → (attempt m .modules h).Ensures (.under c)
      (fun _ => World.Idle (h.failedAt (c.clock (w.turn + 5))) (w.turn + 11)) w' := by
    intro w' hw'
    have hlive : w'.nextTurn.moduleMarkers.live? w'.nextTurn.time h.id.text = none := by
      rw [Cache.live?, show w'.nextTurn.moduleMarkers = k from hw'.markers, hfree]
      rfl
    rw [attempt, whileMarked, Program.ensures_bind]
    refine under_request ?_
    -- There is no marker, so one is put.
    rw [World.reply, World.mark, World.markers, Cache.putIfAbsent, hlive]
    have hmarked : ∀ k, (w'.nextTurn.setMarkers .modules k).Stage h k (w.turn + 3) :=
      fun _ => ⟨hw'.holds, rfl, congrArg (· + 1) hw'.turn⟩
    refine (stage_syncModules hc hplugin (hmarked _) hadvised).bind ?_
    refine fun result w₁ hw₁ => under_request ⟨_, ⟨hw₁.holds, rfl, congrArg (· + 1) hw₁.turn⟩, ?_⟩
    exact (Dictionary.find?_erase _ _ _).trans (if_pos rfl)
  rw [visitAll]
  refine hpick.bind ?_
  rintro _ w₁ ⟨rfl, hw₁⟩
  exact (hvisit w₁ hw₁).bind fun _ w₂ hw₂ => hw₂

/-- A handle that is not advised is not drawn. -/
theorem idle_rests (hc : ∀ n call, c.storeFailure n call = none) (hw : w.Idle h n)
    (hadvised : h.lifecycle ≠ .advised) :
    (visitAll (pick .modules) (attempt m .modules) 1 [] .empty).Ensures (.under c)
      (fun _ => World.Idle h (n + 1)) w := by
  rcases hw with ⟨k, hw, hfree⟩
  have hpick : (pickAdvised []).run.Ensures (.under c)
      (fun picked w' => picked = .ok none ∧ w'.Idle h (n + 1)) w := by
    rw [pickAdvised, Action.ensures_store_bind]
    refine under_performed hc (hw.holds.perform_byLifecycle .advised) ?_
    rw [if_neg hadvised]
    exact ⟨rfl, k, ⟨hw.holds, hw.markers, congrArg (· + 1) hw.turn⟩, hfree⟩
  rw [visitAll]
  refine hpick.bind ?_
  rintro _ w₁ ⟨rfl, hw₁⟩
  exact hw₁

/-- A handle that is locked since its plugin failed is found if it has waited long enough. -/
theorem stage_dueForRetry (hc : ∀ n call, c.storeFailure n call = none) (hw : w.Stage h k n) {now : Instant}
    {base : Interval}
    (hreason : h.FailsModules) :
    (dueForRetry now base).run.Ensures (.under c) (fun result w' => w'.Stage h k (n + 2) ∧
      result = .ok (if h.status.isReadyForRetry now base then [h] else [])) w := by
  rw [dueForRetry, Action.ensures_store_bind]
  refine under_performed hc (hw.holds.perform_byLockCategory .moduleSyncFailed) ?_
  -- The other category is asked for all the same.
  change Program.Ensures _ _ (_ : Action (List Handle)).run _
  rw [Action.ensures_store_bind]
  refine under_performed hc (hw.holds.perform_byLockCategory .moduleUpgradeFailed) ?_
  refine ⟨⟨hw.holds, hw.markers, congrArg (· + 2) hw.turn⟩, congrArg Except.ok ?_⟩
  by_cases hlocked : h.lifecycle = .locked
  · simp [hlocked, hreason hlocked, List.filter_singleton]
  · have hready : h.status.isReadyForRetry now base = false := if_pos hlocked
    simp [hlocked, hready]

/-- A pass that finds nothing to advise again. -/
theorem idle_waits (hc : ∀ n call, c.storeFailure n call = none) (hw : w.Idle h n)
    (hreason : h.FailsModules)
    (hready : h.status.isReadyForRetry (c.clock n) m.retryBase = false) :
    (readvise m).Ensures (.under c) (fun _ => World.Idle h (n + 3)) w := by
  rcases hw with ⟨k, hw, hfree⟩
  obtain rfl := hw.turn
  have hread : w.nextTurn.Stage h k (w.turn + 1) := ⟨hw.holds, hw.markers, rfl⟩
  rw [readvise, Program.ensures_bind]
  refine under_request ?_
  refine (stage_dueForRetry hc hread hreason).bind ?_
  rintro _ w' ⟨hw', rfl⟩
  rw [if_neg (by simp [World.reply, hready])]
  exact ⟨k, hw', hfree⟩

/-- A pass that advises the handle again. -/
theorem idle_readvises (hc : ∀ n call, c.storeFailure n call = none) (hw : w.Idle h n)
    (hreason : h.FailsModules)
    (hready : h.status.isReadyForRetry (c.clock n) m.retryBase = true) :
    (readvise m).Ensures (.under c)
      (fun _ => World.Idle (h.movedTo .advised h.status.lockReason (c.clock (n + 4))) (n + 9)) w := by
  rcases hw with ⟨k, hw, hfree⟩
  obtain rfl := hw.turn
  have hlocked : h.lifecycle = .locked := HandleStatus.lifecycle_of_isReadyForRetry hready
  have hread : w.nextTurn.Stage h k (w.turn + 1) := ⟨hw.holds, hw.markers, rfl⟩
  have hcan : h.lifecycle.canMoveTo .advised = true := by
    rw [hlocked]
    rfl
  have hkept : nextReason h h.status .advised = .ok h.status.lockReason := congrArg Except.ok (if_pos hlocked)
  rw [readvise, Program.ensures_bind]
  refine under_request ?_
  refine (stage_dueForRetry hc hread hreason).bind ?_
  rintro _ w' ⟨hw', rfl⟩
  rw [if_pos (by simp [World.reply, hready])]
  refine (stage_applyBatch hc hw' rfl (by decide) (by simp [hlocked]) hcan hkept).bind ?_
  rintro _ w'' ⟨rfl, hw''⟩
  exact ⟨k, hw'', hfree⟩

end Inventory

/-! ## Cycles -/

namespace World.Idle

/-- An advised handle is locked. -/
theorem serve_failing (hc : ∀ n call, c.storeFailure n call = none)
    (hplugin : ∀ n h, c.plugin n (.modules h) = .error .emptyBody) (hw : w.Idle h n)
    (hadvised : h.lifecycle = .advised) :
    (w.serve c (.moduleCycle m 1)).Idle (h.failedAt (c.clock (n + 8))) (n + 14) := by
  have hother : h.lifecycle ≠ .locked := by simp [hadvised]
  -- What is not locked is not due, whatever the clock shows.
  have hpass := idle_waits (m := m) hc hw (fun hlocked => absurd hlocked hother) (if_pos hother)
  have hcycle : (moduleCycle m 1).Ensures (.under c)
      (fun _ => World.Idle (h.failedAt (c.clock (n + 8))) (n + 14)) w := by
    rw [moduleCycle_eq]
    exact hpass.bind fun _ w' hw' => idle_visits hc hplugin hw' hadvised
  exact hcycle.under

/-- A locked handle is left alone until it has waited long enough. -/
theorem serve_waiting (hc : ∀ n call, c.storeFailure n call = none) (hw : w.Idle h n)
    (hlocked : h.lifecycle = .locked) (hreason : h.FailsModules)
    (hready : h.status.isReadyForRetry (c.clock n) m.retryBase = false) :
    (w.serve c (.moduleCycle m 1)).Idle h (n + 4) := by
  have hcycle : (moduleCycle m 1).Ensures (.under c) (fun _ => World.Idle h (n + 4)) w := by
    rw [moduleCycle_eq]
    exact (idle_waits hc hw hreason hready).bind fun _ w' hw' => idle_rests hc hw' (by simp [hlocked])
  exact hcycle.under

/-- A handle that has waited long enough is advised again, with the reason that it had, and locked once more. -/
theorem serve_retrying (hc : ∀ n call, c.storeFailure n call = none)
    (hplugin : ∀ n h, c.plugin n (.modules h) = .error .emptyBody) (hw : w.Idle h n) (hreason : h.FailsModules)
    (hready : h.status.isReadyForRetry (c.clock n) m.retryBase = true) :
    (w.serve c (.moduleCycle m 1)).Idle
      ((h.movedTo .advised h.status.lockReason (c.clock (n + 4))).failedAt (c.clock (n + 14))) (n + 20) := by
  have hcycle : (moduleCycle m 1).Ensures (.under c) (fun _ => World.Idle
      ((h.movedTo .advised h.status.lockReason (c.clock (n + 4))).failedAt (c.clock (n + 14))) (n + 20)) w := by
    rw [moduleCycle_eq]
    exact (idle_readvises hc hw hreason hready).bind fun _ w' hw' => idle_visits hc hplugin hw' rfl
  exact hcycle.under

end World.Idle
end CmInventory
