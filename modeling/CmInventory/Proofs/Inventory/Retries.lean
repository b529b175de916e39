import CmInventory.Proofs.Inventory.Failures
import CmInventory.Proofs.Inventory.OneHandle
import CmInventory.Proofs.Inventory.Picks

/-!
# Failures are counted and retried in time

The count of failed attempts is kept in the reason of the lock. It has to survive that the handle is advised
again, that its properties are updated and that any other demands are served in between. Every operation that
may concern a handle is judged here with what it adds to the tale of the handle; all others add no more than
readings of the clock.
-/

namespace CmInventory

open Inventory

/-! ## Operations -/

section

variable {α : Type} {id : HandleId} {w : World} {tale : List Happening} {topic : String}

/-- The record of a handle was left alone, and no wait was begun. -/
structure Undisturbed (id : HandleId) (s s' : Recounted) : Prop where
  regular : Regular id s'
  record : s'.1.store.record? id = s.1.store.record? id
  waits : ∀ status, Waits status s'.2 → Waits status s.2

theorem Undisturbed.refl {s : Recounted} (h : Regular id s) : Undisturbed id s s :=
  ⟨h, rfl, fun _ h => h⟩

theorem Undisturbed.trans {s t u : Recounted} (h₁ : Undisturbed id s t) (h₂ : Undisturbed id t u) :
    Undisturbed id s u :=
  ⟨h₂.regular, h₂.record.trans h₁.record, fun status h => h₁.waits status (h₂.waits status h)⟩

/-- A request that leaves the handle alone. -/
theorem undisturbed_request {r : Request} (hr : r.Leaves id) {s : Recounted} (hs : Regular id s) :
    (Program.request r).Ensures (.telling id) (fun _ s' => Undisturbed id s s') s := by
  rcases s with ⟨w, tale⟩
  refine telling_request fun reply w' hans => ?_
  have hsame := hans.record?_of_leaves hs.sound hr
  have hstatus : Regular id (w', tale) :=
    hs.of_status (World.Answers.sound hans hs.sound) (congrArg (Option.map Handle.status) hsame)
  rcases happenings_of_leaves hr hsame with htold | ⟨now, htold⟩
  · rw [htold, List.append_nil]
    exact ⟨hstatus, hsame, fun _ h => h⟩
  · rw [htold]
    refine ⟨hstatus.aside (Or.inl ⟨now, rfl⟩), hsame, fun status h => ?_⟩
    rcases (waits_snoc.1 h).2 with hclock | hwaits
    · cases hclock
    · exact hwaits.1

theorem undisturbed_of_asks {p : Program α} (h : p.Asks (Request.Leaves id)) {s : Recounted}
    (hs : Regular id s) : p.Ensures (.telling id) (fun _ s' => Undisturbed id s s') s := by
  refine h.ensures (Undisturbed.refl hs) fun r t hr ht => ⟨trivial, fun reply t' hans => ?_⟩
  exact ht.trans ((undisturbed_request hr ht.regular).2 reply t' hans)

/-! ### Operations on other handles -/

theorem Request.Moves.leaves {i : HandleId} {r : Request} (h : r.Moves i) (hi : i ≠ id) : r.Leaves id := by
  cases r with
  | store call =>
      cases call with
      | status j => exact fun hwrites => hwrites
      | saveStatusIf j expected status => exact fun heq => hi (h.symm.trans heq)
      | _ => exact h.elim
  | plugin call => exact h.elim
  | _ => trivial

namespace Inventory

theorem leaves_announce {i : HandleId} {old : Option Lifecycle} {new : Lifecycle} :
    (announce topic i old new).Asks (Request.Leaves id) := by
  refine (Program.asks_request trivial).bind fun _ => ?_
  exact (Program.asks_request trivial).bind fun _ => Program.asks_request trivial

theorem leaves_pick {kind : SyncKind} {visited : List HandleId} :
    (pick kind visited).run.Asks (Request.Leaves id) :=
  asks_pick (fun _ => trivial) (fun _ hwrites => hwrites) (fun _ hwrites => hwrites)
    fun _ hwrites => hwrites

theorem leaves_applyEntry {snapshot : Handle} {target : Lifecycle} (h : snapshot.id ≠ id) :
    (applyEntry topic snapshot target).Asks (Request.Leaves id) :=
  moves_applyEntry.mono fun _ hr => hr.leaves h

theorem leaves_syncData {h : Handle} (hid : h.id ≠ id) : (syncData h).run.Asks (Request.Leaves id) := by
  rw [syncData]
  split
  · refine Action.asks_bind (Action.asks_plugin trivial) fun reply => ?_
    refine Action.asks_bind (Program.asks_done _) fun data => ?_
    refine Action.asks_bind (Action.asks_store fun hwrites => hwrites) fun _ => ?_
    exact moves_markSynchronized.mono fun _ hr => hr.leaves hid
  · exact Program.asks_done _

theorem leaves_syncModules {h : Handle} (hid : h.id ≠ id) :
    (syncModules topic h).run.Asks (Request.Leaves id) := by
  have hcommit : ∀ snapshot target, snapshot.id = h.id →
      (commit topic snapshot target).run.Asks (Request.Leaves id) :=
    fun snapshot target hsame => (moves_commit snapshot target).mono fun _ hr => hr.leaves (hsame ▸ hid)
  rw [syncModules]
  refine Action.asks_bind (Action.asks_lift (Program.asks_request hid)) fun result => ?_
  cases result with
  | ok modules =>
      exact Action.asks_bind (Action.asks_store fun hwrites => hwrites) fun _ => hcommit h .ready rfl
  | error e => exact Action.asks_bind (hcommit (withFailure h e) .locked rfl) fun _ => Program.asks_done _

/-! ### Moves -/

theorem tells_saveFrom {old : Lifecycle} {status : HandleStatus} {h : Handle}
    {Q : Except InventoryError Unit → Recounted → Prop} (hs : w.store.Sound) (hr : w.store.record? id = some h)
    (hl : h.lifecycle = old)
    (hQ : ∀ w', w'.store = w.store.putHandle { h with status := status } →
      Q (.ok ()) (w', tale ++ if h.status = status then [] else [.changed status])) :
    (saveFrom id old status).run.Ensures (.telling id) Q (w, tale) := by
  refine ensures_saveFrom_iff.2 (tells_call fun reply w' hperform => ?_)
  rw [hs.perform_saveStatusIf hr hl] at hperform
  rcases Prod.mk.inj hperform with ⟨rfl, hstore⟩
  have hafter : w'.store.record? id = some { h with status := status } := by
    rw [hstore, Store.record?_putHandle]
    exact if_pos (hs.id_of_record? hr)
  rw [hr, hafter]
  exact hQ w' hstore

/-- What a move of the handle leaves behind, and what is told of it. -/
def MovesOn (snapshot : Handle) (target : Lifecycle) (s : Recounted) :
    Except InventoryError (Option Lifecycle) → Recounted → Prop
  | .ok (some _), s' =>
      ∃ h reason now, s.1.store.record? snapshot.id = some h ∧ h.lifecycle ≠ target ∧
        h.lifecycle.canMoveTo target = true ∧ nextReason snapshot h.status target = .ok reason ∧
        s'.1.store = s.1.store.putHandle { h with status := nextStatus h.status target reason now } ∧
        s'.2 = s.2 ++ [.clock now, .changed (nextStatus h.status target reason now)]
  | .ok none, s' =>
      s'.1.store = s.1.store ∧ s'.2 = s.2 ∧ ∃ h, s.1.store.record? snapshot.id = some h ∧ h.lifecycle = target
  | .error _, s' =>
      s'.1.store = s.1.store ∧ s'.2 = s.2 ∧ ∀ h, s.1.store.record? snapshot.id = some h →
        h.lifecycle.canMoveTo target = true → ∀ reason, nextReason snapshot h.status target ≠ .ok reason

theorem tells_move {snapshot : Handle} {target : Lifecycle} (hs : w.store.Sound) (ht : target ≠ .deleted)
    (hid : snapshot.id = id) :
    (move snapshot target).run.Ensures (.telling id) (MovesOn snapshot target (w, tale)) (w, tale) := by
  subst hid
  refine (ensures_move_iff ht).2 (tells_read rfl fun w₁ h₁ => ?_)
  rw [show (w.store.perform (.status snapshot.id)).1 = w.store.status snapshot.id from rfl, hs.status_eq]
  cases hr : w.store.record? snapshot.id with
  | none =>
      refine ⟨h₁, rfl, ?_⟩
      intro h hh
      rw [hr] at hh
      cases hh
  | some h =>
      have honly : ∀ g, w.store.record? snapshot.id = some g → g = h := by
        intro g hg
        rw [hr, Option.some.injEq] at hg
        exact hg.symm
      refine ⟨fun heq => ⟨h₁, rfl, h, hr, heq⟩, ?refused, ?unexplained, ?writes⟩
      case refused =>
        refine fun _ hmove => ⟨h₁, rfl, fun g hg hcan => ?_⟩
        rw [honly g hg] at hcan
        exact absurd hcan hmove
      case unexplained =>
        refine fun _ _ e hreason => ⟨h₁, rfl, fun g hg _ reason hok => ?_⟩
        rw [honly g hg, hreason] at hok
        cases hok
      case writes =>
        intro hne hmove reason hreason
        refine tells_now fun now w₂ h₂ => ?_
        have h₂ := h₂.trans h₁
        refine tells_saveFrom (h₂ ▸ hs) (h₂ ▸ hr) rfl fun w₃ hstore => ?_
        rw [h₂] at hstore
        -- The target is another state, so that the status is another one too.
        have hother : h.status ≠ nextStatus h.status target reason now := by
          intro heq
          exact hne (congrArg HandleStatus.lifecycle heq)
        refine ⟨h, reason, now, hr, hne, hmove, hreason, hstore, ?_⟩
        rw [if_neg hother, List.append_assoc]
        rfl

/-- An entry of a batch is a move that is announced. -/
theorem tells_applyEntry {snapshot : Handle} {target : Lifecycle} (hs : w.store.Sound)
    (ht : target ≠ .deleted) (hid : snapshot.id = id)
    (hmoved : ∀ result s₁, MovesOn snapshot target (w, tale) result s₁ → Regular id s₁) :
    (applyEntry topic snapshot target).Ensures (.telling id)
      (fun _ s' => ∃ result s₁, MovesOn snapshot target (w, tale) result s₁ ∧ Undisturbed id s₁ s')
      (w, tale) := by
  refine ensures_applyEntry_of (tells_move hs ht hid) ?failed ?stays ?moved
  case failed => exact fun e s₁ hmove => ⟨_, s₁, hmove, .refl (hmoved _ s₁ hmove)⟩
  case stays => exact fun s₁ hmove => ⟨_, s₁, hmove, .refl (hmoved _ s₁ hmove)⟩
  case moved =>
    refine fun old s₁ hmove => (undisturbed_of_asks leaves_announce (hmoved _ s₁ hmove)).mono ?_
    exact fun _ s₂ h₂ => ⟨_, s₁, hmove, h₂⟩

/-- The handle is regular after a status was written that fits, if it did not have to wait or is deleted. -/
theorem regular_of_written {w' : World} {tale' : List Happening} {h : Handle} {status : HandleStatus}
    {now : Instant} (hw : Regular id (w, tale)) (hr : w.store.record? id = some h)
    (hstore : w'.store = w.store.putHandle { h with status := status })
    (htold : tale' = tale ++ [.clock now, .changed status]) (hfits : status.Fits (failures tale))
    (hfree : status.lifecycle = .deleting ∨ ∀ s, ¬ Waits s tale) : Regular id (w', tale') := by
  have hclock := hw.aside (Or.inl ⟨now, rfl⟩)
  have hafter : w'.store.record? id = some { h with status := status } := by
    rw [hstore, Store.record?_putHandle]
    exact if_pos (hw.sound.id_of_record? hr)
  have hs : w'.store.Sound := by
    rw [hstore]
    exact hw.sound.putHandle _
  have hcount : failures (tale ++ [.clock now]) = failures tale := failures_append _ _
  have hfree' : status.lifecycle = .deleting ∨ ∀ s, ¬ Waits s (tale ++ [.clock now]) := by
    refine hfree.imp_right fun hnone s hwaits => ?_
    rcases (waits_snoc.1 hwaits).2 with heq | hwaits
    · cases heq
    · exact hnone s hwaits.1
  have hchanged := hclock.changed hs hafter (by rw [hcount]; exact hfits) hfree'
  rw [htold]
  simpa using hchanged

/-- An entry of a batch other than one to lock. The handle comes to the target, or it stays undisturbed. -/
theorem regular_entry {snapshot : Handle} {target : Lifecycle} {s : Recounted} (hs : Regular id s)
    (ht : target ≠ .deleted)
    (hmove : snapshot.id = id → ∀ h reason now, s.1.store.record? id = some h →
      h.lifecycle.canMoveTo target = true → nextReason snapshot h.status target = .ok reason →
      (nextStatus h.status target reason now).Fits (failures s.2) ∧
        (target = .deleting ∨ ∀ t, ¬ Waits t s.2)) :
    (applyEntry topic snapshot target).Ensures (.telling id)
      (fun _ s' => Regular id s' ∧ (Undisturbed id s s' ∨
        ∃ h, s'.1.store.record? id = some h ∧ h.lifecycle = target)) s := by
  rcases s with ⟨w, tale⟩
  by_cases hid : snapshot.id = id
  · have hmoved : ∀ result s₁, MovesOn snapshot target (w, tale) result s₁ → Regular id s₁ ∧
        (Undisturbed id (w, tale) s₁ ∨ ∃ h, s₁.1.store.record? id = some h ∧ h.lifecycle = target) := by
      have hstays : ∀ w₁ : World, w₁.store = w.store → Undisturbed id (w, tale) (w₁, tale) :=
        fun w₁ h₁ => ⟨hs.of_status (h₁ ▸ hs.sound) (by rw [h₁]), by rw [h₁], fun _ h => h⟩
      rintro (e | _ | old) ⟨w₁, tale₁⟩ hmoves
      · rcases hmoves with ⟨hstore, rfl, -⟩
        exact ⟨(hstays w₁ hstore).regular, Or.inl (hstays w₁ hstore)⟩
      · rcases hmoves with ⟨hstore, rfl, -⟩
        exact ⟨(hstays w₁ hstore).regular, Or.inl (hstays w₁ hstore)⟩
      · rcases hmoves with ⟨h, reason, now, hr, -, hcan, hreason, hstore, htold⟩
        rw [hid] at hr
        rcases hmove hid h reason now hr hcan hreason with ⟨hfits, hfree⟩
        refine ⟨regular_of_written hs hr hstore htold hfits hfree,
          Or.inr ⟨{ h with status := nextStatus h.status target reason now }, ?_, rfl⟩⟩
        rw [hstore, Store.record?_putHandle]
        exact if_pos (hs.sound.id_of_record? hr)
    refine (tells_applyEntry hs.sound ht hid fun result s₁ h => (hmoved result s₁ h).1).mono ?_
    rintro _ s' ⟨result, s₁, hmoves, hundisturbed⟩
    refine ⟨hundisturbed.regular, (hmoved result s₁ hmoves).2.imp (·.trans hundisturbed) ?_⟩
    rintro ⟨h, hr, hlife⟩
    exact ⟨h, hundisturbed.record.trans hr, hlife⟩
  · exact (undisturbed_of_asks (leaves_applyEntry hid) hs).mono fun _ _ h => ⟨h.regular, Or.inl h⟩

/-- Removals mark handles, among them those that have to wait. -/
theorem regular_marks {snapshots : List Handle} {s : Recounted} (hs : Regular id s) :
    (applyBatch topic (snapshots.map fun h => (h, .deleting))).Ensures (.telling id)
      (fun _ => Regular id) s := by
  induction snapshots generalizing s with
  | nil => exact hs
  | cons snapshot rest ih =>
      rw [List.map_cons, applyBatch]
      refine (regular_entry hs (by decide) ?_).bind fun here s₁ h₁ => (ih h₁.1).bind fun _ _ h => h
      rintro - h reason now - - hreason
      cases hreason
      exact ⟨rfl, Or.inl rfl⟩

/-- The handles of a batch that are advised again do not have to wait. -/
theorem regular_advises {snapshots : List Handle} {s : Recounted} (hs : Regular id s)
    (hfree : (∃ h ∈ snapshots, h.id = id) → ∀ h, s.1.store.record? id = some h → h.lifecycle = .locked →
      ∀ t, ¬ Waits t s.2) :
    (applyBatch topic (snapshots.map fun h => (h, .advised))).Ensures (.telling id)
      (fun _ => Regular id) s := by
  induction snapshots generalizing s with
  | nil => exact hs
  | cons snapshot rest ih =>
      rw [List.map_cons, applyBatch]
      refine (regular_entry hs (by decide) ?_).bind fun here s₁ h₁ => ?_
      · intro hid h reason now hr hcan hreason
        -- Only a locked handle can be advised, and it keeps its reason.
        have hlocked : h.lifecycle = .locked := by
          cases hlife : h.lifecycle <;> rw [hlife] at hcan <;> first | rfl | cases hcan
        have hlife : h.status.lifecycle = .locked := hlocked
        have hfits := hs.fits h hr
        rw [HandleStatus.Fits, hlife] at hfits
        rw [nextReason, if_pos hlife, Except.ok.injEq] at hreason
        exact ⟨hreason ▸ hfits.2, Or.inr (hfree ⟨snapshot, List.mem_cons_self, hid⟩ h hr hlocked)⟩
      · refine (ih h₁.1 fun hin h hr hlocked t hwaits => ?_).bind fun _ _ h => h
        rcases h₁.2 with hsame | ⟨g, hg, hadvised⟩
        · have hin : ∃ h ∈ snapshot :: rest, h.id = id :=
            hin.imp fun _ h => ⟨List.mem_cons_of_mem _ h.1, h.2⟩
          exact hfree hin h (hsame.record ▸ hr) hlocked t (hsame.waits t hwaits)
        · rw [hr, Option.some.injEq] at hg
          rw [← hg, hlocked] at hadvised
          cases hadvised

/-! ### Cycles -/

/-- A note that the data of the handle are in step leaves the state and the reason as they are. -/
theorem regular_markSynchronized {s : Recounted} (hs : Regular id s) :
    (markSynchronized id).run.Ensures (.telling id) (fun _ => Regular id) s := by
  rcases s with ⟨w, tale⟩
  refine ensures_markSynchronized_iff.2 (tells_read rfl fun w₁ h₁ => ?_)
  have hs₁ : Regular id (w₁, tale) := hs.of_status (h₁ ▸ hs.sound) (by rw [h₁])
  rw [show (w.store.perform (.status id)).1 = w.store.status id from rfl, hs.sound.status_eq, ← h₁]
  cases hr : w₁.store.record? id with
  | none => exact hs₁
  | some h =>
      refine ⟨fun _ => hs₁, fun hready => tells_now fun now w₂ h₂ => ?_⟩
      have hready : h.lifecycle = .ready := hready
      have hs₂ : Regular id (w₂, tale ++ [.clock now]) :=
        (hs₁.of_status (h₂ ▸ hs₁.sound) (by rw [h₂])).aside (Or.inl ⟨now, rfl⟩)
      rw [← h₂] at hr
      refine tells_saveFrom hs₂.sound hr hready fun w₃ h₃ => ?_
      have hafter : w₃.store.record? id = some { h with status := h.status.markSynchronized now } := by
        rw [h₃, Store.record?_putHandle]
        exact if_pos (hs₂.sound.id_of_record? hr)
      have hsound : w₃.store.Sound := by
        rw [h₃]
        exact hs₂.sound.putHandle _
      split
      · rename_i hsame
        rw [List.append_nil]
        refine hs₂.of_status hsound ?_
        rw [hafter, hr, Option.map_some, Option.map_some, ← hsame]
      · refine hs₂.changed hsound hafter ?_ (Or.inr ?_)
        · have hready : h.status.lifecycle = .ready := hready
          have hfits := hs₂.fits h hr
          rw [HandleStatus.Fits, hready] at hfits
          rw [HandleStatus.Fits, show (h.status.markSynchronized now).lifecycle = .ready from hready]
          exact hfits
        · exact hs₂.not_waits hr (by rw [hready]; decide) (by rw [hready]; decide)

theorem regular_syncData {h : Handle} {s : Recounted} (hs : Regular id s) :
    (syncData h).run.Ensures (.telling id) (fun _ => Regular id) s := by
  by_cases hid : h.id = id
  · subst hid
    rw [syncData]
    split
    · have hread : (Request.plugin (.read h rootResource .operational)).Leaves h.id := trivial
      rw [Action.ensures_bind, Action.run_plugin, Program.ensures_bind]
      refine (undisturbed_request hread hs).mono fun reply s₁ h₁ => ?_
      cases reply with
      | error e => exact h₁.regular
      | ok reply =>
          change Action.Goes _ _ _ (.ok reply) s₁
          rw [Action.goes_ok, Action.ensures_bind, Action.run_ofExcept]
          cases dataOfReply reply with
          | error e => exact h₁.regular
          | ok data =>
              have hsave : (Request.store (.saveData h.id data)).Leaves h.id := fun hwrites => hwrites
              change Action.Goes _ _ _ (.ok data) s₁
              rw [Action.goes_ok, Action.ensures_bind, Action.run_store, Program.ensures_bind]
              refine (undisturbed_request hsave h₁.regular).mono fun reply s₂ h₂ => ?_
              cases reply with
              | error e => exact h₂.regular
              | ok _ => exact regular_markSynchronized h₂.regular
    · exact hs
  · exact (undisturbed_of_asks (leaves_syncData hid) hs).mono fun _ _ h => h.regular

/-- What the plugin of an advised handle answered is followed by a move that is written. -/
theorem regular_commit {snapshot h : Handle} {target : Lifecycle} {reason : Option LockReason}
    {x : Happening} (hs : Regular id (w, tale)) (hr : w.store.record? id = some h)
    (hadvised : h.lifecycle = .advised) (hid : snapshot.id = id)
    (hcan : Lifecycle.advised.canMoveTo target = true)
    (hreason : nextReason snapshot h.status target = .ok reason) (hasks : x.Asks)
    (hensues : ∀ now,
      Ensues (failures tale) x [.clock now, .changed (nextStatus h.status target reason now)] ∧
        (nextStatus h.status target reason now).Fits (failures (tale ++ [x]))) :
    (commit topic snapshot target).run.Ensures (.telling id) (fun _ => Regular id) (w, tale ++ [x]) := by
  have ht : target ≠ .deleted ∧ target ≠ .advised := by
    cases target <;> first | exact ⟨by decide, by decide⟩ | cases hcan
  have hfree : ∀ t, ¬ Waits t tale :=
    hs.not_waits hr (by rw [hadvised]; decide) (by rw [hadvised]; decide)
  rw [← hadvised] at hcan
  have hmoved : ∀ result s₁, MovesOn snapshot target (w, tale ++ [x]) result s₁ → Regular id s₁ := by
    rintro (e | _ | old) ⟨w₁, tale₁⟩ hmoves
    · exact absurd hreason (hmoves.2.2 h (hid ▸ hr) hcan reason)
    · rcases hmoves.2.2 with ⟨g, hg, hlife⟩
      rw [hid, hr, Option.some.injEq] at hg
      rw [← hg, hadvised] at hlife
      exact absurd hlife.symm ht.2
    · rcases hmoves with ⟨g, reason', now, hg, -, -, hreason', hstore, htold⟩
      rw [hid, hr, Option.some.injEq] at hg
      subst hg
      rw [hreason, Except.ok.injEq] at hreason'
      subst hreason'
      have hafter : w₁.store.record? id =
          some { h with status := nextStatus h.status target reason now } := by
        rw [hstore, Store.record?_putHandle]
        exact if_pos (hs.sound.id_of_record? hr)
      have hsound : w₁.store.Sound := by
        rw [hstore]
        exact hs.sound.putHandle _
      have hasked := hs.asked hsound hafter hfree (hensues now).1 (hensues now).2 hasks
      have htold : tale₁ = tale ++ [x] ++ [.clock now, .changed (nextStatus h.status target reason now)] :=
        htold
      rw [htold]
      simpa using hasked
  have hentry : (applyBatch topic [(snapshot, target)]).Ensures (.telling id) (fun _ => Regular id)
      (w, tale ++ [x]) := by
    rw [applyBatch]
    refine (tells_applyEntry hs.sound ht.1 hid hmoved).bind ?_
    rintro here s' ⟨result, s₁, -, hundisturbed⟩
    exact hundisturbed.regular
  rw [commit, Action.ensures_bind, Action.run_lift]
  refine hentry.bind fun result s' hregular => ?_
  rw [Program.ensures_done, Action.goes_ok]
  cases result.failed.getLast? <;> exact hregular

/-- The plugin of a picked handle is asked for its modules. -/
theorem regular_syncModules {h : Handle} {s : Recounted} (hs : Regular id s)
    (hr : h.id = id → s.1.store.record? id = some h) (hadvised : h.lifecycle = .advised) :
    (syncModules topic h).run.Ensures (.telling id) (fun _ => Regular id) s := by
  by_cases hid : h.id = id
  · have hr := hr hid
    subst hid
    rcases s with ⟨w, tale⟩
    have hlife : h.status.lifecycle = .advised := hadvised
    have hcounted : CountedBy (failures tale) h.status.lockReason := by
      have hfits := hs.fits h hr
      rwa [HandleStatus.Fits, hlife] at hfits
    rw [syncModules, Action.ensures_bind, Action.run_lift, Program.ensures_bind]
    refine telling_request fun reply w₁ hans => ?_
    have hquiet : (Request.plugin (.modules h)).IsQuiet := trivial
    have h₁ : w₁.store = w.store := (World.Answers.quiet hquiet hans).1
    have htold : Turn.happenings h.id ⟨0, .plugin (.modules h), reply, w, w₁⟩ =
        [Happening.ofModules reply] := if_pos rfl
    have hs₁ : Regular h.id (w₁, tale) := hs.of_store h₁
    have hr₁ : w₁.store.record? h.id = some h := h₁ ▸ hr
    rw [htold]
    change Action.Goes _ _ _ (.ok reply) _
    rw [Action.goes_ok]
    cases reply with
    | ok modules =>
        rw [Action.ensures_bind, Action.run_store, Program.ensures_bind]
        refine tells_call fun reply w₂ hperform => ?_
        rcases Prod.mk.inj hperform with ⟨rfl, h₂⟩
        have hrecord : w₂.store.record? h.id = w₁.store.record? h.id := congrArg (·.record? h.id) h₂
        have hs₂ : Regular h.id (w₂, tale) :=
          hs₁.of_status (h₂ ▸ hs₁.sound.perform (.saveModules h.id modules)) (by rw [hrecord])
        have hr₂ : w₂.store.record? h.id = some h := hrecord.trans hr₁
        have hcount : failures (tale ++ [.found]) = 0 := failures_append _ _
        rw [Happening.ofRecords_of_status (by rw [hrecord]), List.append_nil]
        change (commit topic h .ready).run.Ensures (.telling h.id) (fun _ => Regular h.id)
          (w₂, tale ++ [.found])
        refine regular_commit hs₂ hr₂ hadvised rfl rfl rfl trivial fun now => ⟨?_, ?_⟩
        · exact ⟨now, _, [], rfl, rfl, rfl, rfl⟩
        · rw [hcount]
          exact rfl
    | error e =>
        have hnext := hcounted.failureReason e.message
        have hcount : failures (tale ++ [.failed e]) = failures tale + 1 := failures_append _ _
        have hcommit : (commit topic (withFailure h e) .locked).run.Ensures (.telling h.id)
            (fun _ => Regular h.id) (w₁, tale ++ [.failed e]) := by
          refine regular_commit hs₁ hr₁ hadvised rfl rfl rfl trivial fun now => ⟨?_, ?_⟩
          · exact ⟨now, _, _, [], rfl, rfl, rfl, rfl, rfl, hnext⟩
          · rw [hcount]
            exact ⟨Nat.succ_pos _, hnext⟩
        rw [Action.ensures_bind]
        refine hcommit.mono fun result s₂ h₂ => ?_
        cases result <;> exact h₂
  · exact (undisturbed_of_asks (leaves_syncModules hid) hs).mono fun _ _ h => h.regular

theorem regular_attempt {m : Member} {kind : SyncKind} {h : Handle} {s : Recounted} (hs : Regular id s)
    (hr : s.1.store.record? h.id = some h) (hdue : h.status.IsDue kind) :
    (attempt m kind h).Ensures (.telling id) (fun _ => Regular id) s := by
  have hmarked : ∀ work : Action Unit,
      (∀ s₁, Undisturbed id s s₁ → work.run.Ensures (.telling id) (fun _ => Regular id) s₁) →
        (whileMarked m kind h.id work).Ensures (.telling id) (fun _ => Regular id) s := by
    intro work hwork
    have hmark : (Request.mark kind h.id m.name m.markerLife).Leaves id := trivial
    have hunmark : (Request.unmark kind h.id).Leaves id := trivial
    rw [whileMarked]
    refine (undisturbed_request hmark hs).bind fun put s₁ h₁ => ?_
    cases put with
    | false => exact h₁.regular
    | true =>
        refine (hwork s₁ h₁).bind fun result s₂ hs₂ => ?_
        exact (undisturbed_request hunmark hs₂).bind fun _ s₃ h₃ => h₃.regular
  cases kind with
  | data => exact hmarked _ fun s₁ h₁ => regular_syncData h₁.regular
  | modules =>
      refine hmarked _ fun s₁ h₁ => regular_syncModules h₁.regular (fun hid => ?_) hdue
      subst hid
      exact h₁.record.trans hr

theorem regular_visitAll {m : Member} {kind : SyncKind} {bound : Nat} {s : Recounted}
    (hs : Regular id s) :
    (visitAll (pick kind) (attempt m kind) bound [] .empty).Ensures (.telling id) (fun _ => Regular id) s := by
  refine ensures_visits Prod.fst (fun visited t ht => ?_) (fun h t ht hr hdue => ?_) hs
  · have hpicked : (pick kind visited).run.Ensures (.telling id) (fun picked t' => t.1.Same t'.1 ∧
        Picked kind visited t.1.store picked) t := (ensures_pick ht.sound).telling
    refine (hpicked.and (undisturbed_of_asks leaves_pick ht)).mono ?_
    rintro picked t' ⟨⟨hsame, hpicked⟩, hundisturbed⟩
    exact ⟨hundisturbed.regular, hsame.store.symm ▸ hpicked⟩
  · exact regular_attempt ht hr hdue

/-- The locked handles that a pass finds do not have to wait any longer. -/
theorem regular_readviseAt {m : Member} {now : Instant} {s : Recounted} (hs : Regular id s)
    (hpassed : ∀ status, status.isReadyForRetry now m.retryBase = true → ¬ Waits status s.2) :
    (readviseAt m now).Ensures (.telling id) (fun _ => Regular id) s := by
  have hleaves : (dueForRetry now m.retryBase).run.Asks (Request.Leaves id) :=
    asks_dueForRetry fun _ hwrites => hwrites
  have hdue : (dueForRetry now m.retryBase).run.Ensures (.telling id) (fun result s' =>
      s.1.Same s'.1 ∧ ∃ due, result = .ok due ∧ (due.map (·.id)).Nodup ∧ ∀ h, h ∈ due ↔
        s.1.store.record? h.id = some h ∧ h.status.lockReason ≠ none ∧
          h.status.isReadyForRetry now m.retryBase = true) s := (ensures_dueForRetry hs.sound).telling
  rw [readviseAt]
  refine (hdue.and (undisturbed_of_asks hleaves hs)).bind ?_
  rintro _ s₁ ⟨⟨-, due, rfl, -, hmem⟩, h₁⟩
  refine (regular_advises h₁.regular ?_).bind fun _ _ h => h
  rintro ⟨g, hg, rfl⟩ h hr hlocked status hwaits
  rcases (hmem g).1 hg with ⟨hr', -, hready⟩
  rw [← h₁.record, hr, Option.some.injEq] at hr'
  subst hr'
  have hstatus : h.status = status := by
    refine (h₁.regular.waits status hwaits h hr).resolve_right ?_
    rw [hlocked]
    decide
  exact hpassed h.status hready (h₁.waits _ (hstatus ▸ hwaits))

theorem regular_moduleCycleAt {m : Member} {bound : Nat} {now : Instant} {s : Recounted}
    (hs : Regular id s)
    (hpassed : ∀ status, status.isReadyForRetry now m.retryBase = true → ¬ Waits status s.2) :
    (moduleCycleAt m bound now).Ensures (.telling id) (fun _ => Regular id) s :=
  (regular_readviseAt hs hpassed).bind fun _ _ h => regular_visitAll h

/-! ### Registrations -/

theorem regular_register {handles : List Handle} {s : Recounted} (hs : Regular id s) :
    (register topic handles).Ensures (.telling id) (fun _ => Regular id) s := by
  have haccept : (accept handles).Ensures (.telling id) (fun result _ => ∀ h ∈ result.1,
      h.lifecycle = .advised ∧ h.status.lockReason = none) s :=
    ensures_accept.telling.mono fun _ _ h => h.2.2
  have hannounce : ∀ present admitted s', Regular id s' →
      (announceNew topic present admitted).Ensures (.telling id) (fun _ => Regular id) s' := by
    intro present admitted s' hs'
    refine (undisturbed_of_asks (asks_announceNew fun _ => leaves_announce) hs').mono ?_
    exact fun _ _ h => h.regular
  rw [register]
  refine (haccept.and (undisturbed_of_asks (asks_accept trivial) hs)).bind ?_
  rintro ⟨admitted, rejected⟩ ⟨w, tale⟩ ⟨hall, hundisturbed⟩
  have hw := hundisturbed.regular
  rw [Program.ensures_bind]
  refine tells_call fun reply w' hperform => ?_
  have hstore : w'.store = (w.store.insert admitted).2 := by
    rw [← Store.perform_insert, ← hperform]
  have hinserted : Regular id
      (w', tale ++ Happening.ofRecords (w.store.record? id) (w'.store.record? id)) := by
    have hsound : w'.store.Sound := hstore ▸ hw.sound.insert_sound admitted
    have hrecord := hw.sound.record?_insert admitted id
    rw [← hstore] at hrecord
    cases hr : w.store.record? id with
    | some g =>
        rw [hr, Option.some_or] at hrecord
        rw [← hr]
        exact hw.fewer hsound (Or.inl (hrecord.trans hr.symm))
    | none =>
        rw [hr, Option.none_or] at hrecord
        cases hfind : admitted.find? fun h => h.id = id with
        | none =>
            rw [hfind] at hrecord
            rw [← hr]
            exact hw.fewer hsound (Or.inr hrecord)
        | some h =>
            rw [hfind] at hrecord
            rcases hall h (List.mem_of_find?_eq_some hfind) with ⟨hadvised, hreason⟩
            rw [hrecord]
            exact hw.created hsound hrecord hadvised hreason
  cases reply with
  | ok _ => exact (hannounce _ _ _ hinserted).bind fun _ _ h => h
  | error e =>
      cases e with
      | alreadyExists present => exact (hannounce _ _ _ hinserted).bind fun _ _ h => h
      | _ => exact hinserted

theorem regular_create {endpoints : Endpoints} {requested : List RequestedHandle} {s : Recounted}
    (hs : Regular id s) :
    (create topic endpoints requested).run.Ensures (.telling id) (fun _ => Regular id) s := by
  rw [create]
  cases endpoints.flaw? with
  | some flaw => exact hs
  | none =>
      rw [Action.run_lift, Program.ensures_bind]
      refine (undisturbed_of_asks (asks_screen trivial) hs).bind fun candidates s₁ h₁ => ?_
      exact (regular_register h₁.regular).bind fun _ _ h => h

/-- An update writes the status that it read. -/
theorem regular_updateOne {r : RequestedHandle} {s : Recounted} (hs : Regular id s) :
    (updateOne r).Ensures (.telling id) (fun _ => Regular id) s := by
  rcases s with ⟨w, tale⟩
  rw [updateOne]
  cases HandleId.parse r.id with
  | error flaw => exact hs
  | ok i =>
      dsimp only
      rw [Program.ensures_bind]
      refine tells_read rfl fun w₁ h₁ => ?_
      have hs₁ := hs.of_store h₁
      rw [show (w.store.perform (.get i)).1 = w.store.get i from rfl, hs.sound.get_eq, ← h₁]
      cases hr : w₁.store.record? i with
      | none => exact hs₁
      | some g =>
          have hid := hs₁.sound.id_of_record? hr
          subst hid
          dsimp only
          rw [Program.ensures_bind]
          refine tells_call fun reply w₂ hperform => ?_
          rw [Store.perform, hs₁.sound.save_eq, hr] at hperform
          rcases Prod.mk.inj hperform with ⟨rfl, hstore⟩
          have hsame : (w₂.store.record? id).map Handle.status = (w₁.store.record? id).map Handle.status := by
            rw [hstore, Store.record?_putHandle]
            split
            · rename_i heq
              have heq : g.id = id := heq
              rw [← heq, hr]
              rfl
            · rfl
          rw [Happening.ofRecords_of_status hsame, List.append_nil]
          exact hs₁.of_status (hstore ▸ hs₁.sound.putHandle _) hsame

theorem regular_update {requested : List RequestedHandle} {s : Recounted} (hs : Regular id s) :
    (update requested).Ensures (.telling id) (fun _ => Regular id) s :=
  Program.ensures_mapM (I := fun _ _ => Regular id) (fun _ _ _ _ h => regular_updateOne h) hs

/-- A deletion leaves the record as it is, or takes it away. -/
theorem regular_deletes {ids : List HandleId} {r : Request} (hr : r.Deletes ids) {s : Recounted}
    (hs : Regular id s) : (Program.request r).Ensures (.telling id) (fun _ => Regular id) s := by
  rcases s with ⟨w, tale⟩
  have hcall : ∀ call : StoreCall, ((w.store.perform call).2.record? id = w.store.record? id ∨
      (w.store.perform call).2.record? id = none) →
        (Program.store call).Ensures (.telling id) (fun _ => Regular id) (w, tale) := by
    intro call hfewer
    refine tells_call fun reply w' hperform => ?_
    have hstore : w'.store = (w.store.perform call).2 := congrArg Prod.snd hperform
    rw [← hstore] at hfewer
    exact hs.fewer (hstore ▸ hs.sound.perform call) hfewer
  cases r with
  | store call =>
      cases call with
      | delete i =>
          refine hcall _ ?_
          rw [Store.perform]
          cases hdel : w.store.delete i with
          | error e => exact Or.inl rfl
          | ok s' =>
              change s'.record? id = _ ∨ s'.record? id = none
              rw [(hs.sound.delete_ok hdel).2.2 id]
              split
              · exact Or.inr rfl
              · exact Or.inl rfl
      | deleteAll those =>
          refine hcall _ ?_
          rw [Store.perform]
          cases hdel : w.store.deleteAll those with
          | error e => exact Or.inl rfl
          | ok s' =>
              change s'.record? id = _ ∨ s'.record? id = none
              rw [(hs.sound.deleteAll_ok hdel).2.2.2 id]
              split
              · exact Or.inr rfl
              · exact Or.inl rfl
      | _ => exact hr.elim
  | unmark kind i =>
      have hleaves : (Request.unmark kind i).Leaves id := trivial
      exact (undisturbed_request hleaves hs).mono fun _ _ h => h.regular
  | _ => exact hr.elim

theorem leaves_ends {gone : List Handle} :
    (applyBatch topic (gone.map fun h => (h, .deleted))).Asks (Request.Leaves id) := by
  induction gone with
  | nil => exact Program.asks_done _
  | cons h rest ih =>
      rw [List.map_cons, applyBatch]
      refine Program.Asks.bind ?_ fun here => ih.bind fun _ => Program.asks_done _
      -- Nothing is left of the record, so that the end is only announced.
      rw [applyEntry, run_move_deleted]
      refine Program.Asks.bind (Program.asks_done _) ?_
      rintro (e | _ | old)
      · exact Program.asks_done _
      · exact Program.asks_done _
      · exact leaves_announce.bind fun _ => Program.asks_done _

theorem regular_remove {rawIds : List String} {s : Recounted} (hs : Regular id s) :
    (remove topic rawIds).Ensures (.telling id) (fun _ => Regular id) s := by
  have hmark : ∀ ids, (markDeleting topic ids).Ensures (.telling id) (fun _ => Regular id) s := by
    intro ids
    have hread : (Request.store (.getMany ids)).Leaves id := fun hwrites => hwrites
    rw [markDeleting]
    refine (undisturbed_request hread hs).bind fun found s₁ h₁ => ?_
    cases found with
    | error e => exact h₁.regular
    | ok snapshots => exact (regular_marks h₁.regular).bind fun _ _ h => h
  rw [remove]
  refine (hmark _).bind fun marked s₁ hs₁ => ?_
  cases marked with
  | error e => exact hs₁
  | ok deleting =>
      have hdelete : ∀ lists, (deleteChunks lists).Ensures (.telling id) (fun _ => Regular id) s₁ :=
        fun lists => asks_deleteChunks.ensures hs₁ fun r s hr hs => regular_deletes hr hs
      refine (hdelete _).bind fun deletions s₂ hs₂ => ?_
      exact (undisturbed_of_asks leaves_ends hs₂).bind fun _ _ h => h.regular

theorem regular_process {registration : Registration} {s : Recounted} (hs : Regular id s) :
    (process topic registration).run.Ensures (.telling id) (fun _ => Regular id) s := by
  rw [process]
  cases registration.endpoints.flaw? with
  | some flaw => exact hs
  | none =>
      refine keeps_choice hs ((regular_remove hs).bind fun _ _ h => h) fun removed s₁ hs₁ => ?_
      refine keeps_choice hs₁ (regular_create hs₁) fun created s₂ hs₂ => ?_
      refine keeps_choice hs₂ ((regular_update hs₂).bind fun _ _ h => h) ?_
      exact fun updated s₃ hs₃ => hs₃

end Inventory
end

/-! ## Histories -/

section

variable {id : HandleId} {c : Circumstances} {w : World} {tale : List Happening}

/-- A program of which nothing is told but what happens in its turns. -/
theorem Regular.run {α : Type} {p : Program α} (hc : ∀ n call, c.storeFailure n call = none)
    (h : p.Ensures (.telling id) (fun _ => Regular id) (w, tale)) :
    Regular id ((p.run (World.reply c) w).2,
      tale ++ (p.turns (World.reply c) w).flatMap (Turn.happenings id)) := h.told hc

/-- The tale of a handle goes on in order while a demand is served. -/
theorem Regular.serve (hc : ∀ n call, c.storeFailure n call = none) (hw : Regular id (w, tale))
    (d : Demand) : Regular id (w.serve c d, tale ++ d.happenings c id w) := by
  rw [serve_eq]
  cases d with
  | create topic endpoints requested => exact Regular.run hc ((regular_create hw).bind fun _ _ h => h)
  | update requested => exact Regular.run hc ((regular_update hw).bind fun _ _ h => h)
  | remove topic rawIds => exact Regular.run hc ((regular_remove hw).bind fun _ _ h => h)
  | process topic registration => exact Regular.run hc ((regular_process hw).bind fun _ _ h => h)
  | dataCycle m bound =>
      have hcycle : (dataCycle m bound).Ensures (.telling id) (fun _ => Regular id) (w, tale) := by
        rw [dataCycle_eq]
        exact regular_visitAll hw
      exact Regular.run hc (hcycle.bind fun _ _ h => h)
  | moduleCycle m bound =>
      -- The pass starts with the first reading of the clock, which is the first request of the cycle.
      let now := (World.reply c .now w).1
      let w₁ := (World.reply c .now w).2
      let rest : Program Unit := moduleCycleAt m bound now >>= fun _ => pure ()
      have htold : Demand.happenings c id w (.moduleCycle m bound) =
          [.pass m now, .clock now] ++ (rest.turns (World.reply c) w₁).flatMap (Turn.happenings id) := rfl
      have hfound : tale ++ [.pass m now, .clock now] = tale ++ [.pass m now] ++ [.clock now] := by simp
      have hw₁ : Regular id (w₁, tale ++ [.pass m now, .clock now]) := by
        rw [hfound]
        exact ((hw.aside (Or.inr ⟨m, now, rfl⟩)).aside (Or.inl ⟨now, rfl⟩)).of_store rfl
      have hpassed : ∀ status, status.isReadyForRetry now m.retryBase = true →
          ¬ Waits status (tale ++ [.pass m now, .clock now]) := by
        intro status hready hwaits
        rw [hfound] at hwaits
        rcases (waits_snoc.1 hwaits).2 with hclock | ⟨hwaits, -⟩
        · cases hclock
        rcases (waits_snoc.1 hwaits).2 with hpass | ⟨-, hnot⟩
        · cases hpass
        · exact hnot hready
      have hrest : rest.Ensures (.telling id) (fun _ => Regular id)
          (w₁, tale ++ [.pass m now, .clock now]) :=
        (regular_moduleCycleAt hw₁ hpassed).bind fun _ _ h => h
      rw [htold, ← List.append_assoc]
      exact Regular.run hc hrest
  | wait length =>
      have htold : Demand.happenings c id w (.wait length) = [] := rfl
      rw [htold, List.append_nil]
      exact hw.of_store rfl

theorem Regular.serve_all (hc : ∀ n call, c.storeFailure n call = none) (demands : List Demand)
    (hw : Regular id (w, tale)) :
    Regular id (demands.foldl (World.serve c) w, tale ++ World.taleFrom c id w demands) := by
  induction demands generalizing w tale with
  | nil => simpa [World.taleFrom] using hw
  | cons d rest ih =>
      rw [List.foldl_cons, World.taleFrom, ← List.append_assoc]
      exact ih (hw.serve hc d)

theorem regular_empty : Regular id (World.empty, []) := by
  refine ⟨Store.sound_empty, orderly_nil, ?_, ?_⟩
  · intro h hr
    have hr : Store.empty.record? id = some h := hr
    rw [Store.record?_empty] at hr
    cases hr
  · rintro status ⟨-, hsince⟩
    exact absurd hsince not_since_nil

/-- A history and its tale are regular. -/
theorem regular_history (hc : ∀ n call, c.storeFailure n call = none) (demands : List Demand)
    (id : HandleId) : Regular id (World.history c demands, World.tale c id demands) :=
  regular_empty.serve_all hc demands

/-- A status that may be tried again has waited as long as its failures ask for. -/
theorem HandleStatus.waited {s : HandleStatus} {n : Nat} {reason : LockReason} {now : Instant}
    {base : Interval} (hready : s.isReadyForRetry now base = true) (hreason : s.lockReason = some reason)
    (hcounted : CountedBy n (some reason)) :
    ((base.nanos * Nat.pow 2 (min n 16) : Nat) : Int) ≤ now.since s.updatedAt := by
  rcases hcounted with ⟨hpos, hcategory, hattempt⟩
  have hexponent : min reason.attempt.toNat 16 = min n 16 := by
    rw [hattempt, UInt32.size]
    omega
  have hsome : reason.attempt ≠ 0 := by
    intro hzero
    rw [hzero] at hattempt
    have : (0 : UInt32).toNat = 0 := rfl
    rw [UInt32.size] at hattempt
    omega
  have hwaited := ((isReadyForRetry_iff hreason).1 hready).waited.resolve_left hsome
  rwa [exactWait, hexponent] at hwaited

/-- The `k`-th failure in a row of a handle, since it was created, locks it with `k` as the number of the attempt,
and the handle is not asked for its modules again before a pass that finds it to have waited for its number of
failures. A handle that becomes ready has no reason of a lock any more. -/
theorem failures_counted_and_retried (hc : ∀ n call, c.storeFailure n call = none) (demands : List Demand)
    (id : HandleId) :
    (∀ past e rest, World.tale c id demands = past ++ .failed e :: rest →
      ∃ now s reason more, rest = .clock now :: .changed s :: more ∧ s.updatedAt = now ∧
        s.lifecycle = .locked ∧ s.lockReason = some reason ∧ reason.category = .moduleSyncFailed ∧
        reason.attempt.toNat = min (failures past + 1) (UInt32.size - 1) ∧ reason.message = e.message) ∧
    (∀ past rest, World.tale c id demands = past ++ .found :: rest →
      ∃ now s more, rest = .clock now :: .changed s :: more ∧ s.updatedAt = now ∧ s.lifecycle = .ready) ∧
    (∀ s, .changed s ∈ World.tale c id demands → s.lifecycle = .ready → s.lockReason = none) ∧
    ∀ past e t s between x rest, World.tale c id demands =
        past ++ .failed e :: .clock t :: .changed s :: (between ++ x :: rest) →
      x.Asks → (∀ status, .created status ∉ between) →
      ∃ m now, .pass m now ∈ between ∧
        ((m.retryBase.nanos * Nat.pow 2 (min (failures past + 1) 16) : Nat) : Int) ≤ now.since t := by
  have horderly := (regular_history hc demands id).orderly
  refine ⟨?_, ?_, ?_, ?_⟩
  · intro past e rest htale
    rcases horderly.ensues past _ rest htale with
      ⟨now, s, reason, more, hrest, hat, hlocked, hreason, hmessage, -, hcategory, hattempt⟩
    exact ⟨now, s, reason, more, hrest, hat, hlocked, hreason, hcategory, hattempt, hmessage⟩
  · intro past rest htale
    rcases horderly.ensues past _ rest htale with ⟨now, s, more, hrest, hat, hready, -⟩
    exact ⟨now, s, more, hrest, hat, hready⟩
  · intro s hs hready
    rcases List.append_of_mem hs with ⟨past, rest, htale⟩
    have hfits : s.Fits (failures past) := horderly.ensues past _ rest htale
    rwa [HandleStatus.Fits, hready] at hfits
  · intro past e t s between x rest htale hasks hcreated
    rcases horderly.ensues past _ _ htale with
      ⟨now, s', reason, more, hrest, hat, hlocked, hreason, -, hcounted⟩
    simp only [List.cons.injEq, Happening.clock.injEq, Happening.changed.injEq] at hrest
    rcases hrest with ⟨rfl, rfl, -⟩
    -- The handle waits unless something in between frees it, which is a pass or another life.
    have hpatient := horderly.patient (past ++ .failed e :: .clock t :: .changed s :: between) x rest
      (by rw [htale]; simp) hasks s
    have hfreed : ∃ y ∈ between, y.Frees s := by
      by_contra hnone
      refine hpatient ⟨hlocked, past ++ [.failed e, .clock t], .changed s, between, by simp, rfl, ?_⟩
      exact fun y hy hfrees => hnone ⟨y, hy, hfrees⟩
    rcases hfreed with ⟨y, hy, hfrees⟩
    cases y with
    | pass m now =>
        refine ⟨m, now, hy, ?_⟩
        rw [← hat]
        exact HandleStatus.waited hfrees hreason hcounted
    | created status => exact absurd hy (hcreated status)
    | _ => exact hfrees.elim

end

/-! ## A handle that fails twice -/

def askedFor : RequestedHandle :=
  { (default : RequestedHandle) with id := "a" }

def newcomer : Handle := newHandle ⟨"a"⟩ ⟨"dmi", "", ""⟩ askedFor default

/-- The start of the count of time, and one or two minutes later. -/
def minutesLater (minute : Fin 3) : Instant :=
  { Instant.epoch with minute := minute, isTime := by simp [Instant.epoch]; omega }

/-- No plugin answers. A minute passes before the request numbered 20, and another before that numbered 24. -/
def slowly : Circumstances :=
  { World.undisturbed with clock := fun n => minutesLater (if n < 20 then 0 else if n < 24 then 1 else 2) }

/-- A member whose handles wait for two minutes after their first failure. -/
def patient : Member := ⟨"x", .ofSeconds 300, .ofSeconds 60, "lcm"⟩

/-- The newcomer is created, and then its modules are asked for in cycles. -/
def trials (cycles : Nat) : List Demand :=
  .create "lcm" ⟨"dmi", "", ""⟩ [askedFor] :: List.replicate cycles (.moduleCycle patient 1)

theorem history_trials_succ (cycles : Nat) : World.history slowly (trials (cycles + 1)) =
    (World.history slowly (trials cycles)).serve slowly (.moduleCycle patient 1) := by
  rw [trials, List.replicate_succ', ← List.cons_append, World.history, List.foldl_concat]
  rfl

/-- The newcomer after its first failure. -/
def failedOnce : Handle := newcomer.failedAt (minutesLater 0)

/-- The newcomer after its second failure. -/
def failedTwice : Handle :=
  (failedOnce.movedTo .advised failedOnce.status.lockReason (minutesLater 2)).failedAt (minutesLater 2)

/-- The first cycle fails. In the second one the handle waits, and in the third one it is tried again. -/
theorem history_trials :
    (World.history slowly (trials 1)).store.record? ⟨"a"⟩ = some failedOnce ∧
      (World.history slowly (trials 2)).store.record? ⟨"a"⟩ = some failedOnce ∧
      (World.history slowly (trials 3)).store.record? ⟨"a"⟩ = some failedTwice := by
  have hc : ∀ n call, slowly.storeFailure n call = none := fun _ _ => rfl
  have hplugin : ∀ n h, slowly.plugin n (.modules h) = .error .emptyBody := fun _ _ => rfl
  have hrecord {h : Handle} {n : Nat} {w : World} (hw : w.Idle h n) : w.store.record? h.id = some h := by
    rcases hw with ⟨k, hw, -⟩
    exact hw.holds.record
  have hcreated : (World.history slowly (trials 0)).Idle newcomer 6 :=
    ⟨.empty, ⟨.putHandle_empty newcomer, rfl, rfl⟩, rfl⟩
  have honce : (World.history slowly (trials 1)).Idle failedOnce 20 := by
    rw [history_trials_succ]
    exact hcreated.serve_failing hc hplugin rfl
  have hreason : failedOnce.FailsModules := fun _ => rfl
  have hwaits : (World.history slowly (trials 2)).Idle failedOnce 24 := by
    rw [history_trials_succ]
    exact honce.serve_waiting hc rfl hreason (by decide)
  have htwice : (World.history slowly (trials 3)).Idle failedTwice 44 := by
    rw [history_trials_succ]
    exact hwaits.serve_retrying hc hplugin hreason (by decide)
  have hid : failedOnce.id = ⟨"a"⟩ ∧ failedTwice.id = ⟨"a"⟩ := ⟨rfl, rfl⟩
  exact ⟨hid.1 ▸ hrecord honce, hid.1 ▸ hrecord hwaits, hid.2 ▸ hrecord htwice⟩

/-- The newcomer fails twice. The second failure is counted as such, and before it a pass found that the handle had
waited for two minutes. -/
theorem newcomer_failure_counted :
    (∀ n call, slowly.storeFailure n call = none) ∧
      (World.history slowly (trials 1)).store.record? ⟨"a"⟩ = some failedOnce ∧
      (World.history slowly (trials 2)).store.record? ⟨"a"⟩ = some failedOnce ∧
      (World.history slowly (trials 3)).store.record? ⟨"a"⟩ = some failedTwice ∧
      ∃ past e t s between e' t' s' reason more,
        World.tale slowly ⟨"a"⟩ (trials 3) = past ++ .failed e :: .clock t :: .changed s ::
          (between ++ .failed e' :: .clock t' :: .changed s' :: more) ∧
        failures past = 0 ∧ s'.lifecycle = .locked ∧ s'.lockReason = some reason ∧ reason.attempt.toNat = 2 ∧
        ∃ now, .pass patient now ∈ between ∧ 120000000000 ≤ now.since t := by
  have hc : ∀ n call, slowly.storeFailure n call = none := fun _ _ => rfl
  rcases history_trials with ⟨honce, hwaits, htwice⟩
  refine ⟨hc, honce, hwaits, htwice, ?_⟩
  rcases failures_counted_and_retried hc (trials 3) ⟨"a"⟩ with ⟨hcounted, -, -, hretried⟩
  -- The record tells that there were two failures.
  have hcount : failures (World.tale slowly ⟨"a"⟩ (trials 3)) = 2 := by
    rcases ((regular_history hc (trials 3) ⟨"a"⟩).fits failedTwice htwice).2 with ⟨-, -, hattempt⟩
    have hattempt : 2 = min (failures (World.tale slowly ⟨"a"⟩ (trials 3))) (UInt32.size - 1) := hattempt
    rw [UInt32.size] at hattempt
    omega
  rcases exists_last_failed hcount with ⟨both, e', rest', htale, hboth, -⟩
  rcases exists_last_failed hboth with ⟨past, e, rest, rfl, hpast, hcreated⟩
  rcases hcounted _ e' rest' htale with ⟨t', s', reason', more, rfl, -, hlocked, hreason, -, hattempt, -⟩
  rw [List.append_assoc, List.cons_append] at htale
  rcases hcounted past e _ htale with ⟨t, s, reason, more', hrest, -⟩
  -- The second failure comes after what the first one entails.
  obtain ⟨between, rfl⟩ : ∃ between, rest = .clock t :: .changed s :: between := by
    match rest, hrest with
    | [], hrest => cases hrest
    | [x], hrest => cases hrest
    | x :: y :: between, hrest =>
        simp only [List.cons_append, List.cons.injEq] at hrest
        exact ⟨between, by rw [hrest.1, hrest.2.1]⟩
  refine ⟨past, e, t, s, between, e', t', s', reason', more, htale, hpast, hlocked, hreason, ?_, ?_⟩
  · rw [hattempt, hboth]
    rfl
  · have hsame : ∀ status, .created status ∉ between := fun status hmem => hcreated status (by simp [hmem])
    rcases hretried past e t s between (.failed e') _ htale trivial hsame with ⟨m, now, hpass, hwaited⟩
    have hmember : m = patient := by
      rcases mem_taleFrom_pass (show .pass m now ∈ World.tale slowly ⟨"a"⟩ (trials 3) by
        rw [htale]; simp [hpass]) with ⟨bound, hdemand⟩
      exact (by simpa [trials] using hdemand : m = patient ∧ bound = 1).1
    subst hmember
    rw [hpast] at hwaited
    exact ⟨now, hpass, hwaited⟩

end CmInventory
