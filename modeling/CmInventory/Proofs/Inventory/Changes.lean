import CmInventory.Proofs.Inventory.Announced
import CmInventory.Proofs.Inventory.Operations

/-!
# Changes of the status of one handle

The three operations that read the status of a handle and write another one: a batch with one entry, the
note that the data are in step, and the switch of data synchronization. What such an operation writes is a
function of the status that it read and of the clock (`Change.next?`). When it works alone, it reports
success if the status is one that it accepts (`Change.Accepts`), and changes it by `Change.effect`.
Readings of the clock are left aside by `HandleStatus.timeless`.
-/

namespace CmInventory

/-- An operation on the status of one handle. -/
inductive Change
  | move (topic : String) (snapshot : Handle) (target : Lifecycle)
  | markSynchronized
  | setDataSync (enabled : Bool)

/-- The change of the handle with an id. -/
def Change.operation (id : HandleId) : Change → Operation
  | .move topic snapshot target => .apply topic [({ snapshot with id := id }, target)]
  | .markSynchronized => .markSynchronized id
  | .setDataSync enabled => .setDataSync id enabled

/-- Whether an operation reports success. -/
def Operation.Result.isSuccess : Operation.Result → Bool
  | .batch result => result.isSuccess
  | .change (.ok _) | .deletion (.ok _) => true
  | .change (.error _) | .deletion (.error _) => false

/-- The status without readings of the clock. -/
def HandleStatus.timeless (s : HandleStatus) : HandleStatus :=
  { s with
    updatedAt := default
    operational := { s.operational with lastSync := s.operational.lastSync.map fun _ => default } }

/-- Statuses are the same without readings of the clock if they agree in everything else. -/
theorem HandleStatus.timeless_eq_iff {s t : HandleStatus} :
    s.timeless = t.timeless ↔ s.lifecycle = t.lifecycle ∧ s.lockReason = t.lockReason ∧
      s.dataSync = t.dataSync ∧ s.operational.syncState = t.operational.syncState ∧
        s.operational.lastSync.isSome = t.operational.lastSync.isSome := by
  rcases s with ⟨lifecycle, reason, updated, sync, state, last⟩
  rcases t with ⟨lifecycle', reason', updated', sync', state', last'⟩
  cases last <;> cases last' <;> simp [HandleStatus.timeless]

theorem nextReason_congr (snapshot : Handle) {s t : HandleStatus} (target : Lifecycle)
    (hlife : s.lifecycle = t.lifecycle) (hreason : s.lockReason = t.lockReason) :
    Inventory.nextReason snapshot s target = Inventory.nextReason snapshot t target := by
  cases target <;> simp [Inventory.nextReason, hlife, hreason]

namespace Change

/-- What a change writes at a time when it has read the given status, if it writes. -/
def next? : Change → HandleStatus → Option (Instant → HandleStatus)
  | .move _ snapshot target, s =>
      if target = .deleted ∨ s.lifecycle = target ∨ s.lifecycle.canMoveTo target = false then none
      else (Inventory.nextReason snapshot s target).toOption.map (Inventory.nextStatus s target)
  | .markSynchronized, s => if s.lifecycle = .ready then some s.markSynchronized else none
  | .setDataSync enabled, s =>
      if s.dataSync = enabled ∨ s.lifecycle ≠ .ready then none else some (s.setDataSync enabled)

/-- The status after a change that met no other. -/
def effect (c : Change) (now : Instant) (s : HandleStatus) : HandleStatus :=
  match c.next? s with
  | some next => next now
  | none => s

/-- Whether a change reports success when it has found the given status and meets no other change. The
last move of a handle does not look for its status. -/
def Accepts (c : Change) (found : Except StoreError HandleStatus) : Prop :=
  match c with
  | .move _ snapshot target =>
      if target = .deleted then snapshot.lifecycle.canMoveTo .deleted = true
      else ∃ s, found = .ok s ∧ (s.lifecycle = target ∨ s.lifecycle.canMoveTo target = true ∧
        (Inventory.nextReason snapshot s target).toOption ≠ none)
  | .markSynchronized => ∃ s, found = .ok s ∧ s.lifecycle = .ready
  | .setDataSync enabled => ∃ s, found = .ok s ∧ (s.dataSync = enabled ∨ s.lifecycle = .ready)

variable {c : Change} {s t : HandleStatus} {now later : Instant}

theorem effect_of_some {next : Instant → HandleStatus} (h : c.next? s = some next) :
    c.effect now s = next now := by
  rw [effect, h]

theorem effect_of_none (h : c.next? s = none) : c.effect now s = s := by
  rw [effect, h]

theorem next?_move (topic : String) {snapshot : Handle} {target : Lifecycle}
    {reason : Option LockReason} (hdeleted : target ≠ .deleted) (hne : s.lifecycle ≠ target)
    (hcan : s.lifecycle.canMoveTo target = true)
    (hreason : (Inventory.nextReason snapshot s target).toOption = some reason) :
    (move topic snapshot target).next? s = some (Inventory.nextStatus s target reason) := by
  simp [next?, hdeleted, hne, hcan, hreason]

/-- What a change writes over, it accepts. -/
theorem accepts_of_next? {next : Instant → HandleStatus} (h : c.next? s = some next) :
    c.Accepts (.ok s) := by
  cases c with
  | move topic snapshot target =>
      by_cases hstay : target = .deleted ∨ s.lifecycle = target ∨ s.lifecycle.canMoveTo target = false
      · rw [next?, if_pos hstay] at h
        cases h
      · rw [next?, if_neg hstay] at h
        simp only [not_or, Bool.not_eq_false] at hstay
        rcases hstay with ⟨hdeleted, -, hcan⟩
        have hreason : (Inventory.nextReason snapshot s target).toOption ≠ none := by
          intro hnone
          rw [hnone] at h
          cases h
        rw [Accepts, if_neg hdeleted]
        exact ⟨s, rfl, Or.inr ⟨hcan, hreason⟩⟩
  | markSynchronized =>
      rw [next?] at h
      split at h
      · rename_i hready
        exact ⟨s, rfl, hready⟩
      · cases h
  | setDataSync enabled =>
      rw [next?] at h
      split at h
      · cases h
      · rename_i hstay
        exact ⟨s, rfl, Or.inr (not_not.1 (not_or.1 hstay).2)⟩

/-- Statuses that differ in readings of the clock only are changed alike. -/
theorem effect_timeless (h : s.timeless = t.timeless) :
    (c.effect now s).timeless = (c.effect later t).timeless := by
  have hall := HandleStatus.timeless_eq_iff.1 h
  rcases hall with ⟨hlife, hreason, hsync, hstate, hlast⟩
  cases c with
  | move topic snapshot target =>
      have hsame := nextReason_congr snapshot target hlife hreason
      -- What a move reads of a status are its state and its reason of a lock.
      by_cases hstay : target = .deleted ∨ t.lifecycle = target ∨ t.lifecycle.canMoveTo target = false
      · simpa [effect, next?, hlife, hstay] using h
      · cases hnext : Inventory.nextReason snapshot t target with
        | error e => simpa [effect, next?, hlife, hstay, hsame, hnext, Except.toOption] using h
        | ok reason =>
            have hwritten : (Inventory.nextStatus s target reason now).timeless =
                (Inventory.nextStatus t target reason later).timeless := by
              refine HandleStatus.timeless_eq_iff.2 ⟨rfl, rfl, hsync, ?_, ?_⟩
              · by_cases hready : target = .ready <;>
                  simp [Inventory.nextStatus, hready, hsync, hstate]
              · by_cases hready : target = .ready <;>
                  simp [Inventory.nextStatus, hready, hsync, hlast]
            simpa [effect, next?, hlife, hstay, hsame, hnext, Except.toOption] using hwritten
  | markSynchronized =>
      by_cases hready : t.lifecycle = .ready
      · have hwritten : (s.markSynchronized now).timeless = (t.markSynchronized later).timeless :=
          HandleStatus.timeless_eq_iff.2 ⟨hlife, hreason, hsync, rfl, rfl⟩
        simpa [effect, next?, hlife, hready] using hwritten
      · simpa [effect, next?, hlife, hready] using h
  | setDataSync enabled =>
      by_cases hstay : t.dataSync = enabled ∨ t.lifecycle ≠ .ready
      · simpa [effect, next?, hlife, hsync, hstay] using h
      · have hwritten :
            (s.setDataSync enabled now).timeless = (t.setDataSync enabled later).timeless :=
          HandleStatus.timeless_eq_iff.2 ⟨hlife, hreason, rfl, rfl, rfl⟩
        simpa [effect, next?, hlife, hsync, hstay] using hwritten

end Change

/-! ## A change alone -/

namespace Inventory

variable {w : World} {id : HandleId} {h : Handle}

theorem ensures_announce_store {topic : String} {old : Option Lifecycle} {new : Lifecycle} :
    (announce topic id old new).Ensures .alone (fun _ w' => w'.store = w.store) w :=
  ensures_announced.mono fun _ _ h => h.1

theorem toOption_nextReason_id (snapshot : Handle) (id : HandleId) (s : HandleStatus)
    (target : Lifecycle) :
    (nextReason { snapshot with id := id } s target).toOption =
      (nextReason snapshot s target).toOption := by
  cases target with
  | locked => cases hreason : snapshot.status.lockReason <;> simp [nextReason, hreason, Except.toOption]
  | _ => rfl

/-- What a change leaves behind that is made alone. -/
structure Done (c : Change) (id : HandleId) (s : Store) (success : Bool) (s' : Store) : Prop where
  sound : s'.Sound
  success_iff : success = true ↔ c.Accepts (s.status id)
  status : ∃ now, s'.status id = (s.status id).map (c.effect now)

theorem done_of_none {c : Change} {s s' : Store} {success : Bool} (hs : s.Sound)
    (hsame : s'.handles = s.handles) (haccepts : success = true ↔ c.Accepts (s.status id))
    (hnone : ∀ g, s.record? id = some g → c.next? g.status = none) : Done c id s success s' := by
  have hs' : s'.Sound := by
    intro key row hrow
    rw [hsame] at hrow
    exact hs key row hrow
  have hrecord : s'.record? id = s.record? id := by rw [Store.record?, Store.record?, hsame]
  refine ⟨hs', haccepts, default, ?_⟩
  rw [hs'.status_eq, hs.status_eq, hrecord]
  cases hr : s.record? id with
  | none => rfl
  | some g =>
      have heffect : c.effect default g.status = g.status := Change.effect_of_none (hnone g hr)
      simp [Except.map, heffect]

/-- A stored handle whose status is not changed. -/
theorem done_of_stay {c : Change} {success : Bool} {w' : World} (hs : w.store.Sound) (hsame : w.Same w')
    (hr : w.store.record? id = some h) (haccepts : success = true ↔ c.Accepts (.ok h.status))
    (hnone : c.next? h.status = none) : Done c id w.store success w'.store := by
  have hfound : w.store.status id = .ok h.status := by rw [hs.status_eq, hr]
  refine done_of_none hs (by rw [hsame.store]) (by rwa [hfound]) ?_
  intro g hg
  rw [hr] at hg
  cases hg
  exact hnone

theorem done_of_some {c : Change} {s s' : Store} {next : Instant → HandleStatus} (now : Instant)
    (hs : s.Sound) (hr : s.record? id = some h)
    (hnext : c.next? h.status = some next)
    (hput : s'.handles = (s.putHandle { h with status := next now }).handles) :
    Done c id s true s' := by
  have hs' : s'.Sound := by
    intro key row hrow
    rw [hput] at hrow
    exact hs.putHandle _ key row hrow
  have hrecord : s'.record? id = some { h with status := next now } := by
    have hid := hs.id_of_record? hr
    have hafter := Store.record?_putHandle s { h with status := next now } id
    rw [if_pos (show ({ h with status := next now } : Handle).id = id from hid)] at hafter
    rw [Store.record?, hput]
    exact hafter
  have hfound : s.status id = .ok h.status := by rw [hs.status_eq, hr]
  refine ⟨hs', ?_, now, ?_⟩
  · rw [hfound]
    exact iff_of_true rfl (Change.accepts_of_next? hnext)
  · rw [hs'.status_eq, hfound, hrecord]
    simp [Except.map, Change.effect_of_some hnext]

theorem ensures_done_move {topic : String} {snapshot : Handle} {target : Lifecycle}
    (hs : w.store.Sound) :
    (applyEntry topic { snapshot with id := id } target).Ensures .alone
      (fun result w' => Done (.move topic snapshot target) id w.store result.isSuccess w'.store) w := by
  rw [applyEntry]
  by_cases hdeleted : target = .deleted
  · have hnone : ∀ g : Handle, w.store.record? id = some g →
        (Change.move topic snapshot target).next? g.status = none :=
      fun g _ => if_pos (Or.inl hdeleted)
    have haccepts : (Change.move topic snapshot target).Accepts (w.store.status id) ↔
        snapshot.lifecycle.canMoveTo .deleted = true := by simp [Change.Accepts, hdeleted]
    -- The last move does not call the store.
    have hrun : (move { snapshot with id := id } target).run =
        .done ((completeDeletion { snapshot with id := id }).map some) := hdeleted ▸ run_move_deleted _
    rw [hrun, Program.done_bind]
    by_cases hcan : snapshot.lifecycle.canMoveTo .deleted = true
    · have hend : completeDeletion { snapshot with id := id } = .ok snapshot.lifecycle :=
        if_pos hcan
      rw [hend]
      refine ensures_announce_store.bind ?_
      intro _ w₁ hstore
      exact done_of_none hs (by rw [hstore]) (iff_of_true rfl (haccepts.2 hcan)) hnone
    · have hend : completeDeletion { snapshot with id := id } =
          .error (.illegalTransition id snapshot.lifecycle .deleted) := if_neg hcan
      rw [hend]
      exact done_of_none hs rfl (iff_of_false Bool.false_ne_true fun h => hcan (haccepts.1 h)) hnone
  · have haccepts : ∀ {g}, w.store.record? id = some g →
        ((Change.move topic snapshot target).Accepts (w.store.status id) ↔
          g.status.lifecycle = target ∨ g.status.lifecycle.canMoveTo target = true ∧
            (nextReason snapshot g.status target).toOption ≠ none) := by
      intro g hr
      rw [hs.status_eq, hr]
      simp [Change.Accepts, hdeleted]
    refine (ensures_move hs hdeleted).bind ?_
    intro result w₁ hmoved
    cases result with
    | error e =>
        rcases hmoved with ⟨hsame, hstay⟩
        have hreason : ∀ g, w.store.record? id = some g →
            g.status.lifecycle.canMoveTo target = true →
              (nextReason snapshot g.status target).toOption = none := by
          intro g hr hcan
          rcases (hstay g hr).2 hcan with ⟨e', hfailed⟩
          rw [← toOption_nextReason_id snapshot id, hfailed]
          rfl
        refine done_of_none hs (by rw [hsame.store]) (iff_of_false Bool.false_ne_true ?_) ?_
        · intro haccepted
          cases hr : w.store.record? id with
          | none =>
              rw [hs.status_eq, hr] at haccepted
              simp [Change.Accepts, hdeleted] at haccepted
          | some g =>
              rcases (haccepts hr).1 haccepted with hlife | ⟨hcan, hsome⟩
              · exact (hstay g hr).1 hlife
              · exact hsome (hreason g hr hcan)
        · intro g hr
          by_cases hcan : g.status.lifecycle.canMoveTo target = true
          · simp [Change.next?, hreason g hr hcan]
          · exact if_pos (Or.inr (Or.inr (by simpa using hcan)))
    | ok moved =>
        cases moved with
        | none =>
            rcases hmoved with ⟨hsame, g, hr, hlife⟩
            refine done_of_none hs (by rw [hsame.store])
              (iff_of_true rfl ((haccepts hr).2 (Or.inl hlife))) ?_
            intro g' hg'
            rw [hr] at hg'
            cases hg'
            exact if_pos (Or.inr (Or.inl hlife))
        | some old =>
            rcases hmoved with ⟨-, g, reason, now, hr, hlife, hne, hcan, hreason, hstore⟩
            change (announce topic id (some old) target >>= _).Ensures _ _ _
            refine ensures_announce_store.bind ?_
            intro _ w₂ hstore₂
            have hlife : g.status.lifecycle = old := hlife
            have hoption : (nextReason snapshot g.status target).toOption = some reason := by
              rw [← toOption_nextReason_id snapshot id, hreason]
              rfl
            have hnext := Change.next?_move topic hdeleted (by rwa [hlife]) (by rwa [hlife]) hoption
            refine done_of_some now hs hr hnext ?_
            rw [hstore₂, hstore]

theorem ensures_done_markSynchronized (hs : w.store.Sound) :
    (markSynchronized id).run.Ensures .alone
      (fun result w' => Done .markSynchronized id w.store result.toBool w'.store) w := by
  refine (ensures_markSynchronized hs).mono fun result w' hnoted => ?_
  cases result with
  | ok _ =>
      rcases hnoted with ⟨-, h, now, hr, hready, hstore⟩
      exact done_of_some now hs hr (if_pos hready) (by rw [hstore])
  | error e =>
      rcases hnoted with ⟨hsame, hstay⟩
      refine done_of_none hs (by rw [hsame.store]) (iff_of_false Bool.false_ne_true ?_) ?_
      · rintro ⟨s, hfound, hready⟩
        rw [hs.status_eq] at hfound
        cases hr : w.store.record? id with
        | none =>
            rw [hr] at hfound
            cases hfound
        | some g =>
            rw [hr] at hfound
            cases hfound
            exact hstay g hr hready
      · exact fun g hr => if_neg (hstay g hr)

/-- The store after data synchronization of a handle was switched. Data that were in step are dropped when it
is switched off. -/
def switched (s : Store) (h : Handle) (enabled : Bool) (now : Instant) : Store :=
  let written := s.putHandle { h with status := h.status.setDataSync enabled now }
  if !enabled && h.status.syncState = .synchronized then written.deleteData h.id else written

/-- What a switch of data synchronization leaves behind. It is written if the handle is ready and not switched
so already. -/
def Switched (id : HandleId) (enabled : Bool) (w : World) : Except InventoryError Unit → World → Prop
  | .ok (), w' =>
      (w.Same w' ∧ ∃ h, w.store.record? id = some h ∧ h.status.dataSync = enabled) ∨
        ∃ h now, w.store.record? id = some h ∧ h.lifecycle = .ready ∧ h.status.dataSync ≠ enabled ∧
          w'.store = switched w.store h enabled now
  | .error _, w' =>
      w.Same w' ∧ ∀ h, w.store.record? id = some h → h.status.dataSync ≠ enabled ∧ h.lifecycle ≠ .ready

theorem ensures_setDataSync {enabled : Bool} (hs : w.store.Sound) :
    (setDataSync id enabled).run.Ensures .alone (Switched id enabled w) w := by
  refine ensures_setDataSync_iff.2 (ensures_status ?_)
  intro w₁ h₁
  rw [hs.status_eq]
  cases hr : w.store.record? id with
  | none =>
      refine ⟨h₁, ?_⟩
      intro h hh
      rw [hr] at hh
      cases hh
  | some h =>
      have hid := hs.id_of_record? hr
      refine ⟨fun hsame => Or.inl ⟨h₁, h, hr, hsame⟩, ?unready, ?writes⟩
      case unready =>
        refine fun hdiffers hready => ⟨h₁, fun g hg => ?_⟩
        rw [hr, Option.some.injEq] at hg
        rw [← hg]
        exact ⟨hdiffers, hready⟩
      case writes =>
        intro hdiffers hready
        refine ensures_quiet trivial ?_
        intro now w₂ h₂
        have h₂ := h₁.trans h₂
        refine ensures_saveFrom (h₂.store ▸ hs) (h₂.store ▸ hr) hready ?_
        intro w₃ _ hstore
        rw [h₂.store] at hstore
        refine ensures_dropData_iff.2 ?_
        split
        · rename_i hdrops
          refine ensures_call (fun hdel => hdel) ?_
          intro reply w₄ _ hperform
          rcases Prod.mk.inj hperform with ⟨rfl, hdropped⟩
          refine Or.inr ⟨h, now, hr, hready, hdiffers, ?_⟩
          rw [hdropped, hstore, switched, if_pos hdrops, hid]
        · rename_i hkeeps
          refine Or.inr ⟨h, now, hr, hready, hdiffers, ?_⟩
          rw [hstore, switched, if_neg hkeeps]

theorem ensures_done_setDataSync {enabled : Bool} (hs : w.store.Sound) :
    (setDataSync id enabled).run.Ensures .alone
      (fun result w' => Done (.setDataSync enabled) id w.store result.toBool w'.store) w := by
  refine (ensures_setDataSync hs).mono fun result w' hswitched => ?_
  cases result with
  | ok _ =>
      rcases hswitched with ⟨hsame, h, hr, hset⟩ | ⟨h, now, hr, hready, hdiffers, hstore⟩
      · exact done_of_stay hs hsame hr (iff_of_true rfl ⟨_, rfl, Or.inl hset⟩) (if_pos (Or.inl hset))
      · have hready : h.status.lifecycle = .ready := hready
        have hnext : (Change.setDataSync enabled).next? h.status =
            some (h.status.setDataSync enabled) := by
          simp [Change.next?, hdiffers, hready]
        refine done_of_some now hs hr hnext ?_
        -- The data that may be dropped are no part of the record.
        rw [hstore, switched]
        split <;> rfl
  | error e =>
      rcases hswitched with ⟨hsame, hstay⟩
      refine done_of_none hs (by rw [hsame.store]) (iff_of_false Bool.false_ne_true ?_) ?_
      · rintro ⟨s, hfound, haccepts⟩
        rw [hs.status_eq] at hfound
        cases hr : w.store.record? id with
        | none =>
            rw [hr] at hfound
            cases hfound
        | some g =>
            rw [hr] at hfound
            cases hfound
            exact haccepts.elim (hstay g hr).1 (hstay g hr).2
      · exact fun g hr => if_pos (Or.inr (hstay g hr).2)

/-- A change that is made alone does to the status what its effect says, and reports success if it accepts
the status. -/
theorem ensures_done {c : Change} (hs : w.store.Sound) :
    (c.operation id).program.Ensures .alone
      (fun result w' => Done c id w.store result.isSuccess w'.store) w := by
  cases c with
  | move topic snapshot target =>
      have hbatch : (applyBatch topic [({ snapshot with id := id }, target)]).Ensures .alone
          (fun result w' =>
            Done (.move topic snapshot target) id w.store result.isSuccess w'.store) w := by
        rw [applyBatch]
        refine (ensures_done_move hs).bind ?_
        intro here w' hdone
        have hall : (here.append .empty).isSuccess = here.isSuccess := by
          simp [BatchResult.append, BatchResult.empty, BatchResult.isSuccess]
        rw [← hall] at hdone
        exact hdone
      exact hbatch.bind fun _ _ h => h
  | markSynchronized =>
      refine (ensures_done_markSynchronized hs).bind ?_
      intro result w' hdone
      cases result <;> exact hdone
  | setDataSync enabled =>
      refine (ensures_done_setDataSync hs).bind ?_
      intro result w' hdone
      cases result <;> exact hdone

end Inventory

end CmInventory
