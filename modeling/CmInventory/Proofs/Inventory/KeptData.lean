import CmInventory.Proofs.Inventory.Changes
import CmInventory.Proofs.Inventory.Demands
import CmInventory.Proofs.Inventory.Picks
import CmInventory.Proofs.Inventory.SwitchedOff

/-!
# Which ready handles have operational data

An inventory that starts with nothing, and in which handles are registered, moved, deleted, switched and
synchronized, one after the other (`Chore`). Whether the data of a ready handle are wanted, how far they are in
step, and whether some are kept then agree (`HandleStatus.Agrees`), with one exception.

A handle that leaves the state ready and comes back has to be synchronized anew, and its data are kept
meanwhile. If its synchronization is switched off before that happened, the data are not dropped, since they do
not count as in step. So a handle that is switched off may have data, and `ready_data_iff` says when: its last
switch left them there (`LeftOver`).
-/

namespace CmInventory

open Inventory

/-! ## Chores -/

/-- What is done to the handles of an inventory. A cycle with a large enough bound is a complete one. -/
inductive Chore
  | register (topic : String) (handles : List Handle)
  | apply (topic : String) (batch : List (Handle × Lifecycle))
  | setDataSync (id : HandleId) (enabled : Bool)
  | delete (id : HandleId)
  | deleteAll (ids : List HandleId)
  | remove (topic : String) (rawIds : List String)
  | dataCycle (m : Member) (bound : Nat)
  /-- Nothing, for some time. -/
  | wait (length : Interval)

/-- The program of a chore. -/
def Chore.program : Chore → Program Unit
  | .register topic handles => do
      let _ ← Inventory.register topic handles
      return ()
  | .apply topic batch => do
      let _ ← Inventory.applyBatch topic batch
      return ()
  | .setDataSync id enabled => do
      let _ ← (Inventory.setDataSync id enabled).run
      return ()
  | .delete id => do
      let _ ← Program.store (.delete id)
      return ()
  | .deleteAll ids => do
      let _ ← Program.store (.deleteAll ids)
      return ()
  | .remove topic rawIds => do
      let _ ← Inventory.remove topic rawIds
      return ()
  | .dataCycle m bound => do
      let _ ← Inventory.dataCycle m bound
      return ()
  | .wait _ => return ()

/-- A chore that was done, with the world before and after it. -/
structure DoneChore where
  before : World
  chore : Chore
  after : World

namespace World

/-- The world after a chore. -/
def carryOut (c : Circumstances) (w : World) : Chore → World
  | .wait length => w.advance length
  | chore => (chore.program.run (reply c) w).2

/-- The world after chores one after the other, from the beginning. -/
def carriedOut (c : Circumstances) (chores : List Chore) : World :=
  chores.foldl (carryOut c) empty

/-- The chores that were done, from a world on. -/
def doneChoresFrom (c : Circumstances) : World → List Chore → List DoneChore
  | _, [] => []
  | w, chore :: rest => ⟨w, chore, w.carryOut c chore⟩ :: doneChoresFrom c (w.carryOut c chore) rest

/-- The chores that were done, from the beginning. -/
def doneChores (c : Circumstances) (chores : List Chore) : List DoneChore :=
  doneChoresFrom c empty chores

theorem carriedOut_snoc (c : Circumstances) (chores : List Chore) (chore : Chore) :
    carriedOut c (chores ++ [chore]) = (carriedOut c chores).carryOut c chore := by
  rw [carriedOut, List.foldl_append]
  rfl

theorem doneChores_snoc (c : Circumstances) (chores : List Chore) (chore : Chore) :
    doneChores c (chores ++ [chore]) =
      doneChores c chores ++ [⟨carriedOut c chores, chore, carriedOut c (chores ++ [chore])⟩] := by
  rw [carriedOut_snoc]
  have hgen : ∀ w, doneChoresFrom c w (chores ++ [chore]) = doneChoresFrom c w chores ++
      [⟨chores.foldl (carryOut c) w, chore, (chores.foldl (carryOut c) w).carryOut c chore⟩] := by
    induction chores with
    | nil => exact fun _ => rfl
    | cons first rest ih => exact fun w => congrArg (List.cons _) (ih _)
  exact hgen empty

end World

/-! ## Agreement -/

/-- If a handle is ready, its datastore is as it was requested: nothing if no data are wanted, and otherwise
not in step, or in step since some time with data that are kept. -/
def HandleStatus.Agrees (s : HandleStatus) (data : Option Fetched) : Prop :=
  s.lifecycle = .ready →
    if s.dataSync then
      s.operational = .initial true ∨
        (s.syncState = .synchronized ∧ s.operational.lastSync ≠ none ∧ data ≠ none)
    else s.operational = .initial false

/-- What holds of a handle at all times. -/
structure World.InOrder (id : HandleId) (w : World) : Prop where
  sound : w.store.Sound
  /-- No data are kept of a handle that is not stored. -/
  orphaned : w.store.record? id = none → w.store.fetched? .data id = none
  agrees : ∀ h, w.store.record? id = some h → h.status.Agrees (w.store.fetched? .data id)

/-- What is left of a handle is the handle that was there, switched on or off as before. If it is switched off
its data are left as they are. -/
structure Continues (id : HandleId) (w w' : World) : Prop where
  inOrder : w'.InOrder id
  same : ∀ g, w'.store.record? id = some g → ∃ h, w.store.record? id = some h ∧
    h.status.dataSync = g.status.dataSync ∧
      (g.status.dataSync = false → w'.store.fetched? .data id = w.store.fetched? .data id)

section

variable {id : HandleId} {u v w w' : World}

theorem agrees_nextStatus (s : HandleStatus) (target : Lifecycle) (reason : Option LockReason)
    (now : Instant) (data : Option Fetched) : (nextStatus s target reason now).Agrees data := by
  intro hready
  have hready : target = .ready := hready
  subst hready
  cases hsync : s.dataSync <;> simp [nextStatus, hsync]

theorem agrees_setDataSync (s : HandleStatus) (enabled : Bool) (now : Instant) (data : Option Fetched) :
    (s.setDataSync enabled now).Agrees data := by
  intro _
  cases enabled <;> simp [HandleStatus.setDataSync]

theorem agrees_markSynchronized {s : HandleStatus} (hsync : s.dataSync = true) (now : Instant)
    {data : Option Fetched} (hdata : data ≠ none) : (s.markSynchronized now).Agrees data := by
  intro _
  have hsync : (s.markSynchronized now).dataSync = true := hsync
  rw [if_pos hsync]
  exact Or.inr ⟨rfl, Option.some_ne_none now, hdata⟩

theorem World.InOrder.continues (hw : w.InOrder id) : Continues id w w :=
  ⟨hw, fun g hg => ⟨g, hg, rfl, fun _ => rfl⟩⟩

/-- Nothing changed of the handle. -/
theorem Continues.of_same (hw : w.InOrder id) (hsound : w'.store.Sound)
    (hrecord : w'.store.record? id = w.store.record? id)
    (hfetched : w'.store.fetched? .data id = w.store.fetched? .data id) : Continues id w w' := by
  refine ⟨⟨hsound, ?_, ?_⟩, ?_⟩
  · rw [hrecord, hfetched]
    exact hw.orphaned
  · rw [hrecord, hfetched]
    exact hw.agrees
  · exact fun g hg => ⟨g, hrecord ▸ hg, rfl, fun _ => hfetched⟩

theorem Continues.of_store (hw : w.InOrder id) (h : w'.store = w.store) : Continues id w w' :=
  .of_same hw (h ▸ hw.sound) (by rw [h]) (by rw [h])

theorem Continues.trans (h₁ : Continues id u v) (h₂ : Continues id v w) : Continues id u w := by
  refine ⟨h₂.inOrder, ?_⟩
  intro g hg
  rcases h₂.same g hg with ⟨k, hk, hsync, hdata⟩
  rcases h₁.same k hk with ⟨h, hh, hsync', hdata'⟩
  exact ⟨h, hh, hsync'.trans hsync, fun hoff => (hdata hoff).trans (hdata' (hsync.trans hoff))⟩

/-- A new status that leaves the switch as it is and agrees with the data. -/
theorem Continues.of_status (hw : w.InOrder id) {i : HandleId} {h : Handle} {status : HandleStatus}
    (hr : w.store.record? i = some h) (hstore : w'.store = w.store.putHandle { h with status := status })
    (hsync : i = id → status.dataSync = h.status.dataSync)
    (hagrees : i = id → status.Agrees (w.store.fetched? .data id)) : Continues id w w' := by
  have hfetched : w'.store.fetched? .data id = w.store.fetched? .data id := by
    rw [hstore]
    exact Store.fetched?_congr rfl rfl
  have hid := hw.sound.id_of_record? hr
  have hrecord : w'.store.record? id =
      if i = id then some { h with status := status } else w.store.record? id := by
    rw [hstore, Store.record?_putHandle]
    exact if_congr (by rw [hid]) rfl rfl
  by_cases hi : i = id
  · subst hi
    rw [if_pos rfl] at hrecord
    refine ⟨⟨by rw [hstore]; exact hw.sound.putHandle _, ?_, ?_⟩, ?_⟩
    · intro hnone
      rw [hrecord] at hnone
      cases hnone
    · intro g hg
      rw [hrecord, Option.some.injEq] at hg
      rw [hfetched, ← hg]
      exact hagrees rfl
    · intro g hg
      rw [hrecord, Option.some.injEq] at hg
      exact ⟨h, hr, by rw [← hg]; exact (hsync rfl).symm, fun _ => hfetched⟩
  · rw [if_neg hi] at hrecord
    exact .of_same hw (by rw [hstore]; exact hw.sound.putHandle _) hrecord hfetched

end

/-! ## Programs under which a handle goes on -/

/-- The setting alone in which a handle goes on as it was. -/
def Program.Continues {α : Type} (id : HandleId) (p : Program α) : Prop :=
  ∀ w : World, w.InOrder id → p.Ensures .alone (fun _ w' => CmInventory.Continues id w w') w

namespace Program

variable {α β : Type} {id : HandleId}

theorem continues_done (a : α) : (Program.done a).Continues id :=
  fun _ hw => hw.continues

theorem Continues.bind {p : Program α} {f : α → Program β} (hp : p.Continues id)
    (hf : ∀ a, (f a).Continues id) : (p >>= f).Continues id := by
  intro w hw
  refine (hp w hw).bind fun a v hv => ?_
  exact (hf a v hv.inOrder).mono fun _ _ h => hv.trans h

theorem Continues.mapM {f : α → Program β} {xs : List α} (h : ∀ x ∈ xs, (f x).Continues id) :
    (xs.mapM f).Continues id := by
  induction xs with
  | nil => exact continues_done []
  | cons x xs ih =>
      rw [List.mapM_cons]
      refine (h x (by simp)).bind fun y => ?_
      exact (ih fun z hz => h z (by simp [hz])).bind fun ys => continues_done _

/-- A request that has nothing to do with what is stored. -/
theorem continues_quiet {r : Request} (hr : r.IsQuiet) : (request r).Continues id :=
  fun _ hw => ensures_quiet hr fun _ _ h => .of_store hw h.store

/-- A call that only reads. -/
theorem continues_read {call : StoreCall} (hc : ¬ call.Deletes)
    (hread : ∀ s : Store, (s.perform call).2 = s) : (store call).Continues id :=
  fun w hw => ensures_read hc (hread w.store) fun _ h => .of_store hw h.store

end Program

namespace Inventory

variable {id : HandleId} {topic : String}

/-! ### Moves -/

theorem continues_announce {other : HandleId} {old : Option Lifecycle} {new : Lifecycle} :
    (announce topic other old new).Continues id :=
  fun _ hw => ensures_announce_store.mono fun _ _ h => .of_store hw h

theorem continues_move {snapshot : Handle} {target : Lifecycle} :
    (move snapshot target).run.Continues id := by
  by_cases ht : target = .deleted
  · rw [ht, run_move_deleted]
    exact fun w hw => hw.continues
  · intro w hw
    refine (ensures_move hw.sound ht).mono fun result w' hmoved => ?_
    rcases result with e | old
    · exact .of_store hw hmoved.1.store
    · cases old with
      | none => exact .of_store hw hmoved.1.store
      | some old =>
          rcases hmoved with ⟨-, h, reason, now, hr, -, -, -, -, hstore⟩
          exact .of_status hw hr hstore (fun _ => rfl) fun _ => agrees_nextStatus h.status target reason now _

theorem continues_applyBatch {batch : List (Handle × Lifecycle)} :
    (applyBatch topic batch).Continues id := by
  induction batch with
  | nil => exact Program.continues_done _
  | cons entry rest ih =>
      rcases entry with ⟨snapshot, target⟩
      have hentry : (applyEntry topic snapshot target).Continues id := by
        rw [applyEntry]
        refine continues_move.bind fun result => ?_
        rcases result with e | old
        · exact Program.continues_done _
        · cases old with
          | none => exact Program.continues_done _
          | some old => exact continues_announce.bind fun _ => Program.continues_done _
      rw [applyBatch]
      exact hentry.bind fun here => ih.bind fun more => Program.continues_done _

/-! ### Deletions -/

/-- A deletion takes the data along with the record, and leaves others as they are. -/
theorem continues_deletion {call : StoreCall} (hc : call.Deletes) : (Program.store call).Continues id := by
  intro w hw
  refine ensures_deletion (fun e w' hsame => .of_store hw hsame.store) ?_
  intro reply w' _ hperform
  have hsound : w'.store.Sound := by
    rw [show w'.store = (w.store.perform call).2 from (Prod.ext_iff.1 hperform).2]
    exact hw.sound.perform call
  -- A record is gone together with its data, or both are as before.
  have hcases : (w'.store.record? id = none ∧ w'.store.fetched? .data id = none) ∨
      (w'.store.record? id = w.store.record? id ∧
        w'.store.fetched? .data id = w.store.fetched? .data id) := by
    cases call with
    | delete i =>
        rw [Store.perform] at hperform
        cases hdel : w.store.delete i with
        | error e =>
            rw [hdel] at hperform
            rw [(Prod.mk.inj hperform).2]
            exact Or.inr ⟨rfl, rfl⟩
        | ok s =>
            rw [hdel] at hperform
            rw [(Prod.mk.inj hperform).2, (hw.sound.delete_ok hdel).2.2 id, Store.fetched?_delete hdel]
            by_cases hi : i = id <;> simp [hi]
    | deleteAll ids =>
        rw [Store.perform] at hperform
        cases hdel : w.store.deleteAll ids with
        | error e =>
            rw [hdel] at hperform
            rw [(Prod.mk.inj hperform).2]
            exact Or.inr ⟨rfl, rfl⟩
        | ok s =>
            rw [hdel] at hperform
            rw [(Prod.mk.inj hperform).2, (hw.sound.deleteAll_ok hdel).2.2.2 id,
              Store.fetched?_deleteAll hdel]
            by_cases hi : id ∈ ids <;> simp [hi]
    | _ => exact hc.elim
  rcases hcases with ⟨hnone, hdata⟩ | ⟨hrecord, hdata⟩
  · refine ⟨⟨hsound, fun _ => hdata, ?_⟩, ?_⟩ <;>
    · intro g hg
      rw [hnone] at hg
      cases hg
  · exact .of_same hw hsound hrecord hdata

theorem continues_deleted {i : HandleId} : (deleted i).Continues id := by
  have hclear : ∀ kind, (Program.request (.unmark kind i)).Continues id :=
    fun kind => Program.continues_quiet trivial
  rw [deleted, clearMarkers]
  exact ((hclear .data).bind fun _ => hclear .modules).bind fun _ => Program.continues_done _

theorem continues_deleteOne {i : HandleId} : (deleteOne i).Continues id := by
  have hdel : (StoreCall.delete i).Deletes := trivial
  rw [deleteOne]
  refine (continues_deletion hdel).bind fun answer => ?_
  cases answer with
  | ok _ => exact continues_deleted
  | error e => exact Program.continues_done _

theorem continues_deleteChunks {lists : List (List HandleId)} : (deleteChunks lists).Continues id := by
  induction lists with
  | nil => exact Program.continues_done _
  | cons chunk rest ih =>
      have hchunk : (deleteChunk chunk).Continues id := by
        have hdel : (StoreCall.deleteAll chunk).Deletes := trivial
        rw [deleteChunk]
        refine (continues_deletion hdel).bind fun answer => ?_
        cases answer with
        | ok _ => exact Program.Continues.mapM fun _ _ => continues_deleted
        | error e => exact Program.Continues.mapM fun _ _ => continues_deleteOne
      rw [deleteChunks]
      exact hchunk.bind fun here => ih.bind fun more => Program.continues_done _

theorem continues_remove {rawIds : List String} : (remove topic rawIds).Continues id := by
  have hmark : ∀ ids, (markDeleting topic ids).Continues id := by
    intro ids
    have hkeeps : ¬ (StoreCall.getMany ids).Deletes := fun hdel => hdel
    rw [markDeleting]
    refine (Program.continues_read hkeeps fun _ => rfl).bind fun found => ?_
    cases found with
    | error e => exact Program.continues_done _
    | ok snapshots => exact continues_applyBatch.bind fun _ => Program.continues_done _
  rw [remove]
  refine (hmark _).bind fun marked => ?_
  cases marked with
  | error e => exact Program.continues_done _
  | ok deleting =>
      refine continues_deleteChunks.bind fun deletions => ?_
      exact continues_applyBatch.bind fun _ => Program.continues_done _

/-! ### Data cycles -/

/-- Data are saved of a handle of which they are wanted. -/
theorem continues_saveData {w w' : World} {h : Handle} {data : Json.Value} (hw : w.InOrder id)
    (hr : w.store.record? h.id = some h) (hsync : h.status.dataSync = true)
    (hstore : w'.store = w.store.saveData h.id data) : CmInventory.Continues id w w' := by
  have hrecord : w'.store.record? id = w.store.record? id := by rw [hstore]; rfl
  have hfetched : w'.store.fetched? .data id =
      if h.id = id then some (.data data.render) else w.store.fetched? .data id := by
    rw [hstore, Store.fetched?_saveData, StoreCall.leaves?]
    by_cases hid : h.id = id <;> simp [hid]
  have hsound : w'.store.Sound := by
    rw [hstore]
    exact hw.sound.perform (.saveData h.id data)
  by_cases hid : h.id = id
  · subst hid
    have hgot : ∀ g, w'.store.record? h.id = some g → g = h := by
      intro g hg
      rw [hrecord, hr, Option.some.injEq] at hg
      exact hg.symm
    rw [if_pos rfl] at hfetched
    refine ⟨⟨hsound, ?_, ?_⟩, ?_⟩
    · intro hnone
      rw [hrecord, hr] at hnone
      cases hnone
    · intro g hg hready
      have hagrees := hw.agrees h hr
      rw [hgot g hg] at hready ⊢
      have hagrees := hagrees hready
      rw [if_pos hsync] at hagrees ⊢
      refine hagrees.imp id fun hsynced => ⟨hsynced.1, hsynced.2.1, ?_⟩
      rw [hfetched]
      exact Option.some_ne_none _
    · intro g hg
      rw [hgot g hg, hsync]
      exact ⟨h, hr, hsync, fun hoff => by cases hoff⟩
  · rw [if_neg hid] at hfetched
    exact .of_same hw hsound hrecord hfetched

theorem continues_markSynchronized {w : World} {h : Handle} (hw : w.InOrder id)
    (hr : w.store.record? h.id = some h) (hsync : h.status.dataSync = true)
    (hdata : w.store.fetched? .data h.id ≠ none) :
    (markSynchronized h.id).run.Ensures .alone (fun _ w' => CmInventory.Continues id w w') w := by
  refine (ensures_markSynchronized hw.sound).mono fun result w' hnoted => ?_
  cases result with
  | error e => exact .of_store hw hnoted.1.store
  | ok _ =>
      rcases hnoted with ⟨-, g, now, hg, -, hstore⟩
      obtain rfl : h = g := by
        rw [hr, Option.some.injEq] at hg
        exact hg
      refine .of_status hw hr hstore (fun _ => rfl) fun hid => agrees_markSynchronized hsync now ?_
      rwa [← hid]

/-- A visit to a handle whose data are wanted saves them before it notes that they are in step. -/
theorem continues_syncData {w : World} {h : Handle} (hw : w.InOrder id)
    (hr : w.store.record? h.id = some h) :
    (syncData h).run.Ensures .alone (fun _ w' => CmInventory.Continues id w w') w := by
  rw [syncData]
  split
  · rename_i hsync
    rw [Action.ensures_bind, Action.run_plugin, Program.ensures_bind]
    refine ensures_quiet trivial fun reply w₁ h₁ => ?_
    cases reply with
    | error e => exact .of_store hw h₁.store
    | ok reply =>
        change Action.Goes _ _ _ (.ok reply) w₁
        rw [Action.goes_ok, Action.ensures_bind, Action.run_ofExcept]
        cases dataOfReply reply with
        | error e => exact .of_store hw h₁.store
        | ok data =>
            change Action.Goes _ _ _ (.ok data) w₁
            rw [Action.goes_ok, Action.ensures_bind, Action.run_store, Program.ensures_bind]
            refine ensures_call (fun hdel => hdel) fun reply w₂ _ hperform => ?_
            rcases Prod.mk.inj hperform with ⟨rfl, hstore⟩
            rw [h₁.store] at hstore
            have hsaved : CmInventory.Continues id w w₂ := continues_saveData hw hr hsync hstore
            have hr₂ : w₂.store.record? h.id = some h := by rw [hstore]; exact hr
            have hdata : w₂.store.fetched? .data h.id ≠ none := by
              rw [hstore, Store.fetched?_saveData, StoreCall.leaves?, if_pos ⟨rfl, rfl⟩]
              exact Option.some_ne_none _
            exact (continues_markSynchronized hsaved.inOrder hr₂ hsync hdata).mono
              fun _ _ hmarked => hsaved.trans hmarked
  · exact hw.continues

theorem continues_dataCycle {m : Member} {bound : Nat} : (dataCycle m bound).Continues id := by
  intro w hw
  have hcycle : dataCycle m bound = visitAll (pick .data) (attempt m .data) bound [] .empty := rfl
  rw [hcycle]
  refine ensures_visitAll (fun v hv => hv.inOrder.sound)
    (fun v v' hv hsame => hv.trans (.of_store hv.inOrder hsame.store)) ?_ hw.continues
  intro h v hv hr _
  rw [attempt, whileMarked, Program.ensures_bind]
  refine ensures_quiet trivial fun put v₁ h₁ => ?_
  have hv₁ : CmInventory.Continues id v v₁ := .of_store hv.inOrder h₁.store
  cases put with
  | false => exact hv.trans hv₁
  | true =>
      refine (continues_syncData hv₁.inOrder (h₁.store ▸ hr)).bind fun result v₂ hv₂ => ?_
      refine Program.Ensures.bind (Q := fun _ v₃ => v₂.Same v₃) ?_ fun _ v₃ h₃ => ?_
      · exact ensures_quiet trivial fun _ _ h₃ => h₃
      · exact (hv.trans (hv₁.trans hv₂)).trans (.of_store hv₂.inOrder h₃.store)

/-! ## Each chore -/

/-- New handles are advised when they are stored. -/
theorem ensures_register_store {handles : List Handle} {w : World} :
    (register topic handles).Ensures .alone (fun _ w' => ∃ admitted : List Handle,
      (∀ h ∈ admitted, h.lifecycle = .advised) ∧ w'.store = (w.store.insert admitted).2) w := by
  refine ensures_registers.mono ?_
  rintro result w' ⟨admitted, haccepts, hstore, -⟩
  refine ⟨admitted, fun a ha => ?_, hstore⟩
  rcases haccepts.exists_of_mem ha with ⟨g, -, hadv, now, rfl⟩
  exact hadv

end Inventory

/-- How a handle that is switched off after a chore came to its data: it is new and has none, it was switched
off before and kept what it had, or it was switched off just now, when it was ready. -/
structure Chore.Leads (chore : Chore) (id : HandleId) (w w' : World) : Prop where
  inOrder : w'.InOrder id
  off : ∀ g, w'.store.record? id = some g → g.status.dataSync = false →
    (w.store.record? id = none ∧ w'.store.fetched? .data id = none) ∨
      ∃ h, w.store.record? id = some h ∧
        ((h.status.dataSync = false ∧ w'.store.fetched? .data id = w.store.fetched? .data id) ∨
          (h.status.dataSync = true ∧ h.lifecycle = .ready ∧ chore = .setDataSync id false ∧
            w'.store.fetched? .data id =
              if h.status.syncState = .synchronized then none else w.store.fetched? .data id))

section

variable {id : HandleId} {w w' : World} {chore : Chore}

theorem Continues.leads (h : Continues id w w') : chore.Leads id w w' := by
  refine ⟨h.inOrder, ?_⟩
  intro g hg hoff
  rcases h.same g hg with ⟨old, hold, hsync, hdata⟩
  exact Or.inr ⟨old, hold, Or.inl ⟨hsync.trans hoff, hdata hoff⟩⟩

open Inventory

theorem leads_register {topic : String} {handles : List Handle} (hw : w.InOrder id) :
    (register topic handles).Ensures .alone
      (fun _ w' => (Chore.register topic handles).Leads id w w') w := by
  refine ensures_register_store.mono ?_
  rintro _ w' ⟨admitted, hadv, hstore⟩
  have hrecord : w'.store.record? id =
      (w.store.record? id).or (admitted.find? fun h => h.id = id) := by
    rw [hstore, hw.sound.record?_insert]
  have hfetched : w'.store.fetched? .data id = w.store.fetched? .data id := by
    rw [hstore, Store.fetched?_insert]
  have hsound : w'.store.Sound := by
    rw [hstore]
    exact hw.sound.insert_sound admitted
  cases hr : w.store.record? id with
  | some h =>
      rw [hr, Option.some_or] at hrecord
      exact (Continues.of_same hw hsound (hrecord.trans hr.symm) hfetched).leads
  | none =>
      rw [hr, Option.none_or] at hrecord
      refine ⟨⟨hsound, fun _ => hfetched.trans (hw.orphaned hr), ?_⟩, ?_⟩
      · intro g hg hready
        rw [hrecord] at hg
        have hnew : g.lifecycle = .advised := hadv g (List.mem_of_find?_eq_some hg)
        rw [show g.status.lifecycle = .advised from hnew] at hready
        cases hready
      · exact fun g hg _ => Or.inl ⟨hr, hfetched.trans (hw.orphaned hr)⟩

theorem leads_setDataSync {i : HandleId} {enabled : Bool} (hw : w.InOrder id) :
    (setDataSync i enabled).run.Ensures .alone
      (fun _ w' => (Chore.setDataSync i enabled).Leads id w w') w := by
  refine (ensures_setDataSync hw.sound).mono fun result w' hswitched => ?_
  rcases result with e | _
  · exact (Continues.of_store hw hswitched.1.store).leads
  rcases hswitched with ⟨hsame, -⟩ | ⟨h, now, hr, hready, hdiffers, hstore⟩
  · exact (Continues.of_store hw hsame.store).leads
  have hid := hw.sound.id_of_record? hr
  subst hid
  have hrecord : ∀ j, w'.store.record? j = if h.id = j then
      some { h with status := h.status.setDataSync enabled now } else w.store.record? j := by
    intro j
    rw [hstore, switched]
    split <;> exact Store.record?_putHandle _ _ _
  have hfetched : w'.store.fetched? .data id =
      if h.id = id ∧ enabled = false ∧ h.status.syncState = .synchronized then none
      else w.store.fetched? .data id := by
    have hput : (w.store.putHandle { h with status := h.status.setDataSync enabled now }).fetched? .data id =
        w.store.fetched? .data id := Store.fetched?_congr rfl rfl
    rw [hstore, switched]
    by_cases hdrops : enabled = false ∧ h.status.syncState = .synchronized
    · rw [if_pos (by simp [hdrops]), Store.fetched?_deleteData, hput, StoreCall.leaves?]
      by_cases hid : h.id = id <;> simp [hid, hdrops]
    · rw [if_neg (by simpa using hdrops), hput, if_neg fun hall => hdrops hall.2]
  have hsound : w'.store.Sound := by
    rw [hstore, switched]
    split
    · exact (hw.sound.putHandle _).perform (.deleteData h.id)
    · exact hw.sound.putHandle _
  have hrecord := hrecord id
  by_cases hid : h.id = id
  · subst hid
    rw [if_pos rfl] at hrecord
    refine ⟨⟨hsound, ?_, ?_⟩, ?_⟩
    · intro hnone
      rw [hrecord] at hnone
      cases hnone
    · intro g hg
      rw [hrecord, Option.some.injEq] at hg
      rw [← hg]
      exact agrees_setDataSync h.status enabled now _
    · intro g hg hoff
      rw [hrecord, Option.some.injEq] at hg
      obtain rfl : enabled = false := by rw [← hg] at hoff; exact hoff
      refine Or.inr ⟨h, hr, Or.inr ⟨by simpa using hdiffers, hready, rfl, ?_⟩⟩
      rw [hfetched]
      exact if_congr (by simp) rfl rfl
  · rw [if_neg hid] at hrecord
    rw [if_neg fun hall => hid hall.1] at hfetched
    exact (Continues.of_same hw hsound hrecord hfetched).leads

/-- What a chore leaves behind. -/
theorem ensures_chore (chore : Chore) (hw : w.InOrder id) :
    chore.program.Ensures .alone (fun _ w' => chore.Leads id w w') w := by
  have hleads : ∀ {α : Type} {p : Program α}, p.Continues id →
      (p >>= fun _ => return ()).Ensures .alone (fun _ w' => chore.Leads id w w') w :=
    fun hp => (hp w hw).bind fun _ _ h => h.leads
  cases chore with
  | register topic handles => exact (leads_register hw).bind fun _ _ h => h
  | apply topic batch => exact hleads continues_applyBatch
  | setDataSync i enabled => exact (leads_setDataSync hw).bind fun _ _ h => h
  | delete i =>
      have hdel : (StoreCall.delete i).Deletes := trivial
      exact hleads (continues_deletion hdel)
  | deleteAll ids =>
      have hdel : (StoreCall.deleteAll ids).Deletes := trivial
      exact hleads (continues_deletion hdel)
  | remove topic rawIds => exact hleads continues_remove
  | dataCycle m bound => exact hleads continues_dataCycle
  | wait length => exact hw.continues.leads

end

/-! ## All chores -/

/-- Whether a handle is switched off after a chore. -/
def DoneChore.IsOff (id : HandleId) (t : DoneChore) : Prop :=
  ∃ g, t.after.store.record? id = some g ∧ g.status.dataSync = false

/-- Whether a chore switched a handle off that was not in step but had data. They are not dropped. -/
structure DoneChore.LeavesData (id : HandleId) (t : DoneChore) : Prop where
  chore : t.chore = .setDataSync id false
  off : t.IsOff id
  behind : ∃ h, t.before.store.record? id = some h ∧ h.status.dataSync = true ∧
    h.status.syncState = .unsynchronized
  data : t.before.store.fetched? .data id ≠ none

/-- The last switch of a handle left its data there, and it has been switched off since then. -/
def LeftOver (id : HandleId) (doneChores : List DoneChore) : Prop :=
  Since (DoneChore.LeavesData id) (fun t => ¬ t.IsOff id) doneChores

section

variable {c : Circumstances} {id : HandleId}

/-- What is kept after a chore of a handle that is then switched off was left by the chore, or it was kept
before and the handle was switched off already. -/
theorem Chore.Leads.leaves_iff {chore : Chore} {w w' : World} (hleads : chore.Leads id w w')
    (hw : w.InOrder id) {g : Handle} (hg : w'.store.record? id = some g)
    (hoff : g.status.dataSync = false) :
    (DoneChore.LeavesData id ⟨w, chore, w'⟩ ∨ (∃ h, w.store.record? id = some h ∧ h.status.dataSync = false) ∧
      w.store.fetched? .data id ≠ none) ↔ w'.store.fetched? .data id ≠ none := by
  rcases hleads.off g hg hoff with ⟨hnone, hdata⟩ | ⟨h, hh, hbefore⟩
  · -- A new handle has no data.
    refine iff_of_false ?_ fun hsome => hsome hdata
    rintro (⟨-, -, ⟨h, hh, -⟩, -⟩ | ⟨⟨h, hh, -⟩, -⟩)
    all_goals
      rw [hnone] at hh
      cases hh
  have honly : ∀ k, w.store.record? id = some k → k = h := by
    intro k hk
    rw [hh, Option.some.injEq] at hk
    exact hk.symm
  rcases hbefore with ⟨hwas, hdata⟩ | ⟨hon, hready, hchore, hdata⟩
  · -- It was switched off before, so that nothing was left just now.
    rw [hdata, and_iff_right ⟨h, hh, hwas⟩]
    refine or_iff_right ?_
    rintro ⟨-, -, ⟨k, hk, hon, -⟩, -⟩
    rw [honly k hk, hwas] at hon
    cases hon
  · -- It is switched off just now.
    have hbehind : h.status.syncState ≠ .synchronized ↔ h.status.syncState = .unsynchronized := by
      have hagrees := hw.agrees h hh hready
      rw [if_pos hon] at hagrees
      rcases hagrees with hinitial | ⟨hsynced, -⟩
      · have hstate : h.status.syncState = .unsynchronized := congrArg _ hinitial
        simp [hstate]
      · simp [hsynced]
    have hnot : ¬ ((∃ h, w.store.record? id = some h ∧ h.status.dataSync = false) ∧
        w.store.fetched? .data id ≠ none) := by
      rintro ⟨⟨k, hk, hwas⟩, -⟩
      rw [honly k hk, hon] at hwas
      cases hwas
    rw [or_iff_left hnot, hdata]
    constructor
    · rintro ⟨-, -, ⟨k, hk, -, hstate⟩, hkept⟩
      rw [honly k hk] at hstate
      rwa [if_neg (hbehind.2 hstate)]
    · intro hkept
      by_cases hsynced : h.status.syncState = .synchronized
      · rw [if_pos hsynced] at hkept
        exact absurd rfl hkept
      · rw [if_neg hsynced] at hkept
        exact ⟨hchore, ⟨g, hg, hoff⟩, ⟨h, hh, hon, hbehind.1 hsynced⟩, hkept⟩

section

variable (hc : ∀ n call e, c.storeFailure n call = some e → call.Deletes)

include hc

theorem leads_carryOut {w : World} (hw : w.InOrder id) (chore : Chore) :
    chore.Leads id w (w.carryOut c chore) := by
  have hrun := World.run_of_ensures hc (ensures_chore chore hw)
  cases chore with
  | wait length =>
      have hstore : (w.carryOut c (.wait length)).store = w.store := rfl
      exact (Continues.of_store hw hstore).leads
  | _ => exact hrun

/-- All data that a handle has while it is switched off are left over. -/
theorem leftOver_iff (chores : List Chore) :
    (World.carriedOut c chores).InOrder id ∧ (LeftOver id (World.doneChores c chores) ↔
      (∃ g, (World.carriedOut c chores).store.record? id = some g ∧ g.status.dataSync = false) ∧
        (World.carriedOut c chores).store.fetched? .data id ≠ none) := by
  induction chores using List.reverseRecOn with
  | nil =>
      have hnone : (World.carriedOut c []).store.record? id = none := Store.record?_empty id
      refine ⟨⟨Store.sound_empty, fun _ => rfl, ?_⟩, iff_of_false not_since_nil ?_⟩
      · intro h hh
        rw [hnone] at hh
        cases hh
      · rintro ⟨⟨g, hg, -⟩, -⟩
        rw [hnone] at hg
        cases hg
  | append_singleton chores chore ih =>
      rcases ih with ⟨hw, hleft⟩
      have hleads := leads_carryOut hc hw chore
      rw [← World.carriedOut_snoc] at hleads
      refine ⟨hleads.inOrder, ?_⟩
      rw [World.doneChores_snoc, LeftOver, since_snoc, not_not, ← LeftOver, hleft]
      by_cases hoff : ∃ g, (World.carriedOut c (chores ++ [chore])).store.record? id = some g ∧
          g.status.dataSync = false
      · refine (or_congr_right (and_iff_left hoff)).trans (Iff.trans ?_ (and_iff_right hoff).symm)
        rcases hoff with ⟨g, hg, hsync⟩
        exact hleads.leaves_iff hw hg hsync
      · refine iff_of_false ?_ fun h => hoff h.1
        rintro (hleaves | ⟨-, hstill⟩)
        · exact hoff hleaves.off
        · exact hoff hstill

/-- After any chores the datastore of a ready handle is as its switch says. If it is switched off there was
no synchronization, and data are kept exactly if the last switch left them. If it is switched on it is not in
step, or in step since some time with data that are kept. -/
theorem ready_agrees_with_datastore (chores : List Chore) {h : Handle}
    (hr : (World.carriedOut c chores).store.record? id = some h) (hready : h.lifecycle = .ready) :
    (h.status.dataSync = false →
      h.status.syncState = .noneRequested ∧ h.status.operational.lastSync = none ∧
        ((World.carriedOut c chores).store.fetched? .data id ≠ none ↔
          LeftOver id (World.doneChores c chores))) ∧
      (h.status.dataSync = true →
        (h.status.syncState = .unsynchronized ∧ h.status.operational.lastSync = none) ∨
          (h.status.syncState = .synchronized ∧ h.status.operational.lastSync ≠ none ∧
            (World.carriedOut c chores).store.fetched? .data id ≠ none)) := by
  obtain ⟨hw, hleft⟩ : (World.carriedOut c chores).InOrder id ∧ _ := leftOver_iff hc chores
  have hagrees := hw.agrees h hr hready
  constructor
  · intro hoff
    rw [if_neg (by simp [hoff])] at hagrees
    refine ⟨congrArg (·.syncState) hagrees, congrArg (·.lastSync) hagrees, ?_⟩
    rw [hleft]
    exact (and_iff_right ⟨h, hr, hoff⟩).symm
  · intro hon
    rw [if_pos hon] at hagrees
    exact hagrees.imp_left fun hinitial =>
      ⟨congrArg (·.syncState) hinitial, congrArg (·.lastSync) hinitial⟩

end

end

/-! ### A handle that comes back -/

/-- A handle of which the data are to be synchronized once it is ready. -/
def comingHandle : Handle :=
  { unsynchronizedHandle with
    status := { unsynchronizedHandle.status with lifecycle := .advised, operational := .unrequested } }

/-- A snapshot with a reason to lock it. -/
def misbehavingHandle : Handle :=
  { unsynchronizedHandle with
    status := { unsynchronizedHandle.status with lockReason := some ⟨.misbehaving, 0, "m"⟩ } }

/-- The handle becomes ready, is synchronized, leaves the state ready and comes back, and is switched off. -/
def comeAndGo : List Chore :=
  [.register "lcm" [comingHandle], .apply "lcm" [(comingHandle, .ready)],
    .dataCycle ⟨"x", .ofSeconds 300, .zero, "lcm"⟩ 1,
    .apply "lcm" [(misbehavingHandle, .locked), (misbehavingHandle, .ready)], .setDataSync ⟨"a"⟩ false]

/-- Circumstances in which every plugin gives the same data. -/
def reading : Circumstances :=
  { World.undisturbed with plugin := fun _ call =>
    match call with
    | .modules _ => .error .emptyBody
    | .read .. => .ok unwantedReply }

theorem reading_fails_not (n : Nat) (call : StoreCall) : reading.storeFailure n call = none := rfl

/-! The handle and the store after each of the chores. -/

def syncedHandle : Handle :=
  { unsynchronizedHandle with status := unsynchronizedHandle.status.markSynchronized default }

def lockedHandle : Handle :=
  { syncedHandle with
    status := nextStatus syncedHandle.status .locked misbehavingHandle.status.lockReason default }

def returnedHandle : Handle :=
  { lockedHandle with status := nextStatus lockedHandle.status .ready none default }

def offHandle : Handle :=
  { returnedHandle with status := returnedHandle.status.setDataSync false default }

def comingStore : Store := Store.empty.putHandle comingHandle

def readyStore : Store := comingStore.putHandle unsynchronizedHandle

def savedStore : Store := readyStore.saveData ⟨"a"⟩ unwantedData

def syncedStore : Store := savedStore.putHandle syncedHandle

def lockedStore : Store := syncedStore.putHandle lockedHandle

def returnedStore : Store := lockedStore.putHandle returnedHandle

theorem sound_readyStore : readyStore.Sound := (Store.sound_empty.putHandle _).putHandle _

theorem sound_savedStore : savedStore.Sound := sound_readyStore.perform (.saveData ⟨"a"⟩ unwantedData)

theorem sound_syncedStore : syncedStore.Sound := sound_savedStore.putHandle _

theorem record?_put (s : Store) {h : Handle} (hid : h.id = ⟨"a"⟩) :
    (s.putHandle h).record? ⟨"a"⟩ = some h :=
  (Store.record?_putHandle s h _).trans (if_pos hid)

/-- Each chore is followed from any world with what the chore before it left in the store. -/
theorem run_ready {w : World} (hw : w.store = comingStore) :
    ∃ w', (Chore.apply "lcm" [(comingHandle, .ready)]).program.run (World.reply reading) w = ((), w') ∧
      w'.store = readyStore ∧ w'.dataMarkers = w.dataMarkers := by
  have hs : comingStore.Sound := Store.sound_empty.putHandle _
  have hr : comingStore.record? ⟨"a"⟩ = some comingHandle := record?_put _ rfl
  rcases w with ⟨_, data, modules, pending, time, published, turn⟩
  subst hw
  have h₁ : (Chore.apply "lcm" [(comingHandle, .ready)]).program.run (World.reply reading)
      ⟨comingStore, data, modules, pending, time, published, turn⟩ = _ :=
    World.run_store reading_fails_not (hs.perform_status hr)
  have h₂ := h₁.trans (Program.run_ask _ _ _ _)
  have h₃ := h₂.trans (World.run_store reading_fails_not (hs.perform_saveStatusIf hr rfl _))
  exact ⟨_, h₃, rfl, rfl⟩

theorem run_dataCycle {w : World} (hw : w.store = readyStore) (hmarkers : w.dataMarkers = .empty) :
    ∃ w', (Chore.dataCycle ⟨"x", .ofSeconds 300, .zero, "lcm"⟩ 1).program.run (World.reply reading) w =
      ((), w') ∧ w'.store = syncedStore := by
  have hholds : readyStore.HoldsOnly unsynchronizedHandle := (Store.HoldsOnly.putHandle_empty comingHandle).put rfl
  have hselect := hholds.perform_bySyncState .unsynchronized
  have hr : readyStore.record? ⟨"a"⟩ = some unsynchronizedHandle := record?_put _ rfl
  have hr' : savedStore.record? ⟨"a"⟩ = some unsynchronizedHandle := hr
  rcases w with ⟨_, _, modules, pending, time, published, turn⟩
  subst hw
  subst hmarkers
  have h₁ : (Chore.dataCycle ⟨"x", .ofSeconds 300, .zero, "lcm"⟩ 1).program.run (World.reply reading)
      ⟨readyStore, .empty, modules, pending, time, published, turn⟩ = _ :=
    World.run_store reading_fails_not hselect
  have h₂ := h₁.trans (Program.run_ask _ _ _ _)
  have h₃ := h₂.trans (World.run_store reading_fails_not (sound_readyStore.perform_get hr))
  -- The marker is put, the plugin is asked, and what it reads is saved.
  have h₄ := h₃.trans (Program.run_ask _ _ _ _)
  have h₅ := h₄.trans (Program.run_ask _ _ _ _)
  have h₆ := h₅.trans (Program.run_ask _ _ _ _)
  have h₇ := h₆.trans (World.run_store reading_fails_not (sound_savedStore.perform_status hr'))
  have h₈ := h₇.trans (Program.run_ask _ _ _ _)
  have h₉ := h₈.trans
    (World.run_store reading_fails_not (sound_savedStore.perform_saveStatusIf hr' rfl _))
  exact ⟨_, h₉, rfl⟩

theorem run_back {w : World} (hw : w.store = syncedStore) :
    ∃ w', (Chore.apply "lcm" [(misbehavingHandle, .locked), (misbehavingHandle, .ready)]).program.run
      (World.reply reading) w = ((), w') ∧ w'.store = returnedStore := by
  have hs : lockedStore.Sound := sound_syncedStore.putHandle _
  have hr : syncedStore.record? ⟨"a"⟩ = some syncedHandle := record?_put _ rfl
  have hr' : lockedStore.record? ⟨"a"⟩ = some lockedHandle := record?_put _ rfl
  rcases w with ⟨_, data, modules, pending, time, published, turn⟩
  subst hw
  have h₁ : (Chore.apply "lcm" [(misbehavingHandle, .locked), (misbehavingHandle, .ready)]).program.run
      (World.reply reading) ⟨syncedStore, data, modules, pending, time, published, turn⟩ = _ :=
    World.run_store reading_fails_not (sound_syncedStore.perform_status hr)
  have h₂ := h₁.trans (Program.run_ask _ _ _ _)
  have h₃ := h₂.trans (World.run_store reading_fails_not (sound_syncedStore.perform_saveStatusIf hr rfl _))
  -- The first move is announced.
  have h₄ := h₃.trans (Program.run_ask _ _ _ _)
  have h₅ := h₄.trans (Program.run_ask _ _ _ _)
  have h₆ := h₅.trans (Program.run_ask _ _ _ _)
  have h₇ := h₆.trans (World.run_store reading_fails_not (hs.perform_status hr'))
  have h₈ := h₇.trans (Program.run_ask _ _ _ _)
  have h₉ := h₈.trans (World.run_store reading_fails_not (hs.perform_saveStatusIf hr' rfl _))
  exact ⟨_, h₉, rfl⟩

theorem run_off {w : World} (hw : w.store = returnedStore) :
    ∃ w', (Chore.setDataSync ⟨"a"⟩ false).program.run (World.reply reading) w = ((), w') ∧
      w'.store = returnedStore.putHandle offHandle := by
  have hs : returnedStore.Sound := (sound_syncedStore.putHandle _).putHandle _
  have hr : returnedStore.record? ⟨"a"⟩ = some returnedHandle := record?_put _ rfl
  rcases w with ⟨_, data, modules, pending, time, published, turn⟩
  subst hw
  have h₁ : (Chore.setDataSync ⟨"a"⟩ false).program.run (World.reply reading)
      ⟨returnedStore, data, modules, pending, time, published, turn⟩ = _ :=
    World.run_store reading_fails_not (hs.perform_status hr)
  have h₂ := h₁.trans (Program.run_ask _ _ _ _)
  have h₃ := h₂.trans (World.run_store reading_fails_not (hs.perform_saveStatusIf hr rfl _))
  exact ⟨_, h₃, rfl⟩

/-- In the end the handle is ready and switched off, and its data are kept. -/
theorem carriedOut_comeAndGo :
    (World.carriedOut reading comeAndGo).store.record? ⟨"a"⟩ = some offHandle ∧
      (World.carriedOut reading comeAndGo).store.fetched? .data ⟨"a"⟩ ≠ none := by
  have hregister : ∃ w, (Chore.register "lcm" [comingHandle]).program.run (World.reply reading) .empty =
      ((), w) ∧ w.store = comingStore ∧ w.dataMarkers = .empty := ⟨_, rfl, rfl, rfl⟩
  rcases hregister with ⟨w₁, hw₁, hstore₁, hmarkers₁⟩
  rcases run_ready hstore₁ with ⟨w₂, hw₂, hstore₂, hmarkers₂⟩
  rcases run_dataCycle hstore₂ (hmarkers₂.trans hmarkers₁) with ⟨w₃, hw₃, hstore₃⟩
  rcases run_back hstore₃ with ⟨w₄, hw₄, hstore₄⟩
  rcases run_off hstore₄ with ⟨w₅, hw₅, hstore₅⟩
  have hend : World.carriedOut reading comeAndGo = w₅ := by
    simp only [World.carriedOut, comeAndGo, List.foldl_cons, List.foldl_nil, World.carryOut, hw₁, hw₂, hw₃,
      hw₄, hw₅]
  have hkept : (returnedStore.putHandle offHandle).fetched? .data ⟨"a"⟩ = savedStore.fetched? .data ⟨"a"⟩ :=
    Store.fetched?_congr rfl rfl
  rw [hend, hstore₅, hkept, savedStore, Store.fetched?_saveData, StoreCall.leaves?, if_pos ⟨rfl, rfl⟩]
  exact ⟨record?_put _ rfl, Option.some_ne_none _⟩

/-- It is not true that nothing is kept of a ready handle that is switched off. -/
theorem not_only_kept_when_wanted :
    ¬ ∀ (c : Circumstances) (chores : List Chore) (id : HandleId) (h : Handle),
      (∀ n call, c.storeFailure n call = none) →
      (World.carriedOut c chores).store.record? id = some h → h.lifecycle = .ready →
      (h.status.dataSync = false →
        h.status.syncState = .noneRequested ∧ h.status.operational.lastSync = none ∧
          (World.carriedOut c chores).store.fetched? .data id = none) ∧
        (h.status.dataSync = true →
          (h.status.syncState = .unsynchronized ∧ h.status.operational.lastSync = none) ∨
            (h.status.syncState = .synchronized ∧ h.status.operational.lastSync ≠ none ∧
              (World.carriedOut c chores).store.fetched? .data id ≠ none)) := by
  intro hall
  rcases carriedOut_comeAndGo with ⟨hr, hkept⟩
  exact hkept ((hall reading comeAndGo ⟨"a"⟩ offHandle reading_fails_not hr rfl).1 rfl).2.2

/-- The data of that handle are left over. -/
theorem data_left_of_comeAndGo :
    (World.carriedOut reading comeAndGo).store.record? ⟨"a"⟩ = some offHandle ∧
      offHandle.lifecycle = .ready ∧ offHandle.status.dataSync = false ∧
      LeftOver ⟨"a"⟩ (World.doneChores reading comeAndGo) := by
  rcases carriedOut_comeAndGo with ⟨hr, hkept⟩
  have hagrees := ready_agrees_with_datastore (fun n call e hfails => by cases hfails) comeAndGo hr rfl
  exact ⟨hr, rfl, rfl, (hagrees.1 rfl).2.2.1 hkept⟩

end CmInventory
