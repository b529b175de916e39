import CmInventory.Proofs.Inventory.Exclusion
import CmInventory.Proofs.Inventory.Traces
import CmInventory.Proofs.Store.Selections

/-!
# Data synchronization that is switched off during an attempt

A data cycle looks whether the data of a handle are wanted before it asks the plugin, on the handle that it
picked. When it saves the data it asks for no record, and when it notes that they are in step it asks only
that the handle is ready. So a handle of which the synchronization is switched off meanwhile is not left alone
by the attempt that is under way.

`switch_off_lasts_iff` says exactly when it is: if nothing was kept of the handle before, and the attempt
came to nothing before it saved. Both members are judged by their records. The cycle picks among handles that
a selection found, and notes only after it saved (`CycleMay`); the switch reads once and writes once
(`SwitchMay`), and drops the data only if it read that they are in step.
-/

namespace CmInventory

open Inventory

/-! ## What the members do -/

/-- The status of a handle was written. -/
def Exchange.WritesStatus (id : HandleId) (e : Exchange) : Prop :=
  ∃ expected status, e = ⟨.store (.saveStatusIf id expected status), .ok true⟩

/-- A handle was found that is not in step. -/
def FoundBehind (past : List Exchange) (id : HandleId) : Prop :=
  ∃ found, (⟨.store (.bySyncState .unsynchronized), .ok found⟩ : Exchange) ∈ past ∧ id ∈ found.map (·.id)

/-- What a data cycle may ask for after what it asked before. -/
def CycleMay : Request → List Exchange → Prop
  | .store (.bySyncState state), _ => state = .unsynchronized
  | .store (.get i), past => FoundBehind past i
  | .store (.status _), _ | .store (.saveData ..), _ => True
  | .store (.saveStatusIf i _ status), past =>
      status.syncState = .synchronized ∧ ∃ data, ⟨.store (.saveData i data), .ok ()⟩ ∈ past
  | .store _, _ => False
  | _, _ => True

/-- What a member may ask for that switches the synchronization of a handle off, one after the other. -/
inductive SwitchMay (id : HandleId) : Request → List Exchange → Prop
  | read : SwitchMay id (.store (.status id)) []
  | clock {s : HandleStatus} : SwitchMay id .now [⟨.store (.status id), .ok s⟩]
  | write {s : HandleStatus} {now : Instant} :
      SwitchMay id (.store (.saveStatusIf id .ready (s.setDataSync false now)))
        [⟨.store (.status id), .ok s⟩, ⟨.now, now⟩]
  | drop {s : HandleStatus} {now : Instant} (synchronized : s.syncState = .synchronized) :
      SwitchMay id (.store (.deleteData id))
        [⟨.store (.status id), .ok s⟩, ⟨.now, now⟩,
          ⟨.store (.saveStatusIf id .ready (s.setDataSync false now)), .ok true⟩]

section

variable {past : List Exchange} {id : HandleId}

theorem FoundBehind.mono {more : List Exchange} (h : FoundBehind past id) (hsub : past ⊆ more) :
    FoundBehind more id := by
  rcases h with ⟨found, hpast, hmem⟩
  exact ⟨found, hsub hpast, hmem⟩

namespace Inventory

theorem cycles_firstReady {bound : Nat} {ids : List HandleId}
    (hids : ∀ i ∈ ids, FoundBehind past i) :
    (firstReady bound ids).run.Ensures (.recorded CycleMay) (fun _ _ => True) past := by
  induction bound generalizing ids past with
  | zero => trivial
  | succ bound ih =>
      rw [firstReady, Action.ensures_bind, Action.run_lift, Program.ensures_bind]
      refine Program.ensures_draw (fun _ => trivial) (fun _ => trivial) ?_
      rintro i others last choice _ hperm rfl
      have hdrawn : ∀ j ∈ i :: others, FoundBehind (past ++ [⟨.choose last, choice⟩]) j :=
        fun j hj => (hids j (hperm.mem_iff.1 hj)).mono (List.subset_append_left ..)
      change Program.Ensures _ _ (_ : Action (Option Handle)).run _
      rw [Action.ensures_bind, Action.run_lift, Program.ensures_bind]
      refine recorded_request (hdrawn i (List.mem_cons_self ..)) fun reply => ?_
      -- If the handle is not ready, or gone, another one is drawn.
      have hnext : (firstReady bound others).run.Ensures (.recorded CycleMay) (fun _ _ => True)
          (past ++ [⟨.choose last, choice⟩] ++ [⟨.store (.get i), reply⟩]) := ih fun j hj =>
        (hdrawn j (List.mem_cons_of_mem _ hj)).mono (List.subset_append_left ..)
      cases reply with
      | ok h =>
          change Program.Ensures _ _ (if h.lifecycle = .ready then _ else _ : Action _).run _
          split
          · trivial
          · exact hnext
      | error e => cases e <;> first | exact hnext | trivial

theorem cycles_pickUnsynchronized {visited : List HandleId} :
    (pickUnsynchronized visited).run.Ensures (.recorded CycleMay) (fun _ _ => True) past := by
  rw [pickUnsynchronized, Action.ensures_bind, Action.run_store, Program.ensures_bind]
  refine recorded_request rfl fun reply => ?_
  cases reply with
  | error e => trivial
  | ok found =>
      refine cycles_firstReady fun i hi => ⟨found, by simp, (List.mem_filter.1 hi).1⟩

theorem cycles_markSynchronized
    (hsaved : ∃ data, (⟨.store (.saveData id data), .ok ()⟩ : Exchange) ∈ past) :
    (markSynchronized id).run.Ensures (.recorded CycleMay) (fun _ _ => True) past := by
  rcases hsaved with ⟨data, hsaved⟩
  refine ensures_markSynchronized_iff.2 (recorded_request trivial fun reply => ?_)
  cases reply with
  | error e => trivial
  | ok current =>
      refine ⟨fun _ => trivial, fun _ => recorded_request trivial fun now => ?_⟩
      exact ensures_saveFrom_iff.2 (recorded_request ⟨rfl, data, by simp [hsaved]⟩ fun _ => trivial)

theorem cycles_syncData {h : Handle} :
    (syncData h).run.Ensures (.recorded CycleMay) (fun _ _ => True) past := by
  rw [syncData]
  split
  · rw [Action.ensures_bind, Action.run_plugin, Program.ensures_bind]
    refine recorded_request trivial fun reply => ?_
    cases reply with
    | error e => trivial
    | ok reply =>
        change Program.Ensures _ _ (_ : Action Unit).run _
        rw [Action.ensures_bind, Action.run_ofExcept]
        cases hdata : dataOfReply reply with
        | error e => trivial
        | ok data =>
            change Program.Ensures _ _ (_ : Action Unit).run _
            rw [Action.ensures_bind, Action.run_store, Program.ensures_bind]
            refine recorded_request trivial fun saved => ?_
            cases saved with
            | error e => trivial
            | ok _ => exact cycles_markSynchronized ⟨data, by simp⟩
  · trivial

theorem cycles_dataCycle {m : Member} {bound : Nat} :
    (dataCycle m bound).Ensures (.recorded CycleMay) (fun _ _ => True) past := by
  have hvisit : ∀ (h : Handle) past,
      (attempt m .data h).Ensures (.recorded CycleMay) (fun _ _ => True) past := by
    intro h past
    rw [attempt, whileMarked, Program.ensures_bind]
    refine recorded_request trivial fun put => ?_
    cases put with
    | false => trivial
    | true =>
        refine cycles_syncData.bind fun result _ _ => ?_
        exact recorded_request trivial fun _ => trivial
  suffices hgen : ∀ visited report past,
      (visitAll pickUnsynchronized (attempt m .data) bound visited report).Ensures
        (.recorded CycleMay) (fun _ _ => True) past from hgen [] .empty past
  induction bound with
  | zero => exact fun _ _ _ => trivial
  | succ bound ih =>
      intro visited report past
      rw [visitAll]
      refine cycles_pickUnsynchronized.bind fun picked past' _ => ?_
      rcases picked with e | h
      · trivial
      · cases h with
        | none => trivial
        | some h => exact (hvisit h past').bind fun result past'' _ => ih _ _ past''

theorem switches_setDataSync :
    (setDataSync id false).run.Ensures (.recorded (SwitchMay id)) (fun _ _ => True) [] := by
  refine ensures_setDataSync_iff.2 (recorded_request .read fun reply => ?_)
  cases reply with
  | error e => trivial
  | ok s =>
      refine ⟨fun _ => trivial, fun _ _ => trivial, fun _ _ => recorded_request .clock fun now => ?_⟩
      refine ensures_saveFrom_iff.2 (recorded_request .write fun written => ?_)
      rcases written with e | written
      · trivial
      · cases written with
        | false => trivial
        | true =>
            refine ensures_dropData_iff.2 ?_
            split
            · rename_i hsync
              exact recorded_request (.drop (by simpa using hsync)) fun _ => trivial
            · trivial

end Inventory
end

/-! ## Writes of the status -/

/-- Whether a request changes records only by writing a status over the expected state, if at all. -/
def Request.WritesCarefully : Request → Prop
  | .store (.saveStatusIf ..) => True
  | .store call => ¬ call.WritesHandles
  | _ => True

section

variable {fails : StoreCall → Prop} {w w' : World} {id : HandleId}

theorem CycleMay.writesCarefully {r : Request} {past : List Exchange} (h : CycleMay r past) :
    r.WritesCarefully := by
  cases r with
  | store call =>
      cases call <;> first | trivial | exact fun hwrites => hwrites
  | _ => trivial

/-- A cycle saves data, and never drops them. -/
theorem CycleMay.not_drops {e : Exchange} {past : List Exchange} (h : CycleMay e.request past) :
    ¬ e.Drops .data id := by
  rcases e with ⟨r, reply⟩
  intro hdrops
  cases r with
  | store call =>
      cases call with
      | delete i => exact h
      | deleteAll ids => exact h
      | deleteData i => exact h
      | saveData i data => simp [Exchange.Drops, Exchange.leaves?, StoreCall.leaves?] at hdrops
      | _ => simp [Exchange.Drops, Exchange.leaves?, StoreCall.leaves?] at hdrops
  | _ => simp [Exchange.Drops, Exchange.leaves?] at hdrops

theorem SwitchMay.eq_nil_of_reads {past : List Exchange} (h : SwitchMay id (.store (.status id)) past) :
    past = [] := by
  cases h
  rfl

/-- The switch writes once, and what it writes is not in step. -/
theorem SwitchMay.of_writes {past : List Exchange} {expected : Lifecycle} {status : HandleStatus}
    (h : SwitchMay id (.store (.saveStatusIf id expected status)) past) :
    status.syncState = .noneRequested ∧ ∀ e ∈ past, ¬ e.WritesStatus id := by
  cases h
  refine ⟨rfl, ?_⟩
  rintro e he ⟨expected, status, rfl⟩
  simp at he

/-- The switch drops data only if it read that they are in step. -/
theorem SwitchMay.of_drops {past : List Exchange} {e : Exchange} (h : SwitchMay id e.request past)
    (hdrops : e.Drops .data id) :
    ∃ s : HandleStatus, ⟨.store (.status id), .ok s⟩ ∈ past ∧ s.syncState = .synchronized := by
  rcases e with ⟨r, reply⟩
  cases h with
  | drop hsync => exact ⟨_, List.mem_cons_self .., hsync⟩
  | _ => simp [Exchange.Drops, Exchange.leaves?, StoreCall.leaves?] at hdrops

theorem SwitchMay.writesCarefully {r : Request} {past : List Exchange} (h : SwitchMay id r past) :
    r.WritesCarefully := by
  cases h <;> first | trivial | exact fun hwrites => hwrites

/-- A status that was written is that of the record. -/
theorem World.Answers.record?_of_written (hs : w.store.Sound) {expected : Lifecycle}
    {status : HandleStatus}
    (hans : World.Answers fails (.store (.saveStatusIf id expected status)) w (.ok true) w') :
    ∃ g, w.store.record? id = some g ∧ w'.store.record? id = some { g with status := status } := by
  rcases World.Answers.store hans with ⟨-, ⟨e, -, heq, -⟩ | hperform⟩
  · cases heq
  rcases hs.saveStatusIf_cases hperform with ⟨g, hr, -, -, hstore⟩ | ⟨hne, -⟩
  · exact ⟨g, hr, by rw [hstore, Store.record?_putHandle, if_pos (hs.id_of_record? hr)]⟩
  · exact absurd rfl hne

/-- A handle that was read is the one that is stored. -/
theorem World.Answers.record?_of_get (hs : w.store.Sound) {h : Handle}
    (hans : World.Answers fails (.store (.get id)) w (.ok h) w') : w.store.record? id = some h := by
  rcases World.Answers.store hans with ⟨-, ⟨e, -, heq, -⟩ | hperform⟩
  · cases heq
  have hget := (Prod.mk.inj hperform).1
  rw [hs.get_eq] at hget
  cases hr : w.store.record? id <;> rw [hr] at hget <;> cases hget
  rfl

theorem World.Answers.record?_of_status (hs : w.store.Sound) {s : HandleStatus}
    (hans : World.Answers fails (.store (.status id)) w (.ok s) w') :
    ∃ g, w.store.record? id = some g ∧ g.status = s := by
  rcases World.Answers.store hans with ⟨-, ⟨e, -, heq, -⟩ | hperform⟩
  · cases heq
  have hstatus := (Prod.mk.inj hperform).1
  rw [hs.status_eq] at hstatus
  cases hr : w.store.record? id <;> rw [hr] at hstatus <;> cases hstatus
  exact ⟨_, rfl, rfl⟩

/-- The handles that were selected are stored in that sync state. -/
theorem World.Answers.record?_of_bySyncState (hs : w.store.Sound) {state : SyncState}
    {found : List Handle} (hans : World.Answers fails (.store (.bySyncState state)) w (.ok found) w')
    {g : Handle} (hg : g ∈ found) : w.store.record? g.id = some g ∧ g.status.syncState = state := by
  rcases World.Answers.store hans with ⟨-, ⟨e, -, heq, -⟩ | hperform⟩
  · cases heq
  have hselect := (Prod.mk.inj hperform).1
  rcases hs.bySyncState_eq state with ⟨found', hfound, -, hmem⟩
  rw [hfound] at hselect
  cases hselect
  exact (hmem g).1 hg

/-- Where no status was written the record is as it was. -/
theorem World.Answers.record?_of_unwritten (hs : w.store.Sound) {r : Request} {reply : r.Reply}
    (hans : World.Answers fails r w reply w') (hr : r.WritesCarefully)
    (hunwritten : ¬ Exchange.WritesStatus id ⟨r, reply⟩) : w'.store.record? id = w.store.record? id := by
  by_cases hchange : ∃ i expected status, r = .store (.saveStatusIf i expected status)
  · rcases hchange with ⟨i, expected, status, rfl⟩
    rcases World.Answers.store hans with ⟨-, ⟨e, -, -, hstore⟩ | hperform⟩
    · rw [hstore]
    refine hs.record?_of_saveStatusIf hperform ?_
    rintro rfl rfl
    exact hunwritten ⟨expected, status, rfl⟩
  · refine World.Answers.record? hans ?_ id
    rintro call rfl
    cases call with
    | saveStatusIf i expected status => exact absurd ⟨i, expected, status, rfl⟩ hchange
    | _ => exact hr

end

/-! ## Both members together -/

/-- A member that runs a data cycle, and one that switches the synchronization of a handle off. -/
def cycleAndSwitch (m : Member) (bound : Nat) (id : HandleId) : List (Program Unit) :=
  [do let _ ← dataCycle m bound; return (), do let _ ← (setDataSync id false).run; return ()]

/-- The data of a handle are not in step, and none are kept. -/
structure LeftAlone (id : HandleId) (w : World) : Prop where
  behind : ∀ g, w.store.record? id = some g → g.status.syncState ≠ .synchronized
  nothing : w.store.fetched? .data id = none

section

variable {m : Member} {bound : Nat} {h : Handle} {fails : StoreCall → Prop} {w₀ w : World}
  {turns past rest : List (Turn World)} {off : Turn World} {qs : List (Program Unit)}
  (hs : w₀.store.Sound)
  (hrun : Interleaved (World.Answers fails) (cycleAndSwitch m bound h.id) w₀ turns qs w)

include hs hrun

/-- Every turn is one of the cycle or one of the switch. -/
theorem Interleaved.cycle_or_switch {before after : List (Turn World)} {t : Turn World}
    (heq : turns = before ++ t :: after) :
    t.before.store.Sound ∧ World.Answers fails t.request t.before t.reply t.after ∧
      ((t.member = 0 ∧ CycleMay t.request (recordOf 0 before)) ∨
        (t.member = 1 ∧ SwitchMay h.id t.request (recordOf 1 before))) := by
  have hcycle : (do let _ ← dataCycle m bound; return () : Program Unit).Ensures (.recorded CycleMay)
      (fun _ _ => True) [] := cycles_dataCycle.bind fun _ _ _ => trivial
  have hswitch : (do let _ ← (setDataSync h.id false).run; return () : Program Unit).Ensures
      (.recorded (SwitchMay h.id)) (fun _ _ => True) [] := switches_setDataSync.bind fun _ _ _ => trivial
  have hinvariant := (hrun.invariant (I := fun v => v.store.Sound) hs
    fun r v reply v' hv hans => World.Answers.sound hans hv).2
  rcases hinvariant t (by simp [heq]) with ⟨hsound, -, hans⟩
  exact ⟨hsound, hans, (hrun.asked_pair hcycle hswitch).1 before t after heq⟩

/-- In a turn in which no status is written the record stays as it is. -/
theorem Interleaved.record?_turn {before after : List (Turn World)} {t : Turn World}
    (heq : turns = before ++ t :: after) (hunwritten : ¬ t.exchange.WritesStatus h.id) :
    t.after.store.record? h.id = t.before.store.record? h.id := by
  rcases hrun.cycle_or_switch hs heq with ⟨hsound, hans, ⟨-, hmay⟩ | ⟨-, hmay⟩⟩
  · exact hans.record?_of_unwritten hsound hmay.writesCarefully hunwritten
  · exact hans.record?_of_unwritten hsound hmay.writesCarefully hunwritten

/-- Before any status was written the record is the one of the start. -/
theorem Interleaved.record?_before {before after : List (Turn World)} {t : Turn World}
    (heq : turns = before ++ t :: after) (hnone : ∀ u ∈ before, ¬ u.exchange.WritesStatus h.id) :
    t.before.store.record? h.id = w₀.store.record? h.id := by
  rcases (hrun.upto heq).1 with ⟨qs', hupto⟩
  refine hupto.alongside (P := fun _ v => v.store.record? h.id = w₀.store.record? h.id) rfl ?_
  intro earlier u later hsplit _ hbefore
  have hsplit' : turns = earlier ++ u :: (later ++ t :: after) := by simp [heq, hsplit]
  exact (hrun.record?_turn hs hsplit' (hnone u (by simp [hsplit]))).trans hbefore

/-- The sync state is the one that was written last, by the member that wrote it. -/
theorem Interleaved.syncState_of_since {i : Nat}
    (hsince : Since (fun t => t.member = i ∧ t.exchange.WritesStatus h.id)
      (fun t => t.member ≠ i ∧ t.exchange.WritesStatus h.id) turns) :
    ∃ g, w.store.record? h.id = some g ∧
      g.status.syncState = if i = 0 then .synchronized else .noneRequested := by
  have hwritten : ∀ t ∈ turns, t.member = i → t.exchange.WritesStatus h.id →
      ∃ g, t.after.store.record? h.id = some g ∧
        g.status.syncState = if i = 0 then .synchronized else .noneRequested := by
    rintro t ht hi ⟨expected, status, hexchange⟩
    rcases List.append_of_mem ht with ⟨before, after, heq⟩
    rcases hrun.cycle_or_switch hs heq with ⟨hsound, hans, hmay⟩
    rcases t with ⟨j, r, reply, v, v'⟩
    cases hexchange
    rcases hans.record?_of_written hsound with ⟨g, -, hafter⟩
    refine ⟨_, hafter, ?_⟩
    rcases hmay with ⟨hzero, hmay⟩ | ⟨hone, hmay⟩
    · rw [← hi, if_pos hzero]
      exact hmay.1
    · rw [← hi, if_neg (by rw [hone]; decide)]
      exact hmay.of_writes.1
  refine hrun.since (I := fun v => ∃ g, v.store.record? h.id = some g ∧
    g.status.syncState = if i = 0 then .synchronized else .noneRequested) hsince ?_ ?_
  · exact fun t ht _ hown => hwritten t ht hown.1 hown.2
  · rintro t ht _ hkept ⟨g, hg, hstate⟩
    rcases List.append_of_mem ht with ⟨before, after, heq⟩
    by_cases hwrites : t.exchange.WritesStatus h.id
    · exact hwritten t ht (not_not.1 fun hne => hkept ⟨hne, hwrites⟩) hwrites
    · exact ⟨g, (hrun.record?_turn hs heq hwrites).trans hg, hstate⟩

/-- What the cycle picked before any status was written is what was stored, and is not in step. -/
theorem Interleaved.picked {before after : List (Turn World)} {pick : Turn World}
    (heq : turns = before ++ pick :: after) (hmember : pick.member = 0)
    (hpick : pick.exchange = ⟨.store (.get h.id), .ok h⟩)
    (hnone : ∀ t ∈ before, ¬ t.exchange.WritesStatus h.id) :
    w₀.store.record? h.id = some h ∧ h.status.syncState = .unsynchronized := by
  rcases hrun.cycle_or_switch hs heq with ⟨hsound, hans, ⟨-, hmay⟩ | ⟨hone, -⟩⟩
  · have hrecord := hrun.record?_before hs heq hnone
    rcases pick with ⟨i, r, reply, v, v'⟩
    cases hpick
    have hr : w₀.store.record? h.id = some h := hrecord.symm.trans (hans.record?_of_get hsound)
    refine ⟨hr, ?_⟩
    -- The selection found the id, when the record was the same.
    rcases hmay with ⟨found, hpast, hfound⟩
    rcases mem_recordOf.1 hpast with ⟨u, hu, -, hselect⟩
    rcases List.append_of_mem hu with ⟨earlier, later, rfl⟩
    have hsplit : turns = earlier ++ u :: (later ++ ⟨i, .store (.get h.id), .ok h, v, v'⟩ :: after) := by
      simp [heq]
    rcases hrun.cycle_or_switch hs hsplit with ⟨hsound', hans', -⟩
    have hsame := hrun.record?_before hs hsplit fun t ht => hnone t (by simp [ht])
    rcases u with ⟨j, r, reply, v₁, v₁'⟩
    cases hselect
    rcases List.mem_map.1 hfound with ⟨g, hg, hid⟩
    rcases hans'.record?_of_bySyncState hsound' hg with ⟨hg, hbehind⟩
    rw [hid, hsame, hr] at hg
    cases hg
    exact hbehind
  · rw [hone] at hmember
    cases hmember

end

/-! ### A switch that takes effect -/

section

variable {m : Member} {bound : Nat} {h : Handle} {fails : StoreCall → Prop} {w₀ w : World}
  {turns past rest : List (Turn World)} {off : Turn World} {qs : List (Program Unit)}
  (hs : w₀.store.Sound)
  (hrun : Interleaved (World.Answers fails) (cycleAndSwitch m bound h.id) w₀ turns qs w)
  (hturns : turns = past ++ off :: rest) (hoff : off.member = 1) (hwrites : off.exchange.WritesStatus h.id)

include hs hrun

/-- Of two turns of the switch only one writes the status. -/
theorem Interleaved.switches_once {before between after : List (Turn World)} {t u : Turn World}
    (heq : turns = before ++ t :: (between ++ u :: after)) (ht : t.member = 1) (hu : u.member = 1)
    (hwrites : t.exchange.WritesStatus h.id) : ¬ u.exchange.WritesStatus h.id := by
  rintro ⟨expected, status, hexchange⟩
  have hsplit : turns = (before ++ t :: between) ++ u :: after := by simp [heq]
  rcases hrun.cycle_or_switch hs hsplit with ⟨-, -, ⟨hzero, -⟩ | ⟨-, hmay⟩⟩
  · rw [hu] at hzero
    cases hzero
  · rw [show u.request = .store (.saveStatusIf h.id expected status) from
      congrArg Exchange.request hexchange] at hmay
    exact hmay.of_writes.2 t.exchange (mem_recordOf.2 ⟨t, by simp, ht, rfl⟩) hwrites

include hturns hoff hwrites

/-- All other writes of the status are by the cycle. -/
theorem Interleaved.writes_of_cycle {t : Turn World} (ht : t ∈ past ∨ t ∈ rest)
    (hwritten : t.exchange.WritesStatus h.id) : t.member = 0 := by
  rcases ht with ht | ht
  · rcases List.append_of_mem ht with ⟨before, between, rfl⟩
    have heq : turns = before ++ t :: (between ++ off :: rest) := by simp [hturns]
    rcases hrun.cycle_or_switch hs heq with ⟨-, -, ⟨hzero, -⟩ | ⟨hone, -⟩⟩
    · exact hzero
    · exact absurd hwrites (hrun.switches_once hs heq hone hoff hwritten)
  · rcases List.append_of_mem ht with ⟨between, after, rfl⟩
    have heq : turns = (past ++ off :: between) ++ t :: after := by simp [hturns]
    rcases hrun.cycle_or_switch hs heq with ⟨-, -, ⟨hzero, -⟩ | ⟨hone, -⟩⟩
    · exact hzero
    · exact absurd hwritten (hrun.switches_once hs hturns hoff hone hwrites)

/-- The data are in step in the end exactly if the cycle noted so after the switch. -/
theorem Interleaved.synchronized_iff :
    (∃ g, w.store.record? h.id = some g ∧ g.status.syncState = .synchronized) ↔
      ∃ t ∈ rest, t.member = 0 ∧ t.exchange.WritesStatus h.id := by
  have hcycle : ∀ t ∈ rest, t.exchange.WritesStatus h.id → t.member = 0 :=
    fun t ht => hrun.writes_of_cycle hs hturns hoff hwrites (Or.inr ht)
  constructor
  · rintro ⟨g, hg, hstate⟩
    by_contra hnone
    -- Otherwise the switch wrote last.
    have hlast := hrun.syncState_of_since hs (i := 1) ⟨past, off, rest, hturns, ⟨hoff, hwrites⟩,
      fun t ht hother => hnone ⟨t, ht, hcycle t ht hother.2, hother.2⟩⟩
    rcases hlast with ⟨g', hg', hstate'⟩
    rw [hg] at hg'
    cases hg'
    rw [hstate] at hstate'
    cases hstate'
  · rintro ⟨t, ht, hown⟩
    rcases List.append_of_mem ht with ⟨between, after, rfl⟩
    refine hrun.syncState_of_since hs (i := 0) ⟨past ++ off :: between, t, after, by simp [hturns], hown, ?_⟩
    rintro u hu ⟨hne, hwritten⟩
    exact hne (hcycle u (by simp [hu]) hwritten)

/-- The switch read the status before it wrote, when the record was still that of the start. -/
theorem Interleaved.read_by_switch (hr : w₀.store.record? h.id = some h)
    (hnone : ∀ t ∈ past, ¬ t.exchange.WritesStatus h.id) {t : Turn World} (ht : t ∈ turns)
    (hone : t.member = 1) {s : HandleStatus} (hread : t.exchange = ⟨.store (.status h.id), .ok s⟩) :
    s = h.status := by
  rw [hturns] at ht
  rcases List.mem_append.1 ht with ht | ht
  · rcases List.append_of_mem ht with ⟨before, after, rfl⟩
    have heq : turns = before ++ t :: (after ++ off :: rest) := by simp [hturns]
    rcases hrun.cycle_or_switch hs heq with ⟨hsound, hans, -⟩
    have hsame := hrun.record?_before hs heq fun u hu => hnone u (by simp [hu])
    rcases t with ⟨i, r, reply, v, v'⟩
    cases hread
    rcases hans.record?_of_status hsound with ⟨g, hg, rfl⟩
    rw [hsame, hr] at hg
    cases hg
    rfl
  rcases List.mem_cons.1 ht with rfl | ht
  · rcases hwrites with ⟨expected, status, hexchange⟩
    rw [hread] at hexchange
    cases hexchange
  · rcases List.append_of_mem ht with ⟨before, after, rfl⟩
    have heq : turns = (past ++ off :: before) ++ t :: after := by simp [hturns]
    rcases hrun.cycle_or_switch hs heq with ⟨-, -, ⟨hzero, -⟩ | ⟨-, hmay⟩⟩
    · rw [hone] at hzero
      cases hzero
    · -- It would be the first that the switch did.
      rw [show t.request = .store (.status h.id) from congrArg Exchange.request hread] at hmay
      have hmem : off.exchange ∈ recordOf 1 (past ++ off :: before) :=
        mem_recordOf.2 ⟨off, by simp, hoff, rfl⟩
      rw [hmay.eq_nil_of_reads] at hmem
      cases hmem

/-- The switch drops nothing, since it read that the data are not in step. -/
theorem Interleaved.not_drops (hr : w₀.store.record? h.id = some h)
    (hbehind : h.status.syncState ≠ .synchronized)
    (hnone : ∀ t ∈ past, ¬ t.exchange.WritesStatus h.id) :
    ∀ t ∈ turns, ¬ t.exchange.Drops .data h.id := by
  intro t ht hdrops
  rcases List.append_of_mem ht with ⟨before, after, heq⟩
  rcases hrun.cycle_or_switch hs heq with ⟨-, -, ⟨-, hmay⟩ | ⟨-, hmay⟩⟩
  · exact CycleMay.not_drops hmay hdrops
  · rcases SwitchMay.of_drops (e := t.exchange) hmay hdrops with ⟨s, hpast, hsync⟩
    rcases mem_recordOf.1 hpast with ⟨u, hu, hone, hread⟩
    have hs' := hrun.read_by_switch hs hturns hoff hwrites hr hnone (by simp [heq, hu]) hone hread
    rw [hs'] at hsync
    exact hbehind hsync

omit hs hturns hoff hwrites in
/-- If nothing was dropped, something is kept exactly if it was kept before or was saved. -/
theorem Interleaved.fetched?_eq_none_iff {kind : SyncKind} {id : HandleId}
    (hkept : ∀ t ∈ turns, ¬ t.exchange.Drops kind id) :
    w.store.fetched? kind id = none ↔
      w₀.store.fetched? kind id = none ∧ ∀ t ∈ turns, ¬ t.exchange.Saves kind id := by
  refine hrun.alongside (P := fun past v => v.store.fetched? kind id = none ↔
    w₀.store.fetched? kind id = none ∧ ∀ t ∈ past, ¬ t.exchange.Saves kind id) (by simp) ?_
  intro before t after heq hans hbefore
  rw [World.Answers.fetched? hans]
  simp only [List.forall_mem_append, List.forall_mem_singleton, ← and_assoc, ← hbefore]
  cases hleaves : Exchange.leaves? kind id ⟨t.request, t.reply⟩ with
  | none =>
      have hsaves : ¬ t.exchange.Saves kind id := by
        rintro ⟨c, hc⟩
        rw [show t.exchange.leaves? kind id = none from hleaves] at hc
        cases hc
      exact (and_iff_left hsaves).symm
  | some left =>
      cases left with
      | none => exact absurd hleaves (hkept t (by simp [heq]))
      | some c => simpa using fun _ => ⟨c, hleaves⟩

/-- A cycle picked a ready handle, and the synchronization of the handle is switched off before the cycle has
noted that the data are in step. From then on the handle is left alone exactly if nothing was kept of it
before and the cycle saves nothing: what the cycle saves is kept, and if it goes on to note that the data are
in step, they are in step from then on. -/
theorem switch_off_lasts_iff
    (hpicked : ∃ t ∈ past, t.member = 0 ∧ t.exchange = ⟨.store (.get h.id), .ok h⟩)
    (hunnoted : ∀ t ∈ past, t.member = 0 → ¬ t.exchange.WritesStatus h.id) :
    (LeftAlone h.id w ↔ w₀.store.fetched? .data h.id = none ∧
        ∀ t ∈ turns, ¬ t.exchange.Saves .data h.id) ∧
      ((∃ g, w.store.record? h.id = some g ∧ g.status.syncState = .synchronized) ↔
        ∃ t ∈ rest, t.member = 0 ∧ t.exchange.WritesStatus h.id) := by
  have hnone : ∀ t ∈ past, ¬ t.exchange.WritesStatus h.id := fun t ht hwritten =>
    hunnoted t ht (hrun.writes_of_cycle hs hturns hoff hwrites (Or.inl ht) hwritten) hwritten
  rcases hpicked with ⟨pick, hmem, hmember, hpick⟩
  have hbehind : w₀.store.record? h.id = some h ∧ h.status.syncState = .unsynchronized := by
    rcases List.append_of_mem hmem with ⟨before, after, rfl⟩
    have heq : turns = before ++ pick :: (after ++ off :: rest) := by simp [hturns]
    exact hrun.picked hs heq hmember hpick fun t ht => hnone t (by simp [ht])
  have hdata := hrun.fetched?_eq_none_iff (hrun.not_drops hs hturns hoff hwrites hbehind.1
    (by rw [hbehind.2]; decide) hnone)
  have hsync := hrun.synchronized_iff hs hturns hoff hwrites
  refine ⟨⟨fun halone => hdata.1 halone.nothing, fun hnothing => ⟨?_, hdata.2 hnothing⟩⟩, hsync⟩
  intro g hg hstate
  rcases hsync.1 ⟨g, hg, hstate⟩ with ⟨t, ht, hzero, expected, status, hexchange⟩
  -- Before it noted that the data are in step the cycle saved some.
  rcases List.append_of_mem ht with ⟨between, after, rfl⟩
  have heq : turns = (past ++ off :: between) ++ t :: after := by simp [hturns]
  rcases hrun.cycle_or_switch hs heq with ⟨-, -, ⟨-, hmay⟩ | ⟨hone, -⟩⟩
  · rw [show t.request = .store (.saveStatusIf h.id expected status) from
      congrArg Exchange.request hexchange] at hmay
    rcases hmay.2 with ⟨data, hpast⟩
    rcases mem_recordOf.1 hpast with ⟨u, hu, -, hsave⟩
    refine hnothing.2 u (by rw [heq]; exact List.mem_append_left _ hu) ⟨.data data.render, ?_⟩
    rw [hsave]
    exact if_pos ⟨rfl, rfl⟩
  · rw [hzero] at hone
    cases hone

end

/-! ### An attempt that goes on -/

/-- A plugin may answer with a reply. -/
theorem World.answers_read (fails : StoreCall → Prop) (h : Handle) (resource : String)
    (datastore : Datastore) (reply : PluginReply) (w : World) :
    World.Answers fails (.plugin (.read h resource datastore)) w (.ok reply) w.nextTurn := by
  refine ⟨{ World.undisturbed with plugin := fun _ call =>
    match call with
    | .modules _ => .error .emptyBody
    | .read .. => .ok reply }, .zero, ?_, rfl⟩
  intro n call e hfails
  cases hfails

/-- What a plugin reads. -/
def unwantedReply : PluginReply := ⟨200, "\x7b\"x\":1\x7d"⟩

/-- What is kept of it. -/
def unwantedData : Json.Value := .object [("x", .natural 1)]

/-- The handle once the synchronization is switched off. -/
def unwantedHandle : Handle :=
  { unsynchronizedHandle with status := unsynchronizedHandle.status.setDataSync false default }

/-- The store in which data were saved of that handle. -/
def unwantedStore : Store :=
  (unsynchronizedWorld.store.putHandle unwantedHandle).saveData ⟨"a"⟩ unwantedData

/-- The handle is picked, and while the plugin is asked the synchronization is switched off. The data are saved
all the same, and they count as in step. -/
theorem switch_off_undone :
    ∃ turns past off rest qs w,
      Interleaved (World.Answers fun _ => False)
        (cycleAndSwitch ⟨"x", .ofSeconds 300, .zero, "lcm"⟩ 1 unsynchronizedHandle.id)
        unsynchronizedWorld turns qs w ∧
      turns = past ++ off :: rest ∧ off.member = 1 ∧
      off.exchange.WritesStatus unsynchronizedHandle.id ∧
      (∃ t ∈ past, t.member = 0 ∧
        t.exchange = ⟨.store (.get unsynchronizedHandle.id), .ok unsynchronizedHandle⟩) ∧
      (∀ t ∈ past, t.member = 0 → ¬ t.exchange.WritesStatus unsynchronizedHandle.id) ∧
      qs = [.done (), .done ()] ∧
      (∃ t ∈ rest, t.member = 0 ∧ t.exchange.Saves .data unsynchronizedHandle.id) ∧
      ¬ LeftAlone unsynchronizedHandle.id w ∧
      ∃ g, w.store.record? unsynchronizedHandle.id = some g ∧ g.status.syncState = .synchronized := by
  have answered := World.answers_undisturbed fun _ => False
  have hholds : unsynchronizedWorld.store.HoldsOnly unsynchronizedHandle := .putHandle_empty _
  have hselect := hholds.perform_bySyncState .unsynchronized
  have hget := hholds.sound.perform_get hholds.record
  have hstatus := hholds.sound.perform_status hholds.record
  have hwrite := hholds.sound.perform_saveStatusIf hholds.record (rfl : _ = Lifecycle.ready)
  have h₀ := @Interleaved.start _ _ (World.Answers fun _ => False)
    (cycleAndSwitch ⟨"x", .ofSeconds 300, .zero, "lcm"⟩ 1 unsynchronizedHandle.id) unsynchronizedWorld
  have h₁ := h₀.snoc 0 rfl (World.answers_store _ _ hselect)
  have h₂ := h₁.snoc 0 rfl (answered (.choose 0) _)
  have h₃ := h₂.snoc 0 rfl (World.answers_store _ _ hget)
  have h₄ := h₃.snoc 0 rfl (answered _ _)
  have h₅ := h₄.snoc 1 rfl (World.answers_store _ _ hstatus)
  have h₆ := h₅.snoc 1 rfl (answered _ _)
  have h₇ := h₆.snoc 1 rfl (World.answers_store _ _ (hwrite _))
  -- The switch is done, and the plugin answers.
  have h₈ := h₇.snoc 0 rfl (World.answers_read _ _ _ _ unwantedReply _)
  have h₉ := h₈.snoc 0 rfl (answered (.store (.saveData ⟨"a"⟩ unwantedData)) _)
  have hs : unwantedStore.Sound :=
    (hholds.sound.putHandle unwantedHandle).perform (.saveData ⟨"a"⟩ unwantedData)
  have hr : unwantedStore.record? ⟨"a"⟩ = some unwantedHandle := (hholds.put (g := unwantedHandle) rfl).record
  have hstatus' := hs.perform_status hr
  have hwrite' := hs.perform_saveStatusIf hr (rfl : _ = Lifecycle.ready)
  have h₁₀ := h₉.snoc 0 rfl (World.answers_store _ _ hstatus')
  have h₁₁ := h₁₀.snoc 0 rfl (answered _ _)
  have h₁₂ := h₁₁.snoc 0 rfl (World.answers_store _ _ (hwrite' _))
  have h₁₃ := h₁₂.snoc 0 rfl (answered _ _)
  -- None of the requests before the switch writes the status.
  have hunnoted : ∀ t : Turn World, t.request ∈ [.store (.bySyncState .unsynchronized), .choose 0,
      .store (.get ⟨"a"⟩), .mark .data ⟨"a"⟩ "x" (.ofSeconds 300), .store (.status ⟨"a"⟩), .now] →
      ¬ t.exchange.WritesStatus ⟨"a"⟩ := by
    rintro t ht ⟨expected, status, hexchange⟩
    rw [show t.request = _ from congrArg Exchange.request hexchange] at ht
    simp at ht
  refine ⟨_, _, _, _, _, _, h₁₃, (List.take_append_drop 6 _).symm, rfl, ⟨_, _, rfl⟩,
    and_assoc.1 ((and_iff_left_of_imp ?_).2 ⟨?_, ?_⟩)⟩
  · rintro ⟨hpicked, hbefore⟩
    have hiff := switch_off_lasts_iff hholds.sound h₁₃ (List.take_append_drop 6 _).symm rfl ⟨_, _, rfl⟩
      hpicked hbefore
    refine ⟨rfl, ⟨_, List.mem_of_getElem? (i := 1) rfl, rfl, .data unwantedData.render, rfl⟩, ?_, ?_⟩
    · intro halone
      exact (hiff.1.1 halone).2 _ (List.mem_of_getElem? (i := 8) rfl) ⟨.data unwantedData.render, rfl⟩
    · exact hiff.2.2 ⟨_, List.mem_of_getElem? (i := 4) rfl, rfl, _, _, rfl⟩
  · exact ⟨_, .tail _ (.tail _ (.head _)), rfl, rfl⟩
  · exact fun t ht _ => hunnoted t (List.mem_map_of_mem (f := Turn.request) ht)

end CmInventory
