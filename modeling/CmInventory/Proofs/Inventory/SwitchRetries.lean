import CmInventory.Proofs.Inventory.Batches
import CmInventory.Proofs.Program.Logged
import CmInventory.Proofs.Program.Recorded
import CmInventory.Proofs.Store.Fetched

/-!
# Data synchronization that is switched off again after failures

The synchronization of a handle whose data are in step is switched off in two writes: first the status, then
the data are dropped. Each of the calls of the store may fail, and whoever asked asks again until it succeeds.

If the store refuses to drop the data, the call fails although the status is written. The next call finds the
synchronization off, and succeeds without another attempt to drop the data. So what `switch_off_retried_iff`
says of any number of calls that fail, and of the call after them, turns on whether there was such a refusal:
without one a failed call leaves the status alone and the call that succeeds leaves no data; with one neither
holds.
-/

namespace CmInventory

open Inventory

/-! ## Calls one after the other -/

/-- The world after a call that switches the synchronization of a handle off. -/
def World.switchOff (w : World) (id : HandleId) (c : Circumstances) : World :=
  ((setDataSync id false).run.run (World.reply c) w).2

/-- The world after several such calls, each under circumstances of its own. -/
def World.switchOffs (w : World) (id : HandleId) (calls : List Circumstances) : World :=
  calls.foldl (fun v c => v.switchOff id c) w

/-- The call gives an error. -/
def World.SwitchFails (w : World) (id : HandleId) (c : Circumstances) : Prop :=
  ∃ e, ((setDataSync id false).run.run (World.reply c) w).1 = .error e

/-- The store was asked to drop the data of a handle, and did not. -/
def Exchange.RefusesDrop (id : HandleId) (e : Exchange) : Prop :=
  ∃ fault, e = ⟨.store (.deleteData id), .error fault⟩

/-- In the call the store refuses to drop the data. -/
def World.RefusesDrop (w : World) (id : HandleId) (c : Circumstances) : Prop :=
  ∃ t ∈ (setDataSync id false).run.turns (World.reply c) w, t.exchange.RefusesDrop id

/-- Each of several calls gives an error. -/
def World.AllFail (id : HandleId) : World → List Circumstances → Prop
  | _, [] => True
  | w, c :: rest => w.SwitchFails id c ∧ (w.switchOff id c).AllFail id rest

/-- In one of several calls the store refuses to drop the data. -/
def World.RefusedDrop (id : HandleId) : World → List Circumstances → Prop
  | _, [] => False
  | w, c :: rest => w.RefusesDrop id c ∨ (w.switchOff id c).RefusedDrop id rest

/-! ## One call -/

section

variable {c : Circumstances} {w : World} {h : Handle} {s s' : Store}

/-- The store once the synchronization of a handle is switched off in its status. -/
def Store.withoutSync (s : Store) (h : Handle) (now : Instant) : Store :=
  s.overwrite { h with status := h.status.setDataSync false now }

/-- How a call ends for a ready handle of which the data are in step: it fails before anything is written, or
it fails between its two writes, or both are made. -/
def SwitchEnds (h : Handle) (s : Store) (result : Except InventoryError Unit) (refused : Prop)
    (s' : Store) : Prop :=
  ((∃ e, result = .error e) ∧ ¬ refused ∧ s' = s) ∨
    ∃ now, ((∃ e, result = .error e) ∧ refused ∧ s' = s.withoutSync h now) ∨
      (result = .ok () ∧ ¬ refused ∧ s' = (s.withoutSync h now).deleteData h.id)

/-- The turns are logged of a run under given circumstances, in which a call of the store fails and has no
effect or is performed. -/
theorem logged_store {call : StoreCall} {log : List (Turn World)}
    {Q : Except StoreError call.Answer → Logged World → Prop}
    (hfailed : ∀ e w' t, t.exchange = ⟨.store call, .error e⟩ → w'.store = w.store →
      Q (.error e) (w', log ++ [t]))
    (h : ∀ w' t, t.exchange = ⟨.store call, (w.store.perform call).1⟩ →
      w'.store = (w.store.perform call).2 → Q (w.store.perform call).1 (w', log ++ [t])) :
    (Program.store call).Ensures (.logged (Setting.under c).answers) Q (w, log) := by
  refine logged_request fun reply w' hreply => ?_
  rcases (World.answers_of_reply hreply).store with ⟨-, ⟨e, -, rfl, hstore⟩ | hperform⟩
  · exact hfailed e w' _ rfl hstore
  · rw [Prod.ext_iff] at hperform
    rcases hperform with ⟨rfl, hstore⟩
    exact h w' _ rfl hstore

/-- Whether the log of a run has a refusal to drop the data. -/
def RefusalLogged (id : HandleId) (log : List (Turn World)) : Prop :=
  ∃ t ∈ log, t.exchange.RefusesDrop id

/-- No other exchange is a refusal to drop data. -/
theorem refusalLogged_snoc {id : HandleId} {log : List (Turn World)} {t : Turn World}
    (ht : t.exchange.request ≠ .store (.deleteData id)) :
    RefusalLogged id (log ++ [t]) ↔ RefusalLogged id log := by
  have hnot : ¬ t.exchange.RefusesDrop id := by
    rintro ⟨fault, heq⟩
    exact ht (congrArg Exchange.request heq)
  simp [RefusalLogged, or_and_right, exists_or, hnot]

/-- The writes of a call, once the status of the handle was read and the clock was asked. -/
def switchWrites (h : Handle) (now : Instant) : Action Unit := do
  saveFrom h.id .ready (h.status.setDataSync false now)
  dropData h.id h.status false

/-- A call fails or is done before it writes, or it comes to its writes, with everything as it was. -/
theorem switches_setDataSync_of {Q : Except InventoryError Unit → Logged World → Prop}
    (hget : w.store.get h.id = .ok h)
    (hfailed : ∀ e v log, v.store = w.store → ¬ RefusalLogged h.id log → Q (.error e) (v, log))
    (hoff : h.status.dataSync = false →
      ∀ v log, v.store = w.store → ¬ RefusalLogged h.id log → Q (.ok ()) (v, log))
    (hwrites : h.status.dataSync = true → h.lifecycle = .ready →
      ∀ now v log, v.store = w.store → ¬ RefusalLogged h.id log →
        (switchWrites h now).run.Ensures (.logged (Setting.under c).answers) Q (v, log)) :
    (setDataSync h.id false).run.Ensures (.logged (Setting.under c).answers) Q (w, []) := by
  refine ensures_setDataSync_iff.2 (logged_store (fun e v t ht hv => ?_) fun v t ht hv => ?_)
  all_goals
    have hread : ¬ RefusalLogged h.id ([] ++ [t]) := by
      rw [refusalLogged_snoc (by simp [ht])]
      simp [RefusalLogged]
  · exact hfailed _ v _ hv hread
  rw [Store.perform_status hget] at hv ⊢
  refine ⟨fun hsync => hoff hsync v _ hv hread, fun _ _ => hfailed _ v _ hv hread, ?writes⟩
  case writes =>
    intro hsync hready
    refine logged_request fun now v' hreply => ?_
    have hstore : v'.store = w.store := by
      cases hreply
      exact hv
    have hclock : ¬ RefusalLogged h.id ([] ++ [t] ++ [⟨0, .now, now, v, v'⟩]) := by
      rwa [refusalLogged_snoc (by simp [Turn.exchange])]
    exact Action.ensures_bind.1 (hwrites (by simpa using hsync) hready now v' _ hstore hclock)

theorem switches_writes {log : List (Turn World)} {now : Instant} (hget : w.store.get h.id = .ok h)
    (hready : h.lifecycle = .ready) (hsync : h.status.syncState = .synchronized)
    (hlog : ¬ RefusalLogged h.id log) :
    (switchWrites h now).run.Ensures (.logged (Setting.under c).answers)
      (fun result v => SwitchEnds h w.store result (RefusalLogged h.id v.2) v.1.store) (w, log) := by
  rw [switchWrites, Action.ensures_bind, ensures_saveFrom_iff]
  refine logged_store (fun e v t ht hv => ?_) fun v t ht hv => ?_
  all_goals
    have hsaved : ¬ RefusalLogged h.id (log ++ [t]) := by
      rwa [refusalLogged_snoc (by simp [ht])]
  · exact Or.inl ⟨⟨_, rfl⟩, hsaved, hv⟩
  rw [Store.perform_saveStatusIf hget hready] at hv ⊢
  refine ensures_dropData_iff.2 ?_
  rw [if_pos (by simp [hsync])]
  refine logged_store (fun e v' t' ht' hv' => ?_) fun v' t' ht' hv' => ?_
  · exact Or.inr ⟨now, Or.inl ⟨⟨_, rfl⟩, ⟨t', by simp, e, ht'⟩, hv'.trans hv⟩⟩
  · refine Or.inr ⟨now, Or.inr ⟨rfl, ?_, ?_⟩⟩
    · rintro ⟨u, hu, fault, heq⟩
      rcases List.mem_append.1 hu with hu | hu
      · exact hsaved ⟨u, hu, fault, heq⟩
      · rw [List.mem_singleton.1 hu, ht'] at heq
        cases heq
    · rw [hv', hv]
      rfl

/-- A ready handle of which the data are in step. -/
structure Handle.InStep (h : Handle) : Prop where
  ready : h.lifecycle = .ready
  wanted : h.status.dataSync = true
  synchronized : h.status.syncState = .synchronized

/-- A call for a handle of which the data are in step. -/
theorem World.switchOff_ends (hget : w.store.get h.id = .ok h) (hstep : h.InStep) :
    SwitchEnds h w.store ((setDataSync h.id false).run.run (World.reply c) w).1 (w.RefusesDrop h.id c)
      (w.switchOff h.id c).store := by
  refine Program.Ensures.logged_under (Q := fun result v =>
    SwitchEnds h w.store result (RefusalLogged h.id v.2) v.1.store) ?_
  refine switches_setDataSync_of hget (fun e v log hv hlog => Or.inl ⟨⟨e, rfl⟩, hlog, hv⟩) ?_ ?_
  · intro hoff
    rw [hstep.wanted] at hoff
    cases hoff
  · intro _ _ now v log hv hlog
    rw [← hv] at hget ⊢
    exact switches_writes hget hstep.ready hstep.synchronized hlog

/-- A call for a handle of which the synchronization is off. -/
theorem World.switchOff_of_off (hget : w.store.get h.id = .ok h) (hoff : h.status.dataSync = false) :
    ¬ w.RefusesDrop h.id c ∧ (w.switchOff h.id c).store = w.store := by
  refine Program.Ensures.logged_under (p := (setDataSync h.id false).run) (Q := fun _ v =>
    ¬ RefusalLogged h.id v.2 ∧ v.1.store = w.store) ?_
  refine switches_setDataSync_of hget (fun e v log hv hlog => ⟨hlog, hv⟩)
    (fun _ v log hv hlog => ⟨hlog, hv⟩) ?_
  intro hon
  rw [hoff] at hon
  cases hon

/-- A call for a handle of which the synchronization is off succeeds if the store can be read. -/
theorem World.switchOff_succeeds {id : HandleId} (hc : ∀ n call, c.storeFailure n call = none)
    (hget : w.store.get id = .ok h) (hoff : h.status.dataSync = false) : ¬ w.SwitchFails id c := by
  have hrun : (setDataSync id false).run.run (World.reply c) w = (.ok (), w.nextTurn) := by
    refine (World.run_store hc (Store.perform_status hget)).trans ?_
    change (if h.status.dataSync = false then _ else _ : Action Unit).run.run _ _ = _
    rw [if_pos hoff]
    rfl
  rintro ⟨e, he⟩
  rw [hrun] at he
  cases he

end

/-! ## Calls that fail, and one that succeeds -/

section

variable {w : World} {h : Handle}

theorem Store.withoutSync_get {s : Store} (hget : s.get h.id = .ok h) (now : Instant) :
    (s.withoutSync h now).get h.id = .ok { h with status := h.status.setDataSync false now } :=
  (Store.get_overwrite (h := { h with status := h.status.setDataSync false now })
    (Store.contains_of_get hget) h.id).trans (if_pos rfl)

/-- Calls that come after the synchronization is off leave the store as it is. -/
theorem World.switchOffs_of_off (calls : List Circumstances) (hget : w.store.get h.id = .ok h)
    (hoff : h.status.dataSync = false) :
    ¬ w.RefusedDrop h.id calls ∧ (w.switchOffs h.id calls).store = w.store := by
  induction calls generalizing w with
  | nil => exact ⟨id, rfl⟩
  | cons c rest ih =>
      rcases World.switchOff_of_off (c := c) hget hoff with ⟨hnot, hstore⟩
      rcases ih (hstore.symm ▸ hget) with ⟨hrest, hstores⟩
      exact ⟨not_or.2 ⟨hnot, hrest⟩, hstores.trans hstore⟩

/-- Calls that all fail leave the store as it was, or the store refused to drop the data in one of them and
only the status is written. -/
theorem World.switchOffs_of_allFail {calls : List Circumstances} (hget : w.store.get h.id = .ok h)
    (hstep : h.InStep) (hfail : w.AllFail h.id calls) :
    (¬ w.RefusedDrop h.id calls ∧ (w.switchOffs h.id calls).store = w.store) ∨
      (w.RefusedDrop h.id calls ∧ ∃ now, (w.switchOffs h.id calls).store = w.store.withoutSync h now) := by
  induction calls generalizing w with
  | nil => exact Or.inl ⟨id, rfl⟩
  | cons c rest ih =>
      rcases hfail with ⟨⟨e, he⟩, hfail⟩
      rcases World.switchOff_ends (c := c) hget hstep with
        ⟨-, hnot, hstore⟩ | ⟨now, ⟨-, hrefused, hstore⟩ | ⟨hok, -⟩⟩
      · rw [RefusedDrop, or_iff_right hnot, ← hstore]
        exact ih (hstore.symm ▸ hget) hfail
      · have hoff := World.switchOffs_of_off (w := w.switchOff h.id c) rest
          (h := { h with status := h.status.setDataSync false now })
          (hstore ▸ Store.withoutSync_get hget now) rfl
        exact Or.inr ⟨Or.inl hrefused, now, hoff.2.trans hstore⟩
      · rw [hok] at he
        cases he

/-- The synchronization of a handle whose data are in step is switched off by calls of which all but the last
fail. A failed call leaves the record of the handle alone exactly if the store did not refuse to drop the data
in it. Once a call succeeds the synchronization is off, and nothing is kept of the handle exactly if nothing
was kept before or the store never refused to drop it. -/
theorem switch_off_retried_iff (calls : List Circumstances) (hget : w.store.get h.id = .ok h)
    (hstep : h.InStep) (hfail : w.AllFail h.id calls) (c : Circumstances) :
    ((w.switchOffs h.id calls).SwitchFails h.id c →
      ((w.switchOffs h.id (calls ++ [c])).store.get h.id = (w.switchOffs h.id calls).store.get h.id ↔
        ¬ (w.switchOffs h.id calls).RefusesDrop h.id c)) ∧
    (¬ (w.switchOffs h.id calls).SwitchFails h.id c →
      (∃ now, (w.switchOffs h.id (calls ++ [c])).store.get h.id =
        .ok { h with status := h.status.setDataSync false now }) ∧
      ((w.switchOffs h.id (calls ++ [c])).store.fetched? .data h.id = none ↔
        w.store.fetched? .data h.id = none ∨ ¬ w.RefusedDrop h.id calls)) := by
  have hlast : w.switchOffs h.id (calls ++ [c]) = (w.switchOffs h.id calls).switchOff h.id c := by
    simp [World.switchOffs]
  rw [hlast]
  rcases World.switchOffs_of_allFail hget hstep hfail with ⟨hnot, hstore⟩ | ⟨hrefused, now, hstore⟩
  · -- Nothing was written so far.
    have hget' : (w.switchOffs h.id calls).store.get h.id = .ok h := hstore ▸ hget
    rcases World.switchOff_ends (c := c) hget' hstep with
      ⟨hfails, hnow, hafter⟩ | ⟨now, ⟨hfails, hnow, hafter⟩ | ⟨hok, hnow, hafter⟩⟩
    · exact ⟨fun _ => iff_of_true (by rw [hafter]) hnow, fun hsucceeds => absurd hfails hsucceeds⟩
    · refine ⟨fun _ => iff_of_false ?_ (not_not_intro hnow), fun hsucceeds => absurd hfails hsucceeds⟩
      rw [hafter, Store.withoutSync_get hget', hget']
      intro heq
      have hsync : false = h.status.dataSync := congrArg (·.status.dataSync) (Except.ok.inj heq)
      rw [hstep.wanted] at hsync
      cases hsync
    · refine ⟨?_, fun _ => ⟨⟨now, ?_⟩, iff_of_true ?_ (Or.inr hnot)⟩⟩
      · rintro ⟨e, he⟩
        rw [hok] at he
        cases he
      · rw [hafter]
        exact Store.withoutSync_get hget' now
      · rw [hafter, Store.fetched?_deleteData, StoreCall.leaves?, if_pos ⟨rfl, rfl⟩]
        rfl
  · -- The status says already that the synchronization is off.
    have hget' : (w.switchOffs h.id calls).store.get h.id =
        .ok { h with status := h.status.setDataSync false now } :=
      hstore ▸ Store.withoutSync_get hget now
    have hoff := World.switchOff_of_off (c := c)
      (h := { h with status := h.status.setDataSync false now }) hget' rfl
    rw [hoff.2]
    refine ⟨fun _ => iff_of_true rfl hoff.1, fun _ => ⟨⟨now, hget'⟩, ?_⟩⟩
    rw [hstore, Store.withoutSync, Store.fetched?_overwrite, or_iff_left (not_not_intro hrefused)]

end

/-- Circumstances in which the store refuses to drop data. -/
def dropsRefused : Circumstances :=
  { World.undisturbed with storeFailure := fun _ call =>
      match call with
      | .deleteData _ => some .outOfOrder
      | _ => none }

/-- A handle of which the data are in step. -/
def inStepHandle : Handle :=
  { (default : Handle) with
    id := ⟨"a"⟩
    status := { (default : HandleStatus) with
      lifecycle := .ready
      dataSync := true
      operational := ⟨.synchronized, some default⟩ } }

/-- A world in which only that handle is stored, with data. -/
def inStepWorld : World :=
  { World.empty with store := (Store.empty.putHandle inStepHandle).saveData ⟨"a"⟩ (.object []) }

/-- In the example the first call fails when it drops the data, and the second one succeeds at once. The
record was changed by the call that failed, and after the call that succeeded the data are still kept. -/
theorem data_kept_after_retry :
    inStepWorld.AllFail inStepHandle.id [dropsRefused] ∧
      ¬ (inStepWorld.switchOffs inStepHandle.id [dropsRefused]).SwitchFails inStepHandle.id
        World.undisturbed ∧
      (inStepWorld.switchOffs inStepHandle.id [dropsRefused]).store.get inStepHandle.id ≠
        inStepWorld.store.get inStepHandle.id ∧
      (inStepWorld.switchOffs inStepHandle.id [dropsRefused, World.undisturbed]).store.fetched? .data
        inStepHandle.id ≠ none := by
  have hstep : inStepHandle.InStep := ⟨rfl, rfl, rfl⟩
  have hget : inStepWorld.store.get inStepHandle.id = .ok inStepHandle := HandleRow.handle_ofHandle _
  have hwrite := Store.perform_saveStatusIf hget hstep.ready
    (inStepHandle.status.setDataSync false default)
  have hrefused : inStepWorld.RefusesDrop inStepHandle.id dropsRefused :=
    ⟨_, Program.mem_turns_ask (World.reply_store rfl (Store.perform_status hget))
      (Program.mem_turns_ask (r := .now) rfl (Program.mem_turns_ask (World.reply_store rfl hwrite) (.head _))),
      .outOfOrder, rfl⟩
  have hends : inStepWorld.SwitchFails inStepHandle.id dropsRefused ∧
      ∃ now, (inStepWorld.switchOff inStepHandle.id dropsRefused).store =
        inStepWorld.store.withoutSync inStepHandle now := by
    rcases World.switchOff_ends (c := dropsRefused) hget hstep with
      ⟨-, hnot, -⟩ | ⟨now, ⟨hfails, -, hstore⟩ | ⟨-, hnot, -⟩⟩
    · exact absurd hrefused hnot
    · exact ⟨hfails, now, hstore⟩
    · exact absurd hrefused hnot
  rcases hends with ⟨hfails, now, hstore⟩
  have hcall : inStepWorld.switchOffs inStepHandle.id [dropsRefused] =
      inStepWorld.switchOff inStepHandle.id dropsRefused := by
    rw [World.switchOffs, List.foldl_cons, List.foldl_nil]
  have hsucceeds : ¬ (inStepWorld.switchOffs inStepHandle.id [dropsRefused]).SwitchFails inStepHandle.id
      World.undisturbed := by
    have hafter := Store.withoutSync_get hget now
    rw [← hstore, ← hcall] at hafter
    exact World.switchOff_succeeds (fun _ _ => rfl) hafter rfl
  have hfirst := switch_off_retried_iff [] hget hstep trivial dropsRefused
  have hsecond := switch_off_retried_iff [dropsRefused] hget hstep ⟨hfails, trivial⟩ World.undisturbed
  refine ⟨⟨hfails, trivial⟩, hsucceeds, fun heq => (hfirst.1 hfails).1 heq hrefused, fun hnone => ?_⟩
  rcases (hsecond.2 hsucceeds).2.1 hnone with hempty | hnever
  · cases hempty
  · exact hnever (Or.inl hrefused)

end CmInventory
