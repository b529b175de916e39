import CmInventory.Inventory.Cycle
import CmInventory.Proofs.Inventory.Announced

/-!
# Cycles keep events and records in agreement

A data cycle changes no lifecycle state, and a module cycle changes them by batches of moves only. Both
therefore end in a consistent world when they start in one, whatever the plugins answer, whichever handles
are drawn and however many visits there are (`ensures_dataCycle`, `ensures_moduleCycle`).
-/

namespace CmInventory
namespace Inventory

variable {w : World} {α : Type}

/-! ## Steps -/

theorem keeps_quiet (r : Request) (hr : r.IsQuiet) (hw : w.Consistent) :
    (Program.request r).Ensures .alone (fun _ => World.Consistent) w :=
  ensures_quiet hr fun _ _ h => hw.of_same h

/-- A call that leaves the rows of the handles as they are. -/
theorem keeps_call {call : StoreCall} (hc : ¬ call.Deletes)
    (hrows : (w.store.perform call).2.handles = w.store.handles) (hw : w.Consistent) :
    (Action.store call).run.Ensures .alone (fun _ => World.Consistent) w := by
  rw [Action.run_store, Program.ensures_bind]
  refine ensures_call hc ?_
  intro reply w' hpub hperform
  have hsame : w'.store.handles = w.store.handles := by
    rw [← hrows, ← hperform]
  refine hw.of_states ?_ hpub ?_
  · intro key row hrow
    rw [hsame] at hrow
    exact hw.sound key row hrow
  · intro id
    rw [Store.lifecycle?, Store.lifecycle?, Store.record?, Store.record?, hsame]

theorem keeps_draw {items : List α} (hw : w.Consistent) :
    (Action.lift (Program.draw items)).run.Ensures .alone (fun _ => World.Consistent) w := by
  rw [Action.run_lift, Program.ensures_bind]
  cases items with
  | nil => exact hw
  | cons item rest =>
      rw [Program.draw, Program.ensures_bind]
      exact (keeps_quiet (.choose rest.length) trivial hw).mono fun _ _ h => h

/-! ## Selection -/

theorem keeps_pickAdvised {visited : List HandleId} (hw : w.Consistent) :
    (pickAdvised visited).run.Ensures .alone (fun _ => World.Consistent) w := by
  refine keeps_bind (keeps_call (fun hdel => hdel) rfl hw) ?_
  intro handles v hv
  exact keeps_bind (keeps_draw hv) fun _ _ h => h

theorem keeps_firstReady {bound : Nat} {ids : List HandleId} (hw : w.Consistent) :
    (firstReady bound ids).run.Ensures .alone (fun _ => World.Consistent) w := by
  induction bound generalizing ids w with
  | zero => exact hw
  | succ bound ih =>
      rw [firstReady]
      refine keeps_bind (keeps_draw hw) ?_
      intro drawn v hv
      cases drawn with
      | none => exact hv
      | some pair =>
          rcases pair with ⟨id, others⟩
          have hget : (Action.lift (Program.store (.get id))).run.Ensures .alone
              (fun _ => World.Consistent) v := by
            rw [Action.run_lift, Program.ensures_bind]
            exact ensures_read (fun hdel => hdel) rfl fun _ h => hv.of_same h
          refine keeps_bind hget ?_
          intro found u hu
          cases found with
          | ok h =>
              dsimp only
              split
              · exact hu
              · exact ih hu
          | error e => cases e <;> first | exact ih hu | exact hu

theorem keeps_pickUnsynchronized {visited : List HandleId} (hw : w.Consistent) :
    (pickUnsynchronized visited).run.Ensures .alone (fun _ => World.Consistent) w :=
  keeps_bind (keeps_call (fun hdel => hdel) rfl hw) fun _ _ hv => keeps_firstReady hv

theorem keeps_dueForRetry {now : Instant} {base : Interval} (hw : w.Consistent) :
    (dueForRetry now base).run.Ensures .alone (fun _ => World.Consistent) w := by
  refine keeps_bind (keeps_call (fun hdel => hdel) rfl hw) ?_
  intro failed v hv
  refine keeps_bind (keeps_call (fun hdel => hdel) rfl hv) ?_
  intro failedUpgrades u hu
  exact hu

/-! ## Visits -/

section

variable {σ : Type} {E : Setting σ} {I : σ → Prop} {s : σ}

theorem keeps_whileMarked {m : Member} {kind : SyncKind} {id : HandleId} {work : Action Unit}
    (hmark : (Program.request (.mark kind id m.name m.markerLife)).Ensures E (fun _ => I) s)
    (hwork : ∀ t, I t → work.run.Ensures E (fun _ => I) t)
    (hunmark : ∀ t, I t → (Program.request (.unmark kind id)).Ensures E (fun _ => I) t) :
    (whileMarked m kind id work).Ensures E (fun _ => I) s := by
  rw [whileMarked]
  refine hmark.bind ?_
  intro put t ht
  cases put with
  | false => exact ht
  | true =>
      refine (hwork t ht).bind ?_
      intro result u hu
      exact (hunmark u hu).bind fun _ _ h => h

/-- What a selection keeps, and a visit, a cycle keeps. -/
theorem keeps_visitAll {pick : List HandleId → Action (Option Handle)}
    {visit : Handle → Program (Except InventoryError Unit)}
    (hpick : ∀ visited t, I t → (pick visited).run.Ensures E (fun _ => I) t)
    (hvisit : ∀ h t, I t → (visit h).Ensures E (fun _ => I) t)
    {bound : Nat} {visited : List HandleId} {report : CycleReport} (hs : I s) :
    (visitAll pick visit bound visited report).Ensures E (fun _ => I) s := by
  induction bound generalizing visited report s with
  | zero => exact hs
  | succ bound ih =>
      rw [visitAll]
      refine (hpick visited s hs).bind ?_
      intro picked t ht
      cases picked with
      | error e => exact ht
      | ok found =>
          cases found with
          | none => exact ht
          | some h => exact (hvisit h t ht).bind fun _ _ hu => ih hu

end

/-- Work that keeps a consistent world does so beside its marker. -/
theorem consistent_whileMarked {m : Member} {kind : SyncKind} {id : HandleId} {work : Action Unit}
    (hwork : ∀ v : World, v.Consistent → work.run.Ensures .alone (fun _ => World.Consistent) v)
    (hw : w.Consistent) :
    (whileMarked m kind id work).Ensures .alone (fun _ => World.Consistent) w :=
  keeps_whileMarked (keeps_quiet (.mark kind id m.name m.markerLife) trivial hw) hwork
    fun _ => keeps_quiet (.unmark kind id) trivial

/-! ## Operational data -/

theorem keeps_plugin {call : PluginCall} (hw : w.Consistent) :
    (Action.plugin call).run.Ensures .alone (fun _ => World.Consistent) w := by
  rw [Action.run_plugin, Program.ensures_bind]
  exact keeps_quiet (.plugin call) trivial hw

/-- The status that is noted is that of a ready handle before and after. -/
theorem keeps_markSynchronized {id : HandleId} (hw : w.Consistent) :
    (markSynchronized id).run.Ensures .alone (fun _ => World.Consistent) w := by
  refine (ensures_markSynchronized hw.sound).mono fun result w' hnoted => ?_
  cases result with
  | error e => exact hw.of_same hnoted.1
  | ok _ =>
      rcases hnoted with ⟨hpub, h, now, hr, -, hstore⟩
      have hid := hw.sound.id_of_record? hr
      subst hid
      exact hw.of_putHandle hpub hstore hr rfl

theorem keeps_syncData {h : Handle} (hw : w.Consistent) :
    (syncData h).run.Ensures .alone (fun _ => World.Consistent) w := by
  rw [syncData]
  split
  · refine keeps_bind (keeps_plugin hw) ?_
    intro reply v hv
    refine keeps_bind hv ?_
    intro data v hv
    refine keeps_bind (keeps_call (fun hdel => hdel) rfl hv) ?_
    intro _ u hu
    exact keeps_markSynchronized hu
  · exact hw

theorem ensures_dataCycle {m : Member} {bound : Nat} (hw : w.Consistent) :
    (dataCycle m bound).Ensures .alone (fun _ => World.Consistent) w :=
  keeps_visitAll (fun _ _ => keeps_pickUnsynchronized)
    (fun _ _ => consistent_whileMarked fun _ => keeps_syncData) hw

/-! ## Modules -/

theorem keeps_commit {topic : String} {snapshot : Handle} {target : Lifecycle}
    (ht : target ≠ .deleted) (hw : w.Consistent) :
    (commit topic snapshot target).run.Ensures .alone (fun _ => World.Consistent) w := by
  rw [commit]
  refine keeps_bind ((ensures_applyBatch hw ?_).bind fun _ _ h => h) ?_
  · intro e he
    rw [List.mem_singleton.1 he]
    exact ht
  · intro result v hv
    cases result.failed.getLast? <;> exact hv

theorem keeps_syncModules {topic : String} {h : Handle} (hw : w.Consistent) :
    (syncModules topic h).run.Ensures .alone (fun _ => World.Consistent) w := by
  rw [syncModules]
  refine keeps_bind ((keeps_quiet (.plugin (.modules h)) trivial hw).bind fun _ _ h => h) ?_
  intro result v hv
  cases result with
  | ok modules =>
      refine keeps_bind (keeps_call (fun hdel => hdel) rfl hv) ?_
      intro _ u hu
      exact keeps_commit (by decide) hu
  | error e =>
      refine keeps_bind (keeps_commit (by decide) hv) ?_
      intro _ u hu
      exact hu

theorem keeps_readvise {m : Member} (hw : w.Consistent) :
    (readvise m).Ensures .alone (fun _ => World.Consistent) w := by
  rw [readvise]
  refine (keeps_quiet .now trivial hw).bind ?_
  intro now v hv
  refine (keeps_dueForRetry hv).bind ?_
  intro due u hu
  cases due with
  | error e => exact hu
  | ok handles =>
      refine (ensures_applyBatch hu ?_).bind fun _ _ h => h
      intro e he
      rcases List.mem_map.1 he with ⟨h, -, rfl⟩
      intro hdeleted
      cases hdeleted

theorem ensures_moduleCycle {m : Member} {bound : Nat} (hw : w.Consistent) :
    (moduleCycle m bound).Ensures .alone (fun _ => World.Consistent) w := by
  rw [moduleCycle]
  refine (keeps_readvise hw).bind ?_
  intro _ v hv
  exact keeps_visitAll (fun _ _ => keeps_pickAdvised)
    (fun _ _ => consistent_whileMarked fun _ => keeps_syncModules) hv

end Inventory
end CmInventory
