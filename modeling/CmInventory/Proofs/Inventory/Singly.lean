import CmInventory.Proofs.Inventory.Chunks
import CmInventory.Proofs.Inventory.Removal

/-!
# Removals in chunks

When a fixed set of handles cannot be deleted, a removal comes to the same as one that deletes handle by
handle (`removeSingly`, `remove_as_if_singly`). After all stored handles among those that were asked for
were moved to deleting (`ensures_markDeleting_under`), there is a snapshot of each handle that is deleted;
so the last events, too, are the same.
-/

namespace CmInventory

open Inventory

section

variable {c : Circumstances} {faults : HandleId → Option StoreError} {w : World}

/-! ## Marking -/

/-- Whether a request stores no new handles. -/
def Request.AddsNone : Request → Prop
  | .store (.insert _) => False
  | _ => True

theorem Request.WorksOn.addsNone {kind : SyncKind} {id : HandleId} {r : Request}
    (h : r.WorksOn kind id) : r.AddsNone := by
  cases r with
  | store call =>
      cases call with
      | insert handles => exact h.elim
      | _ => trivial
  | _ => trivial

/-- Only insertions store new handles. -/
theorem Store.Sound.lifecycle?_none {s : Store} (hs : s.Sound) {call : StoreCall} {id : HandleId}
    (hcall : (Request.store call).AddsNone) (hnone : s.lifecycle? id = none) :
    (s.perform call).2.lifecycle? id = none := by
  by_cases hkeeps : call.Deletes
  · exact (hs.lifecycle?_of_deletes hkeeps id).elim (fun h => h) fun h => h.trans hnone
  have hput : ∀ h : Handle, (s.record? h.id).isSome → (s.putHandle h).lifecycle? id = none := by
    intro h hstored
    rw [Store.lifecycle?_putHandle, if_neg]
    · exact hnone
    · rintro rfl
      rw [Store.lifecycle?, Option.map_eq_none_iff] at hnone
      rw [hnone] at hstored
      cases hstored
  cases call with
  | insert handles => exact hcall.elim
  | save h =>
      rw [Store.perform, hs.save_eq]
      cases hr : s.record? h.id with
      | none => exact hnone
      | some g => exact hput h (by rw [hr]; rfl)
  | saveStatus i status =>
      rw [Store.perform, Store.replaceStatus]
      cases s.get i with
      | error e => exact hnone
      | ok h =>
          change (s.overwrite { h with status := status }).lifecycle? id = none
          rw [Store.overwrite, hs.contains_eq]
          split
          · rename_i hstored
            exact hput _ hstored
          · exact hnone
  | saveStatusIf i expected status =>
      have hperform := Prod.eta (s.perform (.saveStatusIf i expected status))
      rcases hs.saveStatusIf_cases hperform with ⟨g, hg, -, -, hstore⟩ | ⟨-, hstore⟩
      · rw [hstore]
        exact hput _ (by rw [hs.id_of_record? hg, hg]; rfl)
      · rw [hstore, hnone]
  | delete i => exact absurd trivial hkeeps
  | deleteAll ids => exact absurd trivial hkeeps
  | _ => exact hnone

/-- A handle that is not stored is not stored by requests that add none. -/
theorem ensures_not_stored {α : Type} {p : Program α} (hp : p.Asks Request.AddsNone) {id : HandleId}
    (hs : w.store.Sound) (hnone : w.store.lifecycle? id = none) :
    p.Ensures (.under c) (fun _ w' => w'.store.Sound ∧ w'.store.lifecycle? id = none) w := by
  refine hp.ensures (I := fun v : World => v.store.Sound ∧ v.store.lifecycle? id = none) ⟨hs, hnone⟩ ?_
  rintro r v hr ⟨hv, hvnone⟩
  refine ⟨trivial, ?_⟩
  intro reply v' hreply
  have hans := World.answers_of_reply hreply
  refine ⟨hans.sound hv, ?_⟩
  cases r with
  | store call =>
      rcases World.Answers.store hans with ⟨-, ⟨e, -, -, hstore⟩ | hperform⟩
      · rw [hstore, hvnone]
      · have hstore : v'.store = (v.store.perform call).2 := (Prod.ext_iff.1 hperform).2
        rw [hstore, hv.lifecycle?_none hr hvnone]
  | publish event => rw [(World.Answers.publish hans).1, hvnone]
  | _ => rw [(World.Answers.quiet (by trivial) hans).1, hvnone]

/-- A stored handle does not fail to be moved if only deletions fail. -/
theorem Turn.not_failsToMove (hc : c.Refuses faults) {id : HandleId} {t : Turn World}
    (hreply : World.reply c t.request t.before = (t.reply, t.after))
    (hstored : t.before.store.lifecycle? id ≠ none) : t.exchange.failsToMove id = false := by
  obtain ⟨g, hg⟩ : ∃ g, t.before.store.get id = .ok g := by
    rw [Store.lifecycle?, Store.record?] at hstored
    rw [Store.get]
    cases hfind : t.before.store.handles.find? id.text with
    | none => simp [hfind] at hstored
    | some row =>
        cases hrow : row.handle with
        | ok g => exact ⟨g, hrow⟩
        | error e => simp [hfind, hrow, Except.toOption] at hstored
  rcases t with ⟨member, r, reply, before, after⟩
  have hreply : World.reply c r before = (reply, after) := hreply
  have hg : before.store.get id = .ok g := hg
  cases r with
  | store call =>
      cases call with
      | status i =>
          cases reply with
          | ok status => rfl
          | error e =>
              refine decide_eq_false ?_
              rintro rfl
              rw [World.reply_other hc (.status i) fun hdel => hdel] at hreply
              have hstatus : before.store.status i = .error e := congrArg Prod.fst hreply
              rw [Store.status, hg] at hstatus
              cases hstatus
      | saveStatusIf i expected status =>
          cases reply with
          | ok written => rfl
          | error e =>
              refine decide_eq_false ?_
              rintro rfl
              rw [World.reply_other hc (.saveStatusIf i expected status) fun hdel => hdel] at hreply
              have hwrite : (before.store.perform (.saveStatusIf i expected status)).1 = .error e :=
                congrArg Prod.fst hreply
              rw [Store.perform, Store.replaceStatus, hg] at hwrite
              by_cases hlife : g.lifecycle = expected <;>
                simp [hlife, bind, Except.bind, pure, Except.pure] at hwrite
      | _ => rfl
  | _ => rfl

/-- A handle is deleting, and its snapshot says so. -/
def HasSnapshot (id : HandleId) (snapshots : Dictionary Handle) (w : World) : Prop :=
  w.store.lifecycle? id = some .deleting ∧
    ∃ g, snapshots.find? id.text = some g ∧ g.id = id ∧ g.lifecycle = .deleting

namespace Inventory

/-- If only deletions fail the handles can be loaded. -/
theorem ensures_markDeleting_ok (hc : c.Refuses faults) (hs : w.store.Sound) {topic : String}
    {ids : List HandleId} :
    (markDeleting topic ids).Ensures (.under c) (fun marked _ => ∃ snapshots, marked = .ok snapshots)
      w := by
  rw [markDeleting, Program.ensures_bind]
  refine under_request ?_
  have hsame : w.nextTurn.store = w.store := rfl
  rw [World.reply_other hc (.getMany ids) fun hdel => hdel, World.callStore, Store.perform, hsame,
    hs.getMany_eq]
  exact (Program.ensures_trivial fun _ _ => trivial).bind fun _ _ _ => ⟨_, rfl⟩

/-- A stored handle that is not deleted is deleting after the marking if it was asked for, and has a
snapshot. -/
theorem ensures_markDeleting_stored (hc : c.Refuses faults) (hs : w.store.Sound) {topic : String}
    {ids : List HandleId} {id : HandleId} {state : Lifecycle}
    (hstate : w.store.lifecycle? id = some state) (halive : state ≠ .deleted) :
    (markDeleting topic ids).Ensures (.under c)
      (fun marked w' => w'.store.Sound ∧ w'.store.lifecycle? id ≠ none ∧
        ∀ snapshots, marked = .ok snapshots → id ∈ ids → HasSnapshot id snapshots w') w := by
  have hseen : Seen id state (stagesOf id w.published) 0 (w, []) := ⟨hs, hstate, rfl, rfl, by simp⟩
  have hmarking : (markDeleting topic ids).Ensures .faulty
      (Marking id state (stagesOf id w.published) (ids.count id)) (w, []) :=
    ensures_markDeleting_of hseen
  refine (hmarking.unlogged (fun _ _ => trivial) fun _ _ _ _ => World.answers_of_reply).mono ?_
  rintro marked w' ⟨more, hmarked, hreplies⟩
  cases marked with
  | error e =>
      have hseen : Seen id state _ 0 (w', [] ++ more) := hmarked
      have hstored : w'.store.lifecycle? id = some state := hseen.state
      exact ⟨hseen.sound, by simp [hstored], by simp⟩
  | ok snapshots =>
      rcases hmarked with ⟨reached, hmarked, hsnapshots⟩
      have hseen := hmarked.seen
      have hnever : failedMoves id ([] ++ more) = 0 := by
        refine List.countP_eq_zero.2 fun t ht => ?_
        rw [Turn.not_failsToMove hc (hreplies t ht) (hseen.stored t ht).1]
        simp
      have hstored : w'.store.lifecycle? id = some _ := hseen.state
      refine ⟨hseen.sound, by simp [hstored], ?_⟩
      intro snapshots' heq hmem
      obtain rfl : snapshots = snapshots' := Except.ok.inj heq
      have hreached : reached = true := by
        by_contra hmissed
        rw [Bool.not_eq_true] at hmissed
        rcases hmarked.of_missed hmissed with hdeleted | heq
        · exact halive hdeleted
        · have heq : failedMoves id ([] ++ more) = ids.count id := heq
          have hcount := List.count_pos_iff.2 hmem
          omega
      subst hreached
      refine ⟨hseen.state, ?_⟩
      rcases Option.isSome_iff_exists.1 hsnapshots.reached with ⟨g, hfind⟩
      rcases hsnapshots.deleting _ g hfind with ⟨hid, hlife⟩
      exact ⟨g, hfind, HandleId.text_inj.1 hid, hlife⟩

/-- What the marking comes to if only deletions fail. -/
theorem ensures_markDeleting_under (hc : c.Refuses faults) (hs : w.store.Sound)
    (hlive : ∀ id, w.store.lifecycle? id ≠ some .deleted) {topic : String} {ids : List HandleId} :
    (markDeleting topic ids).Ensures (.under c)
      (fun marked w' => ∃ snapshots, marked = .ok snapshots ∧ w'.store.Sound ∧
        (∀ id ∈ ids, w'.store.lifecycle? id ≠ none → HasSnapshot id snapshots w') ∧
        ∀ id, w.store.lifecycle? id ≠ none → w'.store.lifecycle? id ≠ none) w := by
  have hone : ∀ id, (markDeleting topic ids).Ensures (.under c)
      (fun marked w' => w'.store.Sound ∧
        (w.store.lifecycle? id ≠ none → w'.store.lifecycle? id ≠ none) ∧
        (w'.store.lifecycle? id ≠ none → ∀ snapshots, marked = .ok snapshots → id ∈ ids →
          HasSnapshot id snapshots w')) w := by
    intro id
    cases hstate : w.store.lifecycle? id with
    | none =>
        have hasks : (markDeleting topic ids).Asks Request.AddsNone :=
          asks_markDeleting (fun i r hr => (hr.worksOn : r.WorksOn .data i).addsNone) trivial
        refine (ensures_not_stored hasks hs hstate).mono ?_
        rintro marked w' ⟨hsound, hnone⟩
        exact ⟨hsound, by simp, fun hstored => absurd hnone hstored⟩
    | some state =>
        have halive : state ≠ .deleted := by
          rintro rfl
          exact hlive id hstate
        refine (ensures_markDeleting_stored hc hs hstate halive).mono ?_
        rintro marked w' ⟨hsound, hstored, hsnapshot⟩
        exact ⟨hsound, fun _ => hstored, fun _ => hsnapshot⟩
  refine ((ensures_markDeleting_ok hc hs).and (Program.ensures_forall (fun _ _ => trivial) hone)).mono ?_
  rintro _ w' ⟨⟨snapshots, rfl⟩, hall⟩
  refine ⟨snapshots, rfl, (hall ⟨""⟩).1, ?_, fun id => (hall id).2.1⟩
  intro id hmem hstored
  exact (hall id).2.2 hstored snapshots rfl hmem

/-! ## The whole removal -/

theorem success_mem_response {id : HandleId} {ds : List Deletion} :
    .success id ∈ ds.map Deletion.response ↔ id ∈ doneIds ds := by
  rw [doneIds, List.mem_map, List.mem_map]
  constructor
  · rintro ⟨d, hd, hresponse⟩
    rcases d with ⟨i, result⟩
    cases result with
    | ok _ => exact ⟨⟨i, .ok ()⟩, List.mem_filter.2 ⟨hd, rfl⟩, congrArg HandleResponse.id hresponse⟩
    | error e => cases e <;> cases congrArg HandleResponse.status hresponse
  · rintro ⟨d, hd, rfl⟩
    rcases List.mem_filter.1 hd with ⟨hd, hdone⟩
    rcases d with ⟨i, result⟩
    cases result with
    | ok _ => exact ⟨⟨i, .ok ()⟩, hd, rfl⟩
    | error e => cases hdone

theorem id_response (d : Deletion) : d.response.id = d.id := by
  rcases d with ⟨i, result⟩
  cases result with
  | ok _ => rfl
  | error e => cases e <;> rfl

/-- The removal that deletes one handle after the other. -/
def removeSingly (topic : String) (rawIds : List String) : Program (List HandleResponse) := do
  let ids := rawIds.map HandleId.mk
  match ← markDeleting topic ids with
  | .error e => return ids.map fun id => .unknownFailure id e.message
  | .ok _ =>
      let deletions ← ids.mapM deleteOne
      let _ ← (doneIds deletions).mapM fun id => announce topic id (some .deleting) .deleted
      return deletions.map Deletion.response

/-- The world in which a handle was announced to be gone. -/
def farewell (topic : String) (w : World) (id : HandleId) : World :=
  w.publish ⟨topic, id.text, .lifecycle ⟨default, id, some .deleting, .deleted, default⟩⟩

theorem store_farewell (topic : String) (w : World) (ids : List HandleId) :
    (ids.foldl (farewell topic) w).store = w.store := by
  induction ids generalizing w with
  | nil => rfl
  | cons id rest ih => exact ih (farewell topic w id)

theorem ensures_farewell {topic : String} {id : HandleId} :
    (announce topic id (some .deleting) .deleted).Ensures (.under c)
      (fun _ w' => w'.unstamped = farewell topic w.unstamped id) w := by
  refine ensures_announce_iff.2 (under_request (under_request (under_request ?_)))
  exact World.unstamped_publish _ _

theorem ensures_announceEach {topic : String} {ids : List HandleId} :
    (ids.mapM fun id => announce topic id (some .deleting) .deleted).Ensures (.under c)
      (fun _ w' => w'.unstamped = ids.foldl (farewell topic) w.unstamped) w := by
  refine Program.ensures_mapM (I := fun ids _ (w' : World) =>
    w'.unstamped = ids.foldl (farewell topic) w.unstamped) ?_ rfl
  intro ids _ w₁ id hw₁
  refine ensures_farewell.mono ?_
  intro _ w₂ hw₂
  rw [hw₂, hw₁, List.foldl_append]
  rfl

theorem ensures_applyBatch_farewell {topic : String} {gone : List Handle}
    (hgone : ∀ g ∈ gone, g.lifecycle = .deleting) :
    (applyBatch topic (gone.map fun h => (h, .deleted))).Ensures (.under c)
      (fun _ w' => w'.unstamped = (gone.map (·.id)).foldl (farewell topic) w.unstamped) w := by
  induction gone generalizing w with
  | nil => rfl
  | cons g rest ih =>
      simp only [List.map_cons, applyBatch, applyEntry_gone (hgone g (by simp))]
      rw [Program.ensures_bind, Program.ensures_bind]
      refine ensures_farewell.mono ?_
      intro _ w₁ hw₁
      refine (ih fun h hmem => hgone h (by simp [hmem])).bind ?_
      intro _ w₂ hw₂
      exact hw₂.trans (by rw [hw₁, List.foldl_cons])

/-- What becomes of handles that were marked, by single deletions. -/
def Settled (faults : HandleId → Option StoreError) (topic : String) (ids : List HandleId) (w : World)
    (responses : List HandleResponse) (w' : World) : Prop :=
  responses = (World.deleteSingly faults ids w.unstamped).1.map Deletion.response ∧
    w'.unstamped = (doneIds (World.deleteSingly faults ids w.unstamped).1).foldl (farewell topic)
      (World.deleteSingly faults ids w.unstamped).2

theorem removeSingly_settled (hc : c.Refuses faults) {topic : String} {rawIds : List String}
    {snapshots : Dictionary Handle} {w₁ : World}
    (hrun : (markDeleting topic (rawIds.map HandleId.mk)).run (World.reply c) w = (.ok snapshots, w₁)) :
    Settled faults topic (rawIds.map HandleId.mk) w₁
      ((removeSingly topic rawIds).run (World.reply c) w).1
      ((removeSingly topic rawIds).run (World.reply c) w).2 := by
  rw [removeSingly, Program.run_bind, hrun]
  refine Program.Ensures.under ?_
  refine (ensures_deleteEach hc).bind fun ds w₂ hdeleted => ?_
  refine ensures_announceEach.bind fun _ w₃ htold => ?_
  rw [Program.pure_eq, Program.ensures_done, Settled, ← show (ds, w₂.unstamped) = _ from hdeleted]
  exact ⟨rfl, htold⟩

theorem remove_settled (hc : c.Refuses faults) {topic : String} {rawIds : List String}
    {snapshots : Dictionary Handle} {w₁ : World}
    (hrun : (markDeleting topic (rawIds.map HandleId.mk)).run (World.reply c) w = (.ok snapshots, w₁))
    (hs : w₁.store.Sound)
    (hsnapshots : ∀ id ∈ rawIds.map HandleId.mk, w₁.store.lifecycle? id ≠ none →
      HasSnapshot id snapshots w₁) :
    Settled faults topic (rawIds.map HandleId.mk) w₁ ((remove topic rawIds).run (World.reply c) w).1
      ((remove topic rawIds).run (World.reply c) w).2 := by
  rw [remove, Program.run_bind, hrun]
  refine Program.Ensures.under ?_
  refine (ensures_deleteChunks_under hc).bind fun ds w₂ hdeleted => ?_
  rw [flatten_chunks] at hdeleted
  have hdeleted : (ds, w₂.unstamped) =
      World.deleteSingly faults (rawIds.map HandleId.mk) w₁.unstamped := hdeleted
  -- What was deleted was asked for and had been stored, so there is a snapshot of it.
  have hfound : ∀ d ∈ ds.filter Deletion.isDone, ∃ g, snapshots.find? d.id.text = some g ∧
      g.id = d.id ∧ g.lifecycle = .deleting := by
    intro d hd
    have hsound : w₁.unstamped.store.Sound := hs
    have hgone := World.gone_deleteSingly hsound faults (rawIds.map HandleId.mk)
    have hids := World.map_id_deleteSingly faults (rawIds.map HandleId.mk) w₁.unstamped
    rw [← hdeleted] at hgone hids
    have hmem : d.id ∈ rawIds.map HandleId.mk := by
      rw [← hids]
      exact List.mem_map_of_mem (List.mem_filter.1 hd).1
    exact (hsnapshots d.id hmem (hgone.stored d.id (List.mem_map_of_mem hd))).2
  have hids := map_id_snapshots fun d hd => (hfound d hd).imp fun g hg => ⟨hg.1, hg.2.1⟩
  have hlast : ∀ g ∈ (ds.filter Deletion.isDone).filterMap (fun d => snapshots.find? d.id.text),
      g.lifecycle = .deleting := by
    intro g hg
    rcases List.mem_filterMap.1 hg with ⟨d, hd, hfind⟩
    rcases hfound d hd with ⟨g', hfind', -, hlife⟩
    rwa [Option.some.inj (hfind.symm.trans hfind')]
  refine (ensures_applyBatch_farewell hlast).bind fun _ w₃ htold => ?_
  rw [Program.pure_eq, Program.ensures_done, Settled, ← hdeleted]
  rw [hids] at htold
  exact ⟨rfl, htold⟩

end Inventory

/-- If a fixed set of handles cannot be deleted, neither alone nor with others, a removal comes to the same as
if it deleted one handle after the other: the responses are the same, and so are the store, the markers
and, but for their stamps, the events. There is one response for each id that was asked for, in its place.
A handle that cannot be deleted is not reported as deleted, and a stored handle that is not reported as
deleted is still stored, and is deleting. -/
theorem remove_as_if_singly (hc : c.Refuses faults) (hs : w.store.Sound)
    (hlive : ∀ id, w.store.lifecycle? id ≠ some .deleted) (topic : String) (rawIds : List String) :
    let chunked := (remove topic rawIds).run (World.reply c) w
    let singly := (removeSingly topic rawIds).run (World.reply c) w
    chunked.1 = singly.1 ∧ chunked.2.unstamped = singly.2.unstamped ∧
      chunked.1.map (·.id) = rawIds.map HandleId.mk ∧
      (∀ id e, faults id = some e → .success id ∉ chunked.1) ∧
      ∀ id, id.text ∈ rawIds → w.store.lifecycle? id ≠ none → .success id ∉ chunked.1 →
        chunked.2.store.lifecycle? id = some .deleting := by
  intro chunked singly
  have hmarked : (markDeleting topic (rawIds.map HandleId.mk)).Ensures (.under c) _ w :=
    ensures_markDeleting_under hc hs hlive
  have hmarked := hmarked.under
  rcases hrun : (markDeleting topic (rawIds.map HandleId.mk)).run (World.reply c) w with ⟨marked, w₁⟩
  rw [hrun] at hmarked
  rcases hmarked with ⟨snapshots, rfl, hs₁, hsnapshots, hstored⟩
  have hsound : w₁.unstamped.store.Sound := hs₁
  rcases remove_settled hc hrun hs₁ hsnapshots with ⟨hresponses, hworld⟩
  rcases removeSingly_settled hc hrun with ⟨hresponses', hworld'⟩
  refine ⟨hresponses.trans hresponses'.symm, hworld.trans hworld'.symm, ?_, ?_, ?_⟩
  · have hids := World.map_id_deleteSingly faults (rawIds.map HandleId.mk) w₁.unstamped
    rw [hresponses, List.map_map]
    exact (List.map_congr_left fun d _ => id_response d).trans hids
  · intro id e hfault
    rw [hresponses, success_mem_response]
    exact World.not_mem_doneIds hfault _ _
  · intro id hmem hbefore hfailed
    rw [hresponses, success_mem_response] at hfailed
    have hstates := (World.gone_deleteSingly hsound faults (rawIds.map HandleId.mk)).states id
    rw [if_neg hfailed] at hstates
    have hstore : chunked.2.store =
        (World.deleteSingly faults (rawIds.map HandleId.mk) w₁.unstamped).2.store :=
      calc chunked.2.store = chunked.2.unstamped.store := rfl
        _ = _ := congrArg World.store hworld
        _ = _ := store_farewell topic _ _
    rw [hstore, hstates]
    exact (hsnapshots id (List.mem_map.2 ⟨id.text, hmem, rfl⟩) (hstored id hbefore)).1

end

/-! ## A removal with a handle that cannot be deleted -/

/-- Circumstances in which the handles cannot be deleted for which there is an error. -/
def Circumstances.refusing (faults : HandleId → Option StoreError) : Circumstances :=
  { World.undisturbed with storeFailure := fun _ call =>
      match call with
      | .delete id => faults id
      | .deleteAll ids => ids.findSome? faults
      | _ => none }

theorem Circumstances.refuses_refusing (faults : HandleId → Option StoreError) :
    (refusing faults).Refuses faults := by
  refine ⟨fun _ _ => rfl, fun _ ids => ?_, fun _ call hcall => ?_⟩
  · change (ids.findSome? faults).isSome = _
    rw [Bool.eq_iff_iff, List.findSome?_isSome_iff, List.any_eq_true]
  · cases call with
    | delete id => exact absurd trivial hcall
    | deleteAll ids => exact absurd trivial hcall
    | _ => rfl

/-- Of two handles that are ready the second one cannot be deleted. -/
def refusedFaults (id : HandleId) : Option StoreError :=
  if id = ⟨"b"⟩ then some .outOfOrder else none

def readyPair : World :=
  let ready (text : String) : Handle :=
    { (default : Handle) with
      id := ⟨text⟩
      status := { (default : HandleStatus) with lifecycle := .ready } }
  { World.empty with store := (Store.empty.putHandle (ready "a")).putHandle (ready "b") }

theorem lifecycle?_readyPair (id : HandleId) :
    readyPair.store.lifecycle? id = if id = ⟨"a"⟩ ∨ id = ⟨"b"⟩ then some .ready else none := by
  have hempty : Store.empty.lifecycle? id = none := by
    rw [Store.lifecycle?, Store.record?_empty]
    rfl
  rw [readyPair, Store.lifecycle?_putHandle, Store.lifecycle?_putHandle, hempty]
  by_cases ha : id = ⟨"a"⟩ <;> by_cases hb : id = ⟨"b"⟩ <;> simp [ha, hb, eq_comm, Handle.lifecycle]

/-- One handle is named twice, one cannot be deleted, one id is blank and one is unknown. -/
theorem remove_as_if_singly_refused :
    let reply := World.reply (.refusing refusedFaults)
    let chunked := (remove "lcm" ["a", "a", "", "b", "c"]).run reply readyPair
    let singly := (removeSingly "lcm" ["a", "a", "", "b", "c"]).run reply readyPair
    chunked.1 = singly.1 ∧ chunked.2.unstamped = singly.2.unstamped ∧
      chunked.1.map (·.id) = [⟨"a"⟩, ⟨"a"⟩, ⟨""⟩, ⟨"b"⟩, ⟨"c"⟩] ∧
      chunked.2.store.lifecycle? ⟨"b"⟩ = some .deleting := by
  have hs : readyPair.store.Sound := (Store.sound_empty.putHandle _).putHandle _
  have hlive : ∀ id, readyPair.store.lifecycle? id ≠ some .deleted := by
    intro id
    rw [lifecycle?_readyPair]
    split <;> simp
  rcases remove_as_if_singly (Circumstances.refuses_refusing refusedFaults) hs hlive "lcm"
    ["a", "a", "", "b", "c"] with ⟨hresponses, hworld, hids, hrefused, hdeleting⟩
  refine ⟨hresponses, hworld, hids, hdeleting ⟨"b"⟩ (by simp) ?_ (hrefused ⟨"b"⟩ .outOfOrder rfl)⟩
  rw [lifecycle?_readyPair]
  simp

end CmInventory
