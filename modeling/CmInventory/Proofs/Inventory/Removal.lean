import CmInventory.Proofs.Inventory.Marking
import CmInventory.Proofs.Inventory.Registration
import Mathlib.Data.List.Count
import Mathlib.Data.List.Nodup

/-!
# Removals when the store fails

A removal moves handles to deleting, deletes them, and then announces those that are gone. What became of the
moves is looked at only in the end: a handle is deleted whether it was moved or not, and it is announced only
if there is a snapshot of it that is deleting. So with a store that may fail at any call, a handle goes as it
should, being deleting when it is deleted and with all its moves told, exactly if it was not deleted before and
one of the attempts to move it did not fail. Otherwise nothing at all is told of its end
(`removal_told_iff`).
-/

namespace CmInventory

open Inventory

section

variable {id : HandleId} {state : Lifecycle} {failures : Nat} {s : Logged World}

/-- Whether the record of a handle went in a turn. -/
def Turn.Deletes (id : HandleId) (t : Turn World) : Prop :=
  t.before.store.lifecycle? id ≠ none ∧ t.after.store.lifecycle? id = none

/-- A handle that was stored and is not any more was deleted in a turn. -/
theorem Interleaved.exists_deletes {α : Type} {answers : (r : Request) → World → r.Reply → World → Prop}
    {ps qs : List (Program α)} {w w' : World} {turns : List (Turn World)}
    (h : Interleaved answers ps w turns qs w') (hstored : w.store.lifecycle? id ≠ none)
    (hgone : w'.store.lifecycle? id = none) : ∃ t ∈ turns, t.Deletes id := by
  refine h.along (P := fun past v => v.store.lifecycle? id = none → ∃ t ∈ past, t.Deletes id)
    (fun hnone => absurd hnone hstored) ?_ hgone
  intro before t _ hbefore hafter
  by_cases hnone : t.before.store.lifecycle? id = none
  · rcases hbefore hnone with ⟨u, hu, hdeletes⟩
    exact ⟨u, List.mem_append_left _ hu, hdeletes⟩
  · exact ⟨t, by simp, hnone, hafter⟩

/-! ## Deletions -/

/-- Whether a request leaves the states of handles as they are, but for deletions. -/
def Request.OnlyDeletes : Request → Prop
  | .store call => call.Deletes
  | _ => True

theorem Request.Deletes.onlyDeletes {ids : List HandleId} {r : Request} (h : r.Deletes ids) :
    r.OnlyDeletes := by
  cases r with
  | store call =>
      cases call with
      | delete i => trivial
      | deleteAll more => trivial
      | _ => exact h.elim
  | _ => trivial

/-- From now on a handle is in a state until it is deleted, and so it was found whenever it was. -/
structure Ending (id : HandleId) (state : Lifecycle) (failures : Nat) (s : Logged World) : Prop where
  sound : s.1.store.Sound
  left : s.1.store.lifecycle? id = none ∨ s.1.store.lifecycle? id = some state
  failures : failedMoves id s.2 = failures
  found : ∀ t ∈ s.2, t.Deletes id → t.before.store.lifecycle? id = some state

/-- As long as a handle was stored in all turns, none of them deleted it. -/
theorem Seen.ending {stages : List (Option Lifecycle × Lifecycle)}
    (h : Seen id state stages failures s) : Ending id state failures s := by
  refine ⟨h.sound, Or.inr h.state, h.failures, ?_⟩
  intro t ht hdeletes
  exact absurd hdeletes.2 (h.stored t ht).2

/-- A deletion takes a record away or leaves it as it is. -/
theorem Store.Sound.lifecycle?_of_deletes {store : Store} (hs : store.Sound) {call : StoreCall}
    (hcall : call.Deletes) (id : HandleId) :
    (store.perform call).2.lifecycle? id = none ∨
      (store.perform call).2.lifecycle? id = store.lifecycle? id := by
  cases call with
  | delete i =>
      rw [Store.perform]
      cases hdel : store.delete i with
      | error e => exact Or.inr rfl
      | ok store' =>
          have hrecords := (hs.delete_ok hdel).2.2 id
          by_cases hid : i = id
          · exact Or.inl (by simp [Store.settle, Store.lifecycle?, hrecords, hid])
          · exact Or.inr (by simp [Store.settle, Store.lifecycle?, hrecords, hid])
  | deleteAll ids =>
      rw [Store.perform]
      cases hdel : store.deleteAll ids with
      | error e => exact Or.inr rfl
      | ok store' =>
          have hrecords := (hs.deleteAll_ok hdel).2.2.2 id
          by_cases hid : id ∈ ids
          · exact Or.inl (by simp [Store.settle, Store.lifecycle?, hrecords, hid])
          · exact Or.inr (by simp [Store.settle, Store.lifecycle?, hrecords, hid])
  | _ => exact hcall.elim

theorem Ending.turn (h : Ending id state failures s) {r : Request} {reply : r.Reply} {w : World}
    (hr : r.OnlyDeletes) (hans : World.Answers (fun _ => True) r s.1 reply w) :
    Ending id state failures (w, s.2 ++ [⟨0, r, reply, s.1, w⟩]) := by
  have hstate : w.store.lifecycle? id = none ∨
      w.store.lifecycle? id = s.1.store.lifecycle? id := by
    cases r with
    | store call =>
        rcases World.Answers.store hans with ⟨-, ⟨e, -, -, hstore⟩ | hperform⟩
        · exact Or.inr (by rw [hstore])
        · have hstore : w.store = (s.1.store.perform call).2 := (Prod.ext_iff.1 hperform).2
          rw [hstore]
          exact h.sound.lifecycle?_of_deletes hr id
    | publish event => exact Or.inr (by rw [(World.Answers.publish hans).1])
    | _ => exact Or.inr (by rw [(World.Answers.quiet (by trivial) hans).1])
  have hfails : (⟨r, reply⟩ : Exchange).failsToMove id = false := by
    cases r with
    | store call =>
        cases call with
        | delete i => rfl
        | deleteAll ids => rfl
        | _ => exact hr.elim
    | _ => rfl
  refine ⟨hans.sound h.sound, ?_, ?_, ?_⟩
  · rcases hstate with hnone | hsame
    · exact Or.inl hnone
    · exact hsame.symm ▸ h.left
  · rw [failedMoves, List.countP_append, List.countP_singleton]
    change failedMoves id s.2 + (if (⟨r, reply⟩ : Exchange).failsToMove id then 1 else 0) = _
    rw [hfails, h.failures]
    rfl
  · intro t ht hdeletes
    rcases List.mem_append.1 ht with ht | ht
    · exact h.found t ht hdeletes
    · rw [List.mem_singleton.1 ht] at hdeletes ⊢
      exact h.left.resolve_left hdeletes.1

theorem Ending.ensures {α : Type} {p : Program α} (h : Ending id state failures s)
    (hp : p.Asks Request.OnlyDeletes) :
    p.Ensures .faulty (fun _ s' => Ending id state failures s') s :=
  hp.logged h fun _ _ _ _ hr hs hans => hs.turn hr hans

/-- What deletions do when nothing else may fail they do when any call may fail, since they make no other
calls. -/
theorem ensures_deleteChunks_faulty {lists : List (List HandleId)} (hs : s.1.store.Sound) :
    (deleteChunks lists).Ensures .faulty (fun ds s' => Deleted lists.flatten s.1 ds s'.1) s := by
  refine (ensures_deleteChunks hs).within Prod.fst asks_deleteChunks (fun _ _ _ => trivial) ?_
  rintro r ⟨w, log⟩ reply ⟨w', log'⟩ hr ⟨⟨c, length, -, hreply⟩, -⟩
  refine World.answers_of_failures (fun n call e heq _ => ?_) hreply
  subst heq
  exact hr.onlyDeletes

/-! ## Last announcements -/

theorem ensures_announce_stages (id : HandleId) {topic : String} {other : HandleId}
    {old : Option Lifecycle} {new : Lifecycle} :
    (announce topic other old new).Ensures .faulty
      (fun _ s' => s'.1.store = s.1.store ∧ stagesOf id s'.1.published =
        stagesOf id s.1.published ++ if other = id then [(old, new)] else []) s := by
  refine ensures_announce_iff.2 (logged_request fun eventId w₁ h₁ => ?_)
  refine logged_request fun now w₂ h₂ => ?_
  refine logged_request fun reply w₃ h₃ => ?_
  rcases World.Answers.quiet (r := .newEventId) trivial h₁ with ⟨hstore₁, hpublished₁⟩
  rcases World.Answers.quiet (r := .now) trivial h₂ with ⟨hstore₂, hpublished₂⟩
  rcases World.Answers.publish h₃ with ⟨hstore₃, hpublished₃⟩
  refine ⟨hstore₃.trans (hstore₂.trans hstore₁), ?_⟩
  change stagesOf id w₃.published = _
  rw [hpublished₃, stagesOf_snoc, hpublished₂, hpublished₁]

theorem asks_applyBatch_gone {topic : String} {gone : List Handle}
    (hgone : ∀ g ∈ gone, g.lifecycle = .deleting) :
    (applyBatch topic (gone.map fun h => (h, .deleted))).Asks Request.OnlyDeletes := by
  induction gone with
  | nil => exact Program.asks_done _
  | cons g rest ih =>
      have hannounce : (announce topic g.id (some .deleting) .deleted).Asks Request.OnlyDeletes := by
        refine (Program.asks_request trivial).bind fun _ => ?_
        refine (Program.asks_request trivial).bind fun _ => ?_
        exact Program.asks_request trivial
      simp only [List.map_cons, applyBatch, applyEntry_gone (hgone g (by simp))]
      refine (hannounce.bind fun _ => Program.asks_done _).bind fun here => ?_
      exact (ih fun h hmem => hgone h (by simp [hmem])).bind fun more => Program.asks_done _

/-- The last moves of handles that were deleting are told from their snapshots. -/
theorem ensures_applyBatch_gone (id : HandleId) {topic : String} {gone : List Handle}
    (hgone : ∀ g ∈ gone, g.lifecycle = .deleting) :
    (applyBatch topic (gone.map fun h => (h, .deleted))).Ensures .faulty
      (fun _ s' => s'.1.store = s.1.store ∧ stagesOf id s'.1.published =
        stagesOf id s.1.published ++
          List.replicate (gone.countP fun h => h.id = id) (some .deleting, .deleted)) s := by
  induction gone generalizing s with
  | nil => exact ⟨rfl, by simp⟩
  | cons g rest ih =>
      simp only [List.map_cons, applyBatch, applyEntry_gone (hgone g (by simp))]
      rw [Program.ensures_bind, Program.ensures_bind]
      refine (ensures_announce_stages id).mono ?_
      rintro _ s₁ ⟨hstore₁, hstages₁⟩
      refine (ih fun h hmem => hgone h (by simp [hmem])).bind ?_
      rintro more s₂ ⟨hstore₂, hstages₂⟩
      refine ⟨hstore₂.trans hstore₁, ?_⟩
      rw [hstages₂, hstages₁, List.append_assoc]
      by_cases hid : g.id = id
      · rw [if_pos hid, List.countP_cons_of_pos (by simpa using hid), List.replicate_succ,
          List.singleton_append]
      · rw [if_neg hid, List.countP_cons_of_neg (by simpa using hid), List.nil_append]

/-- Each deletion of a handle finds its snapshot, if there is one. -/
theorem countP_snapshots {reached : Bool} {snapshots : Dictionary Handle}
    (h : Snapshots id reached snapshots) (deletions : List Deletion) :
    ((deletions.filterMap fun d => snapshots.find? d.id.text).countP fun h => h.id = id) =
      if reached then (deletions.map (·.id)).count id else 0 := by
  induction deletions with
  | nil => cases reached <;> rfl
  | cons d rest ih =>
      rw [List.map_cons]
      cases hfind : snapshots.find? d.id.text with
      | none =>
          have hcons : (d :: rest).filterMap (fun d => snapshots.find? d.id.text) =
              rest.filterMap fun d => snapshots.find? d.id.text := List.filterMap_cons_none hfind
          rw [hcons, ih]
          cases reached with
          | false => rfl
          | true =>
              -- There is a snapshot of the handle, so this deletion is of another one.
              have hne : d.id ≠ id := by
                intro hid
                have hsome := h.reached
                rw [← hid, hfind] at hsome
                cases hsome
              rw [List.count_cons_of_ne hne]
      | some g =>
          have hgid : g.id = d.id := HandleId.text_inj.1 (h.deleting _ g hfind).1
          have hcons : (d :: rest).filterMap (fun d => snapshots.find? d.id.text) =
              g :: rest.filterMap fun d => snapshots.find? d.id.text := List.filterMap_cons_some hfind
          rw [hcons]
          by_cases hid : d.id = id
          · have hreached : reached = true := by rw [← h.reached, ← hid, hfind]; rfl
            rw [List.countP_cons_of_pos (by simpa [hgid] using hid), ih, hreached, hid,
              List.count_cons_self]
            rfl
          · rw [List.countP_cons_of_neg (by simpa [hgid] using hid), ih, List.count_cons_of_ne hid]

/-! ## The whole removal -/

/-- What is left of a handle that was asked to be removed: how it went if it did. -/
def Removed (id : HandleId) (state : Lifecycle) (stages : List (Option Lifecycle × Lifecycle))
    (n : Nat) (s : Logged World) : Prop :=
  s.1.store.lifecycle? id = none → ∃ reached,
    Ending id (if reached then .deleting else state) (failedMoves id s.2) s ∧
      (reached = true ↔ state ≠ .deleted ∧ failedMoves id s.2 < n) ∧
      stagesOf id s.1.published = stages ++
        if reached then movesToDeleting state ++ [(some .deleting, .deleted)] else []

theorem ensures_removed {topic : String} {rawIds : List String}
    {stages : List (Option Lifecycle × Lifecycle)} (h : Seen id state stages 0 s) :
    (remove topic rawIds).Ensures .faulty
      (fun _ s' => Removed id state stages ((rawIds.map HandleId.mk).count id) s') s := by
  rw [remove]
  refine (ensures_markDeleting_of h).bind fun marked s₁ hmarking => ?_
  cases marked with
  | error e =>
      intro hgone
      rw [show s₁.1.store.lifecycle? id = some state from hmarking.state] at hgone
      cases hgone
  | ok snapshots =>
      rcases hmarking with ⟨reached, hmarked, hsnapshots⟩
      refine ((ensures_deleteChunks_faulty hmarked.seen.sound).and
        (hmarked.seen.ending.ensures
          (asks_deleteChunks.mono fun _ hr => hr.onlyDeletes))).bind ?_
      rintro deletions s₂ ⟨hdeleted, hending⟩
      have hlast : ∀ g ∈ (deletions.filter Deletion.isDone).filterMap
          (fun d => snapshots.find? d.id.text), g.lifecycle = .deleting := by
        intro g hg
        rcases List.mem_filterMap.1 hg with ⟨d, -, hfind⟩
        exact (hsnapshots.deleting _ g hfind).2
      refine ((ensures_applyBatch_gone id hlast).and
        (hending.ensures (asks_applyBatch_gone hlast))).bind ?_
      rintro result s₃ ⟨⟨hstore, hstages⟩, hending₃⟩ hgone
      have hfailures := hending₃.failures
      -- The handle was stored when it came to the deletions, so one of these deleted it.
      have hdone : id ∈ doneIds deletions := by
        have hstates := hdeleted.gone.states id
        have hstored := hmarked.seen.state
        rw [hstore] at hgone
        by_contra hnot
        rw [hgone, if_neg hnot, hstored] at hstates
        cases hstates
      have honce : (doneIds deletions).count id = 1 :=
        List.count_eq_one_of_mem hdeleted.gone.nodup hdone
      rw [countP_snapshots hsnapshots, ← doneIds, honce, hdeleted.gone.published,
        hmarked.seen.stages] at hstages
      refine ⟨reached, by rwa [hfailures], ⟨?_, ?_⟩, ?_⟩
      · rw [hfailures]
        exact hmarked.of_reached
      · rintro ⟨halive, hlt⟩
        rw [hfailures] at hlt
        by_contra hmissed
        rw [Bool.not_eq_true] at hmissed
        rcases hmarked.of_missed hmissed with hdeleted | heq
        · exact halive hdeleted
        · omega
      · rw [hstages]
        cases reached <;> simp

/-- When one member removes handles and any call of the store may fail, a handle of which the record goes is
deleting when it is deleted and all its moves are told, exactly if it was not deleted before and failed to
be moved fewer times than it was asked for. Otherwise it is deleted in the state it was in, and nothing is
told of it. -/
theorem removal_told_iff {topic : String} {rawIds : List String} {w w' : World}
    {turns : List (Turn World)} {responses : List HandleResponse} (hs : w.store.Sound)
    (hstate : w.store.lifecycle? id = some state)
    (h : Interleaved (World.Answers fun _ => True) [remove topic rawIds] w turns [.done responses] w')
    (hgone : w'.store.lifecycle? id = none) :
    (∃ t ∈ turns, t.Deletes id) ∧
      (((∀ t ∈ turns, t.Deletes id → t.before.store.lifecycle? id = some .deleting) ∧
          stagesOf id w'.published =
            stagesOf id w.published ++ movesToDeleting state ++ [(some .deleting, .deleted)]) ↔
        state ≠ .deleted ∧ failedMoves id turns < rawIds.count id.text) ∧
      (¬ (state ≠ .deleted ∧ failedMoves id turns < rawIds.count id.text) →
        (∀ t ∈ turns, t.Deletes id → t.before.store.lifecycle? id = some state) ∧
          stagesOf id w'.published = stagesOf id w.published) := by
  have hcount : (rawIds.map HandleId.mk).count id = rawIds.count id.text :=
    List.count_map_of_injective rawIds HandleId.mk (fun _ _ heq => congrArg HandleId.text heq) id.text
  have hseen : Seen id state (stagesOf id w.published) 0 (w, []) :=
    ⟨hs, hstate, rfl, rfl, by simp⟩
  rcases h.logged (ensures_removed hseen) with ⟨q, hq, hensures⟩
  cases hq
  rcases hensures hgone with ⟨reached, hending, hreached, hstages⟩
  rw [hcount] at hreached
  refine ⟨?_, ⟨?_, ?_⟩, ?_⟩
  · exact h.exists_deletes (by simp [hstate]) hgone
  · rintro ⟨-, htold⟩
    refine hreached.1 ?_
    cases reached with
    | true => rfl
    | false =>
        have htold : stagesOf id w'.published = _ := htold
        rw [show stagesOf id w'.published = _ from hstages] at htold
        simp at htold
  · intro hmoved
    rw [hreached.2 hmoved] at hending hstages
    exact ⟨hending.found, by rw [List.append_assoc]; exact hstages⟩
  · intro hmissed
    have hreached : reached = false := by
      rw [← Bool.not_eq_true]
      exact fun htrue => hmissed (hreached.1 htrue)
    rw [hreached] at hending hstages
    exact ⟨hending.found, hstages.trans (List.append_nil _)⟩

end

/-! ## A handle that goes untold -/

/-- A handle that was moved to deleting before. -/
def leavingHandle : Handle :=
  { (default : Handle) with
    id := ⟨"a"⟩
    status := { (default : HandleStatus) with lifecycle := .deleting } }

/-- A world with that handle in its store. -/
def leavingWorld : World :=
  { World.empty with store := Store.empty.putHandle leavingHandle }

/-- A call of the store may fail. -/
theorem World.answers_failed (call : StoreCall) (e : StoreError) (w : World) :
    World.Answers (fun _ => True) (.store call) w (.error e) w.nextTurn :=
  ⟨{ World.undisturbed with storeFailure := fun _ _ => some e }, .zero, fun _ _ _ _ => trivial, rfl⟩

/-- The status of a handle that is deleting cannot be read. The handle is deleted and the removal succeeds,
but nobody is told. -/
theorem removal_untold :
    ∃ turns w',
      Interleaved (World.Answers fun _ => True) [remove "lcm" ["a"]] leavingWorld turns
        [.done [.success ⟨"a"⟩]] w' ∧
      leavingWorld.store.lifecycle? ⟨"a"⟩ = some .deleting ∧ w'.store.lifecycle? ⟨"a"⟩ = none ∧
      stagesOf ⟨"a"⟩ w'.published = [] := by
  have hs : leavingWorld.store.Sound := Store.sound_empty.putHandle leavingHandle
  have hr : leavingWorld.store.record? ⟨"a"⟩ = some leavingHandle :=
    (Store.record?_putHandle _ _ _).trans (if_pos rfl)
  have hmany : leavingWorld.store.perform (.getMany [⟨"a"⟩]) = (.ok [leavingHandle], leavingWorld.store) := by
    rw [Store.perform, hs.getMany_eq, List.filterMap_cons_some hr]
    rfl
  have answered := World.answers_undisturbed fun _ => True
  have h₀ := @Interleaved.start _ _ (World.Answers fun _ => True) [remove "lcm" ["a"]] leavingWorld
  have h₁ := h₀.snoc 0 rfl (World.answers_store _ _ hmany)
  have h₂ := h₁.snoc 0 rfl (World.answers_failed _ .outOfOrder _)
  have hchunks : chunks deleteChunkSize (["a"].map HandleId.mk) = [[⟨"a"⟩]] := by simp [chunks]
  rw [hchunks] at h₂
  have h₃ := h₂.snoc 0 rfl (answered _ _)
  have h₄ := h₃.snoc 0 rfl (answered _ _)
  have h₅ := h₄.snoc 0 rfl (answered _ _)
  have hstate : leavingWorld.store.lifecycle? ⟨"a"⟩ = some .deleting := by
    rw [Store.lifecycle?, hr]
    rfl
  rcases removal_told_iff hs hstate h₅ rfl with ⟨-, -, huntold⟩
  exact ⟨_, _, h₅, hstate, rfl, (huntold fun hmoved => absurd hmoved.2 (Nat.lt_irrefl 1)).2⟩

end CmInventory
