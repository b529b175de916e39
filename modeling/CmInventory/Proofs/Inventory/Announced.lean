import CmInventory.Proofs.Inventory.Lives
import CmInventory.Proofs.Inventory.Transitions
import CmInventory.Proofs.Store.Records

/-!
# Moves are announced

A member that works alone, in a store that fails at nothing but deletions (`Setting.alone`), leaves the
events and the records in agreement: `World.Consistent` says that the events of every handle are lives and
tell the state of its record, if there is one.

A move is written first and announced after it, so that in between the events are behind the store. What
they tell is therefore kept apart from what is stored: `World.Tells w seen` speaks of the events alone, and
each announcement brings it one move further.
-/

namespace CmInventory

/-- Whether a call deletes handles. -/
def StoreCall.Deletes : StoreCall → Prop
  | .delete _ | .deleteAll _ => True
  | _ => False

/-- The setting in which one member works alone, and nothing but deletions may fail. -/
def Setting.alone : Setting World :=
  ⟨fun _ _ => True, World.Answers StoreCall.Deletes⟩

namespace World

theorem advance_zero (w : World) : w.advance .zero = w := rfl

/-- What a program that is run alone ensures holds after the run. -/
theorem run_of_ensures {α : Type} {c : Circumstances} {p : Program α} {Q : α → World → Prop} {w : World}
    (hc : ∀ n call e, c.storeFailure n call = some e → call.Deletes) (h : p.Ensures .alone Q w) :
    Q (p.run (reply c) w).1 (p.run (reply c) w).2 :=
  h.run fun r v => ⟨c, .zero, hc, by rw [advance_zero]⟩

theorem only_deletes {c : Circumstances} (hc : ∀ n call, c.storeFailure n call = none) (n : Nat) (call : StoreCall)
    (e : StoreError) (h : c.storeFailure n call = some e) : call.Deletes := by
  rw [hc] at h
  cases h

/-- What a program ensures holds after a run in which no call of the store fails. -/
theorem ensured {α : Type} {c : Circumstances} {p : Program α} {Q : α → World → Prop} {a : α} {w w' : World}
    (hc : ∀ n call, c.storeFailure n call = none) (hrun : p.run (reply c) w = (a, w'))
    (h : p.Ensures .alone Q w) : Q a w' := by
  have hafter := run_of_ensures (only_deletes hc) h
  rwa [hrun] at hafter

/-- Neither the store nor the events changed. -/
structure Same (w w' : World) : Prop where
  store : w'.store = w.store
  published : w'.published = w.published

theorem Same.refl (w : World) : w.Same w := ⟨rfl, rfl⟩

theorem Same.trans {u v w : World} (h₁ : u.Same v) (h₂ : v.Same w) : u.Same w :=
  ⟨h₂.store.trans h₁.store, h₂.published.trans h₁.published⟩

/-- The events of every handle are lives and tell its state. -/
def Tells (w : World) (seen : HandleId → Option Lifecycle) : Prop :=
  ∀ id, AreLives (movesOf id w.published) ∧ toldState (movesOf id w.published) = seen id

/-- The events of every handle are lives and tell the state of its record. -/
structure Consistent (w : World) : Prop where
  sound : w.store.Sound
  tells : w.Tells w.store.lifecycle?

variable {w w' : World}

theorem Tells.of_published {seen : HandleId → Option Lifecycle} (hw : w.Tells seen)
    (hp : w'.published = w.published) : w'.Tells seen := by
  intro id
  rw [hp]
  exact hw id

theorem Consistent.of_same (hw : w.Consistent) (h : w.Same w') : w'.Consistent := by
  refine ⟨?_, ?_⟩
  · rw [h.store]
    exact hw.sound
  · intro id
    rw [h.store, h.published]
    exact hw.tells id

/-- A change that leaves all handles in their states needs no announcement. -/
theorem Consistent.of_states (hw : w.Consistent) (hs : w'.store.Sound)
    (hp : w'.published = w.published)
    (hl : ∀ id, w'.store.lifecycle? id = w.store.lifecycle? id) : w'.Consistent := by
  refine ⟨hs, ?_⟩
  intro id
  rw [hp, hl]
  exact hw.tells id

/-- A record may be written anew as long as it stays in its state. -/
theorem Consistent.of_putHandle (hw : w.Consistent) {g h : Handle} (hp : w'.published = w.published)
    (hstore : w'.store = w.store.putHandle g) (hr : w.store.record? g.id = some h)
    (hlife : g.lifecycle = h.lifecycle) : w'.Consistent := by
  refine hw.of_states ?_ hp ?_
  · rw [hstore]
    exact hw.sound.putHandle g
  · intro id
    rw [hstore, Store.lifecycle?_putHandle]
    split
    · rename_i hid
      rw [← hid, Store.lifecycle?, hr, Option.map_some, hlife]
    · rfl

theorem Consistent.ne_deleted (hw : w.Consistent) (id : HandleId) :
    w.store.lifecycle? id ≠ some .deleted := by
  intro h
  have htold := (hw.tells id).2
  rw [h] at htold
  exact (toldState_eq_some.1 htold).2 rfl

end World

/-! ## Single requests -/

variable {w : World}

theorem ensures_quiet {r : Request} {Q : r.Reply → World → Prop} (hr : r.IsQuiet)
    (h : ∀ reply w', w.Same w' → Q reply w') : (Program.request r).Ensures .alone Q w := by
  refine ⟨trivial, ?_⟩
  intro reply w' hans
  rcases World.Answers.quiet hr hans with ⟨hstore, hpub⟩
  exact h reply w' ⟨hstore, hpub⟩

theorem ensures_call {call : StoreCall} {Q : Except StoreError call.Answer → World → Prop}
    (hc : ¬ call.Deletes)
    (h : ∀ reply w', w'.published = w.published → (reply, w'.store) = w.store.perform call →
      Q reply w') : (Program.store call).Ensures .alone Q w := by
  refine ⟨trivial, ?_⟩
  intro reply w' hans
  rcases World.Answers.store hans with ⟨hpub, ⟨e, hfails, -⟩ | hperform⟩
  · exact absurd hfails hc
  · exact h reply w' hpub hperform

theorem ensures_read {call : StoreCall} {Q : Except StoreError call.Answer → World → Prop}
    (hc : ¬ call.Deletes) (hread : (w.store.perform call).2 = w.store)
    (h : ∀ w', w.Same w' → Q (w.store.perform call).1 w') :
    (Program.store call).Ensures .alone Q w := by
  refine ensures_call hc ?_
  intro reply w' hpub hperform
  rcases Prod.ext_iff.1 hperform with ⟨hreply, hstore⟩
  have hreply : reply = (w.store.perform call).1 := hreply
  rw [hreply]
  exact h w' ⟨by simpa [hread] using hstore, hpub⟩

theorem ensures_status {id : HandleId} {Q : Except StoreError HandleStatus → World → Prop}
    (h : ∀ w', w.Same w' → Q (w.store.status id) w') :
    (Program.store (.status id)).Ensures .alone Q w :=
  ensures_read (fun hdel => hdel) rfl h

/-- A deletion may fail and leave everything as it is. -/
theorem ensures_deletion {call : StoreCall} {Q : Except StoreError call.Answer → World → Prop}
    (hfailed : ∀ e w', w.Same w' → Q (.error e) w')
    (h : ∀ reply w', w'.published = w.published → (reply, w'.store) = w.store.perform call →
      Q reply w') : (Program.store call).Ensures .alone Q w := by
  refine ⟨trivial, ?_⟩
  intro reply w' hans
  rcases World.Answers.store hans with ⟨hpub, ⟨e, -, rfl, hstore⟩ | hperform⟩
  · exact hfailed e w' ⟨hstore, hpub⟩
  · exact h reply w' hpub hperform

/-- Whatever was asked for, the store is sound afterwards. -/
theorem World.Answers.sound {fails : StoreCall → Prop} {r : Request} {w' : World} {reply : r.Reply}
    (h : World.Answers fails r w reply w') (hs : w.store.Sound) : w'.store.Sound := by
  cases r with
  | store call =>
      rcases World.Answers.store h with ⟨-, hfailed | hperform⟩
      · rcases hfailed with ⟨e, -, -, hstore⟩
        rw [hstore]
        exact hs
      · have hstore : w'.store = (w.store.perform call).2 := (Prod.ext_iff.1 hperform).2
        rw [hstore]
        exact hs.perform call
  | publish event =>
      rw [(World.Answers.publish h).1]
      exact hs
  | _ =>
      rw [(World.Answers.quiet (by trivial) h).1]
      exact hs

/-- A request that does not write the rows of handles leaves the records as they are. -/
theorem World.Answers.record? {fails : StoreCall → Prop} {r : Request} {w' : World} {reply : r.Reply}
    (h : World.Answers fails r w reply w') (hr : ∀ call, r = .store call → ¬ call.WritesHandles)
    (id : HandleId) : w'.store.record? id = w.store.record? id := by
  cases r with
  | store call =>
      rcases World.Answers.store h with ⟨-, ⟨e, -, -, hstore⟩ | hperform⟩
      · rw [hstore]
      · rw [show w'.store = (w.store.perform call).2 from (Prod.ext_iff.1 hperform).2,
          Store.record?_perform (hr call rfl)]
  | publish event => rw [(World.Answers.publish h).1]
  | _ => rw [(World.Answers.quiet (by trivial) h).1]

/-! ## Actions that keep a fact -/

section

variable {α β σ : Type} {E : Setting σ} {I : σ → Prop} {s : σ}

theorem keeps_bind {x : Action α} {f : α → Action β} (hx : x.run.Ensures E (fun _ => I) s)
    (hf : ∀ a t, I t → (f a).run.Ensures E (fun _ => I) t) :
    (x >>= f).run.Ensures E (fun _ => I) s :=
  Action.ensures_bind_of hx hf fun _ _ ht => ht

/-- One of two actions, and what comes after either of them. -/
theorem keeps_choice {c : Prop} [Decidable c] {x y : Action α} {f : α → Action β}
    (hx : x.run.Ensures E (fun _ => I) s) (hy : y.run.Ensures E (fun _ => I) s)
    (hf : ∀ a t, I t → (f a).run.Ensures E (fun _ => I) t) :
    (if c then x >>= f else y >>= f).run.Ensures E (fun _ => I) s := by
  split
  · exact keeps_bind hx hf
  · exact keeps_bind hy hf

end

/-! ## Announcements -/

theorem World.Tells.publish {seen : HandleId → Option Lifecycle} (hw : w.Tells seen) {w' : World}
    {topic key : String} {e : LifecycleEvent}
    (hp : w'.published = w.published ++ [⟨topic, key, .lifecycle e⟩])
    (hold : e.oldState = seen e.handleId) (hnew : MayBecome (seen e.handleId) e.newState) :
    w'.Tells fun id => if id = e.handleId then e.newState.told else seen id := by
  intro id
  rcases hw id with ⟨hlives, htold⟩
  rw [hp, movesOf_append, movesOf_lifecycle]
  by_cases hid : e.handleId = id
  · subst hid
    rw [if_pos rfl]
    refine ⟨hlives.snoc ?_ ?_, ?_⟩
    · rw [htold, hold]
    · rwa [htold]
    · simp [toldState_snoc]
  · have hid' : ¬ id = e.handleId := fun h => hid h.symm
    simp only [if_neg hid, if_neg hid', List.append_nil]
    exact ⟨hlives, htold⟩

/-- What an event tells of a handle: the state that it left, if it was in one, and the state that it is in. -/
structure Announcement where
  id : HandleId
  old : Option Lifecycle
  new : Lifecycle
  deriving DecidableEq, Repr

/-- The announcement of a new handle. -/
def Announcement.birth (id : HandleId) : Announcement :=
  ⟨id, none, .advised⟩

/-- An event makes an announcement, under some id and at some time. -/
def Announcement.MadeBy (topic : String) (a : Announcement) (p : Published) : Prop :=
  ∃ eventId timestamp, p = ⟨topic, a.id.text, .lifecycle ⟨eventId, a.id, a.old, a.new, timestamp⟩⟩

/-- The announcements were made, one event for each and in their order, and nothing else was published. -/
def World.Announces (w : World) (topic : String) (made : List Announcement) (w' : World) : Prop :=
  ∃ events, w'.published = w.published ++ events ∧ List.Forall₂ (Announcement.MadeBy topic) made events

namespace World

variable {topic : String} {w' : World}

theorem announces_nil (h : w'.published = w.published) : w.Announces topic [] w' :=
  ⟨[], by rw [h, List.append_nil], .nil⟩

theorem announces_one {id : HandleId} {old : Option Lifecycle} {new : Lifecycle} {eventId : EventId}
    {timestamp : Instant}
    (h : w'.published = w.published ++ [⟨topic, id.text, .lifecycle ⟨eventId, id, old, new, timestamp⟩⟩]) :
    w.Announces topic [⟨id, old, new⟩] w' :=
  ⟨_, h, .cons ⟨eventId, timestamp, rfl⟩ .nil⟩

theorem Announces.trans {made more : List Announcement} {u v : World} (h₁ : u.Announces topic made v)
    (h₂ : v.Announces topic more w) : u.Announces topic (made ++ more) w := by
  rcases h₁ with ⟨events, hevents, hmade⟩
  rcases h₂ with ⟨others, hothers, hmore⟩
  exact ⟨events ++ others, by rw [hothers, hevents, List.append_assoc], List.rel_append hmade hmore⟩

/-- The announcements of new handles, of which nothing was told before. -/
theorem Tells.births {seen : HandleId → Option Lifecycle} {ids : List HandleId} (hw : w.Tells seen)
    (hd : ids.Nodup) (hnew : ∀ id ∈ ids, seen id = none)
    (h : w.Announces topic (ids.map .birth) w') :
    w'.Tells fun id => if id ∈ ids then some .advised else seen id := by
  rcases h with ⟨events, hevents, hmade⟩
  induction ids generalizing w seen events with
  | nil =>
      cases hmade
      simpa using hw.of_published (by rw [hevents, List.append_nil])
  | cons id rest ih =>
      rcases List.nodup_cons.1 hd with ⟨hnot, hrest⟩
      cases hmade with
      | cons hfirst hothers =>
          rcases hfirst with ⟨eventId, timestamp, rfl⟩
          have hnone : seen id = none := hnew id List.mem_cons_self
          have hmay : MayBecome (seen id) .advised := by
            rw [hnone]
            rfl
          have hfirst :
              (w.publish ⟨topic, id.text, .lifecycle ⟨eventId, id, none, .advised, timestamp⟩⟩).Tells
              fun other => if other = id then Lifecycle.advised.told else seen other :=
            hw.publish (e := ⟨eventId, id, none, .advised, timestamp⟩) rfl hnone.symm hmay
          have htold := ih hfirst hrest ?_ _ (hevents.trans (List.append_cons _ _ _)) hothers
          · intro other
            rcases htold other with ⟨hlives, hstate⟩
            refine ⟨hlives, ?_⟩
            rw [hstate]
            by_cases hid : other = id
            · simp [hid, Lifecycle.told]
            · simp [hid]
          · intro other hmem
            have hne : ¬ other = id := by
              rintro rfl
              exact hnot hmem
            rw [if_neg hne]
            exact hnew other (List.mem_cons_of_mem _ hmem)

end World

namespace Inventory

/-- The event of an announcement is published, and the store is left as it is. -/
theorem ensures_announced {topic : String} {id : HandleId} {old : Option Lifecycle} {new : Lifecycle} :
    (announce topic id old new).Ensures .alone (fun _ w' => w'.store = w.store ∧ ∃ eventId timestamp,
      w'.published = w.published ++ [⟨topic, id.text, .lifecycle ⟨eventId, id, old, new, timestamp⟩⟩]) w := by
  refine ensures_announce_iff.2 (ensures_quiet trivial ?_)
  intro eventId w₁ h₁
  refine ensures_quiet trivial ?_
  intro timestamp w₂ h₂
  have hsame := h₁.trans h₂
  refine ⟨trivial, ?_⟩
  intro reply w₃ hans
  rcases World.Answers.publish hans with ⟨hstore, hpub⟩
  exact ⟨hstore.trans hsame.store, eventId, timestamp, by rw [hpub, hsame.published]⟩

theorem ensures_announce {topic : String} {id : HandleId} {old : Option Lifecycle} {new : Lifecycle}
    {seen : HandleId → Option Lifecycle} {Q : Unit → World → Prop} (hw : w.Tells seen)
    (hold : old = seen id) (hnew : MayBecome (seen id) new)
    (h : ∀ w', w'.store = w.store →
      w'.Tells (fun other => if other = id then new.told else seen other) → Q () w') :
    (announce topic id old new).Ensures .alone Q w := by
  refine ensures_announced.mono ?_
  rintro _ w' ⟨hstore, eventId, timestamp, hpub⟩
  exact h w' hstore (hw.publish hpub hold hnew)

/-! ## Moves -/

theorem ensures_saveFrom {id : HandleId} {old : Lifecycle} {status : HandleStatus} {h : Handle}
    {Q : Except InventoryError Unit → World → Prop} (hs : w.store.Sound)
    (hr : w.store.record? id = some h) (hl : h.lifecycle = old)
    (hQ : ∀ w', w'.published = w.published →
      w'.store = w.store.putHandle { h with status := status } → Q (.ok ()) w') :
    (saveFrom id old status).run.Ensures .alone Q w := by
  refine ensures_saveFrom_iff.2 (ensures_call (fun hdel => hdel) ?_)
  intro reply w' hpub hperform
  rw [hs.perform_saveStatusIf hr hl] at hperform
  rcases Prod.mk.inj hperform with ⟨rfl, hstore⟩
  exact hQ w' hpub hstore

/-- What a move other than the last one leaves behind. It is written if the record is in another state,
from which it may move, and there is a reason if one is needed. -/
def Moved (snapshot : Handle) (target : Lifecycle) (w : World) :
    Except InventoryError (Option Lifecycle) → World → Prop
  | .ok (some old), w' =>
      w'.published = w.published ∧ ∃ h reason now, w.store.record? snapshot.id = some h ∧
        h.lifecycle = old ∧ old ≠ target ∧ old.canMoveTo target = true ∧
        nextReason snapshot h.status target = .ok reason ∧
        w'.store = w.store.putHandle { h with status := nextStatus h.status target reason now }
  | .ok none, w' =>
      w.Same w' ∧ ∃ h, w.store.record? snapshot.id = some h ∧ h.lifecycle = target
  | .error _, w' =>
      w.Same w' ∧ ∀ h, w.store.record? snapshot.id = some h → h.lifecycle ≠ target ∧
        (h.lifecycle.canMoveTo target = true → ∃ e, nextReason snapshot h.status target = .error e)

theorem ensures_move {snapshot : Handle} {target : Lifecycle} (hs : w.store.Sound)
    (ht : target ≠ .deleted) :
    (move snapshot target).run.Ensures .alone (Moved snapshot target w) w := by
  refine (ensures_move_iff ht).2 (ensures_status ?_)
  intro w₁ h₁
  rw [hs.status_eq]
  cases hr : w.store.record? snapshot.id with
  | none =>
      refine ⟨h₁, ?_⟩
      intro h hh
      rw [hr] at hh
      cases hh
  | some h =>
      have honly : ∀ g, w.store.record? snapshot.id = some g → g = h := by
        intro g hg
        rw [hr] at hg
        exact (Option.some.inj hg).symm
      refine ⟨fun heq => ⟨h₁, h, hr, heq⟩, ?refused, ?unexplained, ?writes⟩
      case refused =>
        refine fun hne hcan => ⟨h₁, fun g hg => ?_⟩
        rw [honly g hg]
        exact ⟨hne, fun h => absurd h hcan⟩
      case unexplained =>
        refine fun hne _ e hreason => ⟨h₁, fun g hg => ?_⟩
        rw [honly g hg]
        exact ⟨hne, fun _ => ⟨e, hreason⟩⟩
      case writes =>
        intro hne hcan reason hreason
        refine ensures_quiet trivial ?_
        intro now w₂ h₂
        have h₂ := h₁.trans h₂
        refine ensures_saveFrom (h := h) (h₂.store ▸ hs) (h₂.store ▸ hr) rfl ?_
        intro w₃ hpub hstore
        rw [h₂.store] at hstore
        exact ⟨hpub.trans h₂.published, h, reason, now, hr, rfl, hne, hcan, hreason, hstore⟩

/-- What is left behind by the note that the data of a handle are in step. It is written if the handle is
ready. -/
def Noted (id : HandleId) (w : World) : Except InventoryError Unit → World → Prop
  | .ok (), w' =>
      w'.published = w.published ∧ ∃ h now, w.store.record? id = some h ∧ h.lifecycle = .ready ∧
        w'.store = w.store.putHandle { h with status := h.status.markSynchronized now }
  | .error _, w' => w.Same w' ∧ ∀ h, w.store.record? id = some h → h.lifecycle ≠ .ready

theorem ensures_markSynchronized {id : HandleId} (hs : w.store.Sound) :
    (markSynchronized id).run.Ensures .alone (Noted id w) w := by
  refine ensures_markSynchronized_iff.2 (ensures_status ?_)
  intro w₁ h₁
  rw [hs.status_eq]
  cases hr : w.store.record? id with
  | none =>
      refine ⟨h₁, ?_⟩
      intro h hh
      rw [hr] at hh
      cases hh
  | some h =>
      refine ⟨?unready, ?writes⟩
      case unready =>
        refine fun hready => ⟨h₁, fun g hg => ?_⟩
        rw [hr, Option.some.injEq] at hg
        rw [← hg]
        exact hready
      case writes =>
        refine fun hready => ensures_quiet trivial ?_
        intro now w₂ h₂
        have h₂ := h₁.trans h₂
        refine ensures_saveFrom (h₂.store ▸ hs) (h₂.store ▸ hr) hready ?_
        intro w₃ hpub hstore
        rw [h₂.store] at hstore
        exact ⟨hpub.trans h₂.published, h, now, hr, hready, hstore⟩

/-- A written move changes the state of its record only. -/
theorem lifecycle?_putHandle_status {s : Store} (hs : s.Sound) {id : HandleId} {h : Handle}
    (hr : s.record? id = some h) (status : HandleStatus) (other : HandleId) :
    (s.putHandle { h with status := status }).lifecycle? other =
      if other = id then some status.lifecycle else s.lifecycle? other := by
  rw [Store.lifecycle?_putHandle, hs.id_of_record? hr]
  simp only [eq_comm]
  rfl

theorem canMoveTo_deleting {s : Lifecycle} (h : s ≠ .deleted) : s.canMoveTo .deleting = true := by
  cases s <;> simp_all [Lifecycle.canMoveTo]

/-- A record that can be moved to deleting is. -/
theorem Moved.lifecycle_of_error {snapshot : Handle} {e : InventoryError} {w' : World}
    (h : Moved snapshot .deleting w (.error e) w') (hw : w.Consistent) :
    w.store.lifecycle? snapshot.id = none := by
  cases hr : w.store.record? snapshot.id with
  | none => rw [Store.lifecycle?, hr, Option.map_none]
  | some g =>
      have hlife : g.lifecycle ≠ .deleted := by
        intro hdeleted
        refine hw.ne_deleted snapshot.id ?_
        rw [Store.lifecycle?, hr, Option.map_some, hdeleted]
      rcases (h.2 g hr).2 (canMoveTo_deleting hlife) with ⟨e', hreason⟩
      cases hreason

/-! ## Batches -/

theorem reached_append (a b : BatchResult) (id : HandleId) :
    (a.append b).reached id = (a.reached id || b.reached id) := by
  simp only [BatchResult.reached, BatchResult.append, List.contains_eq_mem, List.mem_append,
    Bool.decide_or]
  ac_rfl

/-- What an entry of a batch leaves behind, with what is needed of a handle that is to be deleted. -/
structure Applied (snapshot : Handle) (target : Lifecycle) (w : World) (result : BatchResult)
    (w' : World) : Prop where
  consistent : w'.Consistent
  reached : target = .deleting → w.store.lifecycle? snapshot.id ≠ none →
    result.reached snapshot.id = true
  states : target = .deleting → ∀ id, w'.store.lifecycle? id =
    if id = snapshot.id then (w.store.lifecycle? id).map fun _ => .deleting
    else w.store.lifecycle? id

theorem ensures_applyEntry {topic : String} {snapshot : Handle} {target : Lifecycle}
    (hw : w.Consistent) (ht : target ≠ .deleted) :
    (applyEntry topic snapshot target).Ensures .alone (Applied snapshot target w) w := by
  refine ensures_applyEntry_of (ensures_move hw.sound ht) ?failed ?stays ?moved
  case failed =>
    intro e w₁ hmoved
    have hsame : w.Same w₁ := hmoved.1
    refine ⟨hw.of_same hsame, ?_, ?_⟩
    · rintro rfl hstored
      exact absurd (Moved.lifecycle_of_error hmoved hw) hstored
    · rintro rfl id
      rw [hsame.store]
      split
      · rename_i hid
        rw [hid, Moved.lifecycle_of_error hmoved hw]
        rfl
      · rfl
  case stays =>
    rintro w₁ ⟨hsame, h, hr, hlife⟩
    refine ⟨hw.of_same hsame, ?_, ?_⟩
    · intro _ _
      simp [BatchResult.reached]
    · rintro rfl id
      rw [hsame.store]
      split
      · rename_i hid
        rw [hid, Store.lifecycle?, hr, Option.map_some, hlife]
        rfl
      · rfl
  case moved =>
    rintro old w₁ ⟨hpub, h, reason, now, hr, hlife, -, hmove, -, hstore₁⟩
    have hold : w.store.lifecycle? snapshot.id = some old := by
      rw [Store.lifecycle?, hr, Option.map_some, hlife]
    have hsound : w₁.store.Sound := by
      rw [hstore₁]
      exact hw.sound.putHandle _
    have hstates : ∀ id, w₁.store.lifecycle? id =
        if id = snapshot.id then some target else w.store.lifecycle? id := by
      intro id
      rw [hstore₁, lifecycle?_putHandle_status hw.sound hr]
      rfl
    -- The move is written and not yet announced: the events still tell of the store before.
    have htells : w₁.Tells w.store.lifecycle? := hw.tells.of_published hpub
    refine ensures_announce htells hold.symm (by rw [hold]; exact hmove) ?_
    intro w₂ hstore htold
    have htarget : target.told = some target := if_neg ht
    refine ⟨⟨by rw [hstore]; exact hsound, ?_⟩, ?_, ?_⟩
    · intro id
      rcases htold id with ⟨hlives, hseen⟩
      refine ⟨hlives, ?_⟩
      rw [hseen, hstore, hstates id, htarget]
    · intro _ _
      simp [BatchResult.reached]
    · rintro rfl id
      rw [hstore, hstates id]
      split
      · rename_i hid
        rw [hid, hold]
        rfl
      · rfl

/-- Moves other than last ones keep the world consistent. -/
theorem ensures_applyBatch {topic : String} {entries : List (Handle × Lifecycle)}
    (hw : w.Consistent) (ht : ∀ e ∈ entries, e.2 ≠ .deleted) :
    (applyBatch topic entries).Ensures .alone (fun _ w' => w'.Consistent) w := by
  induction entries generalizing w with
  | nil => exact hw
  | cons e rest ih =>
      rcases e with ⟨snapshot, target⟩
      rw [applyBatch]
      refine (ensures_applyEntry hw (ht (snapshot, target) (by simp))).bind ?_
      intro here w₁ happlied
      refine (ih happlied.consistent fun e he => ht e (by simp [he])).bind ?_
      intro more w₂ hw₂
      exact hw₂

/-- Every stored handle of a batch to be deleted is deleting afterwards, and reported so. -/
theorem ensures_applyBatch_deleting {topic : String} {snapshots : List Handle} (hw : w.Consistent) :
    (applyBatch topic (snapshots.map fun h => (h, .deleting))).Ensures .alone
      (fun result w' => w'.Consistent ∧
        (∀ h ∈ snapshots, w.store.lifecycle? h.id ≠ none → result.reached h.id = true) ∧
        ∀ id, w'.store.lifecycle? id =
          if id ∈ snapshots.map (·.id) then (w.store.lifecycle? id).map fun _ => .deleting
          else w.store.lifecycle? id) w := by
  induction snapshots generalizing w with
  | nil => exact ⟨hw, by simp, by simp⟩
  | cons g rest ih =>
      simp only [List.map_cons, applyBatch]
      refine (ensures_applyEntry hw (by decide)).bind ?_
      intro here w₁ happlied
      refine (ih happlied.consistent).bind ?_
      intro more w₂ hmore
      rcases hmore with ⟨hw₂, hreached, hstates⟩
      have hfirst := happlied.states rfl
      refine ⟨hw₂, ?_, ?_⟩
      · intro h hmem hstored
        rw [reached_append, Bool.or_eq_true]
        rcases List.mem_cons.1 hmem with rfl | hmem
        · exact Or.inl (happlied.reached rfl hstored)
        · refine Or.inr (hreached h hmem ?_)
          rw [hfirst h.id]
          split
          · simpa using hstored
          · exact hstored
      · intro id
        rw [hstates id, hfirst id]
        by_cases hid : id = g.id
        · subst hid
          cases w.store.lifecycle? g.id <;> simp
        · simp [hid]

/-- The last moves of handles that are gone are told from their snapshots alone. -/
theorem ensures_applyBatch_deleted {topic : String} {gone : List Handle}
    {seen : HandleId → Option Lifecycle} (hw : w.Tells seen) (hd : (gone.map (·.id)).Nodup)
    (hgone : ∀ h ∈ gone, h.lifecycle = .deleting ∧ seen h.id = some .deleting) :
    (applyBatch topic (gone.map fun h => (h, .deleted))).Ensures .alone
      (fun _ w' => w'.store = w.store ∧
        w'.Tells fun id => if id ∈ gone.map (·.id) then none else seen id) w := by
  induction gone generalizing w seen with
  | nil => exact ⟨rfl, by simpa using hw⟩
  | cons g rest ih =>
      rcases hgone g (by simp) with ⟨hlife, hseen⟩
      rcases List.nodup_cons.1 hd with ⟨hnot, hrest⟩
      -- The record is gone, so that only the events and the snapshot know of the handle.
      have hmay : MayBecome (seen g.id) .deleted := by
        rw [hseen]
        rfl
      simp only [List.map_cons, applyBatch, applyEntry_gone hlife]
      rw [Program.ensures_bind, Program.ensures_bind]
      refine ensures_announce hw hseen.symm hmay ?_
      intro w₁ hstore₁ hw₁
      refine (ih hw₁ hrest ?_).bind ?_
      · intro h hmem
        have hne : ¬ h.id = g.id := fun heq => hnot (List.mem_map.2 ⟨h, hmem, heq⟩)
        rw [if_neg hne]
        exact hgone h (by simp [hmem])
      · intro more w₂ hmore
        rcases hmore with ⟨hstore₂, hw₂⟩
        refine ⟨hstore₂.trans hstore₁, ?_⟩
        intro id
        rcases hw₂ id with ⟨hlives, htold⟩
        refine ⟨hlives, ?_⟩
        rw [htold]
        by_cases hid : id = g.id
        · simp [hid, Lifecycle.told]
        · simp [hid]

end Inventory
end CmInventory
