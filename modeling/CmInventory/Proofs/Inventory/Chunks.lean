import CmInventory.Proofs.Inventory.Registration

/-!
# Deletions in chunks

Handles are deleted a chunk at a time. A chunk of which one handle cannot be deleted is deleted one by one,
and so is a chunk that names a handle twice. Where the chunks begin and which of them were deleted at once
makes no difference, as long as it is laid down which handles cannot be deleted (`Circumstances.Refuses`):
the outcome is that of deleting one handle after the other (`ensures_deleteChunks_under`).

What a deletion makes of a world is said by a function of the world (`World.deleteOrFail`), which both ways
of deleting compute. They do not make the same number of requests, so that what comes after them happens at
other times and under other ids; worlds are compared without these (`World.unstamped`).
-/

namespace CmInventory

open Inventory

/-! ## Stamps -/

/-- An event of a handle without its own id and its time. -/
def LifecycleEvent.unstamped (e : LifecycleEvent) : LifecycleEvent :=
  { e with eventId := default, timestamp := default }

def Event.unstamped : Event → Event
  | .lifecycle e => .lifecycle e.unstamped
  | .outcome r => .outcome r

def Published.unstamped (p : Published) : Published :=
  { p with event := p.event.unstamped }

namespace World

/-- A world without the stamps of its events and without the number of requests that were made. -/
def unstamped (w : World) : World :=
  { w with published := w.published.map Published.unstamped, turn := 0 }

theorem unstamped_publish (w : World) (p : Published) :
    (w.publish p).unstamped = w.unstamped.publish p.unstamped := by
  simp [unstamped, publish]

/-- The world in which the markers of a handle were taken off. -/
def cleared (w : World) (id : HandleId) : World :=
  (w.unmark .data id).unmark .modules id

/-- Markers and the store have nothing to do with each other. -/
theorem cleared_store (w : World) (id : HandleId) (store : Store) :
    { w.cleared id with store := store } = World.cleared { w with store := store } id := rfl

/-! ## Deletions of single handles -/

variable (faults : HandleId → Option StoreError)

/-- The deletion of a handle, which fails if there is an error for it. -/
def deleteOrFail (w : World) (id : HandleId) : Deletion × World :=
  match (faults id).elim (w.store.delete id) .error with
  | .ok store => (⟨id, .ok ()⟩, World.cleared { w with store := store } id)
  | .error e => (⟨id, .error e⟩, w)

/-- The deletions of handles one after the other. -/
def deleteSingly : List HandleId → World → List Deletion × World
  | [], w => ([], w)
  | id :: rest, w =>
      let (d, w₁) := w.deleteOrFail faults id
      let (ds, w₂) := deleteSingly rest w₁
      (d :: ds, w₂)

variable {faults}

theorem deleteSingly_append (ids more : List HandleId) (w : World) :
    deleteSingly faults (ids ++ more) w =
      ((deleteSingly faults ids w).1 ++ (deleteSingly faults more (deleteSingly faults ids w).2).1,
        (deleteSingly faults more (deleteSingly faults ids w).2).2) := by
  induction ids generalizing w with
  | nil => rfl
  | cons id rest ih =>
      simp only [List.cons_append, deleteSingly, ih]

theorem id_deleteOrFail (w : World) (id : HandleId) : (w.deleteOrFail faults id).1.id = id := by
  rw [deleteOrFail]
  split <;> rfl

/-- There is one deletion for each handle of the list, in its place. -/
theorem map_id_deleteSingly (faults : HandleId → Option StoreError) (ids : List HandleId) (w : World) :
    (deleteSingly faults ids w).1.map (·.id) = ids := by
  induction ids generalizing w with
  | nil => rfl
  | cons id rest ih =>
      rw [deleteSingly, List.map_cons, id_deleteOrFail, ih]

/-- Handles that can be deleted at once, and for which there is no error, can be deleted one by one. -/
theorem deleteSingly_of_deleteAll {ids : List HandleId} {w : World} {store : Store}
    (hfaults : ∀ id ∈ ids, faults id = none) (hstore : w.store.deleteAll ids = .ok store) :
    deleteSingly faults ids w =
      (ids.map fun id => ⟨id, .ok ()⟩, ids.foldl World.cleared { w with store := store }) := by
  induction ids generalizing w with
  | nil =>
      cases hstore
      rfl
  | cons id rest ih =>
      rw [Store.deleteAll] at hstore
      cases hdel : w.store.delete id with
      | error e => simp [hdel, bind, Except.bind] at hstore
      | ok store₁ =>
          rw [hdel] at hstore
          have hone : w.deleteOrFail faults id =
              (⟨id, .ok ()⟩, World.cleared { w with store := store₁ } id) := by
            rw [deleteOrFail, hfaults id (by simp), Option.elim_none, hdel]
          have hrest := ih (w := World.cleared { w with store := store₁ } id)
            (fun other hmem => hfaults other (by simp [hmem])) hstore
          rw [deleteSingly, hone]
          dsimp only
          rw [hrest, cleared_store, List.map_cons, List.foldl_cons]

end World

/-! ## Deletions by programs -/

/-- Circumstances in which a handle cannot be deleted if there is an error for it, neither alone nor in a
chunk, and in which no call fails that does not delete. -/
structure Circumstances.Refuses (c : Circumstances) (faults : HandleId → Option StoreError) : Prop where
  single : ∀ n id, c.storeFailure n (.delete id) = faults id
  chunk : ∀ n ids, (c.storeFailure n (.deleteAll ids)).isSome = ids.any fun id => (faults id).isSome
  other : ∀ n call, ¬ call.Deletes → c.storeFailure n call = none

theorem Circumstances.refuses_none {c : Circumstances} (hc : ∀ n call, c.storeFailure n call = none) :
    c.Refuses fun _ => none :=
  ⟨fun n id => hc n _, fun n ids => by simp [hc], fun n call _ => hc n call⟩

section

variable {c : Circumstances} {faults : HandleId → Option StoreError} {w : World}

namespace World

/-- A call that does not delete is performed. -/
theorem reply_other (hc : c.Refuses faults) (call : StoreCall) (hcall : ¬ call.Deletes) :
    reply c (.store call) w = w.nextTurn.callStore call := by
  rw [reply, hc.other w.turn call hcall]

/-- A handle that is deleted alone. -/
theorem reply_delete (hc : c.Refuses faults) (id : HandleId) :
    reply c (.store (.delete id)) w = match (faults id).elim (w.store.delete id) .error with
      | .ok store => (.ok (), { w.nextTurn with store := store })
      | .error e => (.error e, w.nextTurn) := by
  rw [reply, hc.single]
  cases faults id with
  | some e => rfl
  | none =>
      have hsame : w.nextTurn.store = w.store := rfl
      rw [Option.elim_none, callStore, Store.perform, hsame]
      cases w.store.delete id <;> rfl

/-- A chunk that is not deleted is left alone. If it is deleted there is no error for any of its handles. -/
theorem reply_deleteAll (hc : c.Refuses faults) (ids : List HandleId) :
    (∃ e, reply c (.store (.deleteAll ids)) w = (.error e, w.nextTurn)) ∨
      ∃ store, reply c (.store (.deleteAll ids)) w = (.ok (), { w.nextTurn with store := store }) ∧
        (∀ id ∈ ids, faults id = none) ∧ w.store.deleteAll ids = .ok store := by
  have hfails := hc.chunk w.turn ids
  rw [reply]
  cases hfailure : c.storeFailure w.turn (.deleteAll ids) with
  | some e => exact Or.inl ⟨e, rfl⟩
  | none =>
      have hnone : ∀ id ∈ ids, faults id = none := by
        rw [hfailure] at hfails
        simpa using hfails.symm
      have hsame : w.nextTurn.store = w.store := rfl
      rw [callStore, Store.perform, hsame]
      cases w.store.deleteAll ids with
      | error e => exact Or.inl ⟨e, rfl⟩
      | ok store => exact Or.inr ⟨store, rfl, hnone, rfl⟩

end World

namespace Inventory

/-- A program deletes handles as if one by one. -/
def DeletesSingly (faults : HandleId → Option StoreError) (ids : List HandleId) (w : World)
    (ds : List Deletion) (w' : World) : Prop :=
  (ds, w'.unstamped) = World.deleteSingly faults ids w.unstamped

theorem DeletesSingly.trans {ids more : List HandleId} {ds es : List Deletion} {w₁ w₂ : World}
    (h₁ : DeletesSingly faults ids w ds w₁) (h₂ : DeletesSingly faults more w₁ es w₂) :
    DeletesSingly faults (ids ++ more) w (ds ++ es) w₂ := by
  have hfirst : World.deleteSingly faults ids w.unstamped = (ds, w₁.unstamped) := h₁.symm
  have hrest : World.deleteSingly faults more w₁.unstamped = (es, w₂.unstamped) := h₂.symm
  rw [DeletesSingly, World.deleteSingly_append, hfirst, hrest]

theorem ensures_deleted_under {id : HandleId} :
    (deleted id).Ensures (.under c)
      (fun d w' => d = ⟨id, .ok ()⟩ ∧ w'.unstamped = w.unstamped.cleared id) w := by
  rw [deleted, clearMarkers, Program.ensures_bind, Program.ensures_bind]
  refine under_request ?_
  refine under_request ?_
  exact ⟨rfl, rfl⟩

theorem ensures_deleteOne_under (hc : c.Refuses faults) {id : HandleId} :
    (deleteOne id).Ensures (.under c) (fun d w' => DeletesSingly faults [id] w [d] w') w := by
  have hone : ∀ {d : Deletion} {w' : World}, (d, w'.unstamped) = w.unstamped.deleteOrFail faults id →
      DeletesSingly faults [id] w [d] w' := by
    intro d w' h
    rw [DeletesSingly, World.deleteSingly, ← h]
    rfl
  rw [deleteOne, Program.ensures_bind]
  refine under_request ?_
  rw [World.reply_delete hc]
  cases hdel : (faults id).elim (w.store.delete id) .error with
  | error e =>
      refine hone ?_
      rw [World.deleteOrFail, show w.unstamped.store = w.store from rfl, hdel]
      rfl
  | ok store =>
      refine ensures_deleted_under.mono ?_
      rintro d w' ⟨rfl, hw'⟩
      refine hone ?_
      rw [World.deleteOrFail, show w.unstamped.store = w.store from rfl, hdel, hw']
      rfl

theorem ensures_deleteEach (hc : c.Refuses faults) {ids : List HandleId} :
    (ids.mapM deleteOne).Ensures (.under c) (DeletesSingly faults ids w) w := by
  refine Program.ensures_mapM (I := fun ids ds w' => DeletesSingly faults ids w ds w') ?_ rfl
  intro ids ds w₁ id h₁
  exact (ensures_deleteOne_under hc).mono fun d w₂ h₂ => h₁.trans h₂

theorem ensures_deletedEach {ids : List HandleId} :
    (ids.mapM deleted).Ensures (.under c)
      (fun ds w' => ds = ids.map (Deletion.mk · (.ok ())) ∧
        w'.unstamped = ids.foldl World.cleared w.unstamped) w := by
  refine Program.ensures_mapM (I := fun ids ds (w' : World) => ds = ids.map (Deletion.mk · (.ok ())) ∧
    w'.unstamped = ids.foldl World.cleared w.unstamped) ?_ ⟨rfl, rfl⟩
  rintro ids ds w₁ id ⟨rfl, hw₁⟩
  refine ensures_deleted_under.mono ?_
  rintro d w₂ ⟨rfl, hw₂⟩
  rw [hw₂, hw₁, List.map_append, List.foldl_append]
  exact ⟨rfl, rfl⟩

/-- A chunk that can be deleted at once could be deleted one by one, and a chunk that cannot is. -/
theorem ensures_deleteChunk_under (hc : c.Refuses faults) {ids : List HandleId} :
    (deleteChunk ids).Ensures (.under c) (DeletesSingly faults ids w) w := by
  rw [deleteChunk, Program.ensures_bind]
  refine under_request ?_
  rcases World.reply_deleteAll (w := w) hc ids with ⟨e, hreply⟩ | ⟨store, hreply, hnone, hstore⟩
  · rw [hreply]
    exact (ensures_deleteEach hc).mono fun ds w' h => h
  · rw [hreply]
    refine ensures_deletedEach.mono ?_
    rintro ds w' ⟨rfl, hw'⟩
    rw [DeletesSingly, World.deleteSingly_of_deleteAll (w := w.unstamped) hnone hstore, hw']
    rfl

theorem ensures_deleteChunks_under (hc : c.Refuses faults) {lists : List (List HandleId)} :
    (deleteChunks lists).Ensures (.under c) (DeletesSingly faults lists.flatten w) w := by
  induction lists generalizing w with
  | nil => rfl
  | cons ids rest ih =>
      rw [deleteChunks]
      refine (ensures_deleteChunk_under hc).bind fun here w₁ h₁ => ?_
      refine ih.bind fun more w₂ h₂ => ?_
      exact h₁.trans h₂

end Inventory

/-! ## What single deletions leave -/

namespace World

theorem gone_deleteOrFail (hs : w.store.Sound) (faults : HandleId → Option StoreError) (id : HandleId) :
    Gone (doneIds [(w.deleteOrFail faults id).1]) w (w.deleteOrFail faults id).2 := by
  rw [deleteOrFail]
  cases hdel : (faults id).elim (w.store.delete id) .error with
  | error e => exact .refl hs
  | ok store =>
      have hstore : w.store.delete id = .ok store := by
        cases hfault : faults id with
        | some e => simp [hfault] at hdel
        | none => simpa [hfault] using hdel
      have hall : w.store.deleteAll [id] = .ok store := by
        rw [Store.deleteAll, hstore]
        rfl
      exact gone_of_deleteAll hs hall rfl rfl

theorem gone_deleteSingly (hs : w.store.Sound) (faults : HandleId → Option StoreError)
    (ids : List HandleId) :
    Gone (doneIds (deleteSingly faults ids w).1) w (deleteSingly faults ids w).2 := by
  induction ids generalizing w with
  | nil => exact .refl hs
  | cons id rest ih =>
      have hone := gone_deleteOrFail hs faults id
      have hmore := hone.trans (ih hone.sound)
      rwa [← doneIds_append] at hmore

/-- A valid id that can be deleted is not stored after it was deleted. -/
theorem lifecycle?_deleteOrFail {id : HandleId} (hs : w.store.Sound) (hfault : faults id = none)
    (hvalid : id.isValid = true) : (w.deleteOrFail faults id).2.store.lifecycle? id = none := by
  rw [deleteOrFail, hfault, Option.elim_none]
  cases hdel : w.store.delete id with
  | ok store =>
      change store.lifecycle? id = none
      rw [Store.lifecycle?, (hs.delete_ok hdel).2.2 id, if_pos rfl]
      rfl
  | error e =>
      -- The id is valid, so it was not found.
      change w.store.lifecycle? id = none
      rw [Store.delete, hvalid, hs.contains_eq] at hdel
      cases hr : w.store.record? id with
      | none => rw [Store.lifecycle?, hr]; rfl
      | some g => simp [hr] at hdel

theorem lifecycle?_deleteSingly {id : HandleId} (hs : w.store.Sound) {ids : List HandleId} (hmem : id ∈ ids)
    (hfault : faults id = none) (hvalid : id.isValid = true) :
    (deleteSingly faults ids w).2.store.lifecycle? id = none := by
  induction ids generalizing w with
  | nil => cases hmem
  | cons other rest ih =>
      have hone := gone_deleteOrFail hs faults other
      rcases List.mem_cons.1 hmem with rfl | hmem
      · have hrest := (gone_deleteSingly hone.sound faults rest).states id
        change (deleteSingly faults rest (w.deleteOrFail faults id).2).2.store.lifecycle? id = none
        rw [hrest, lifecycle?_deleteOrFail hs hfault hvalid, ite_self]
      · exact ih hone.sound hmem

/-- A handle for which there is an error is not deleted. -/
theorem not_mem_doneIds {id : HandleId} {e : StoreError} (hfault : faults id = some e)
    (ids : List HandleId) (w : World) : id ∉ doneIds (deleteSingly faults ids w).1 := by
  induction ids generalizing w with
  | nil => simp [deleteSingly, doneIds]
  | cons other rest ih =>
      have hcons : doneIds (deleteSingly faults (other :: rest) w).1 =
          doneIds [(w.deleteOrFail faults other).1] ++
            doneIds (deleteSingly faults rest (w.deleteOrFail faults other).2).1 :=
        doneIds_append [_] _
      rw [hcons, List.mem_append, not_or]
      refine ⟨?_, ih _⟩
      intro hmem
      rcases List.mem_map.1 hmem with ⟨d, hd, hid⟩
      rcases List.mem_filter.1 hd with ⟨hd, hdone⟩
      obtain rfl := List.mem_singleton.1 hd
      rw [id_deleteOrFail] at hid
      subst hid
      rw [deleteOrFail, hfault] at hdone
      cases hdone

end World

end
end CmInventory
