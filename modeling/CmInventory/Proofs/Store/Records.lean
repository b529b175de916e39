import CmInventory.Proofs.Handle.ReadBack
import CmInventory.Store.Call

/-!
# The records of a store

A store that is written by its own operations holds rows that were made from handles (`Store.Sound`).
Such a store is described by its records: `Store.record? s id` is the handle that is stored under an id.
Every operation on handles has its law in terms of the records, and keeps the store sound.
-/

namespace CmInventory

theorem HandleId.text_inj {a b : HandleId} : a.text = b.text ↔ a = b := by
  cases a
  cases b
  simp

theorem HandleRow.handle_ofHandle (h : Handle) : (HandleRow.ofHandle h).handle = .ok h := by
  have hread := Handle.lossless.decode_render (by decide) h
  rw [HandleRow.handle]
  exact congrArg (Except.mapError StoreError.unreadable) hread

/-- Whether a call can change the rows of handles. -/
def StoreCall.WritesHandles : StoreCall → Prop
  | .insert _ | .save _ | .saveStatus .. | .saveStatusIf .. | .delete _ | .deleteAll _ => True
  | _ => False

namespace Store

variable {s : Store} {id : HandleId}

/-- The handle that is stored under an id. -/
def record? (s : Store) (id : HandleId) : Option Handle :=
  (s.handles.find? id.text).bind fun row => row.handle.toOption

/-- The lifecycle state of the handle that is stored under an id. -/
def lifecycle? (s : Store) (id : HandleId) : Option Lifecycle :=
  (s.record? id).map (·.lifecycle)

/-- Every row was made from a handle with the id under which it stands. -/
def Sound (s : Store) : Prop :=
  ∀ key row, s.handles.find? key = some row →
    ∃ h : Handle, h.id.text = key ∧ row = .ofHandle h

theorem sound_empty : Sound empty := by
  intro key row h
  simp [empty, Dictionary.find?_empty] at h

theorem record?_empty (id : HandleId) : empty.record? id = none := by
  simp [record?, empty, Dictionary.find?_empty]

/-! ## Reading -/

theorem Sound.find?_eq (hs : s.Sound) (id : HandleId) :
    s.handles.find? id.text = (s.record? id).map .ofHandle := by
  cases hrow : s.handles.find? id.text with
  | none => simp [record?, hrow]
  | some row =>
      rcases hs _ _ hrow with ⟨h, -, rfl⟩
      simp [record?, hrow, HandleRow.handle_ofHandle, Except.toOption]

theorem Sound.id_of_record? (hs : s.Sound) {h : Handle} (hr : s.record? id = some h) :
    h.id = id := by
  have hrow := hs.find?_eq id
  rw [hr, Option.map_some] at hrow
  rcases hs _ _ hrow with ⟨h', hid, heq⟩
  -- Rows are equal only if the handles that they were made from are.
  have hsame : h = h' := by
    have := congrArg HandleRow.handle heq
    simpa [HandleRow.handle_ofHandle] using this
  rw [hsame]
  exact HandleId.text_inj.1 hid

theorem Sound.contains_eq (hs : s.Sound) (id : HandleId) :
    s.handles.contains id.text = (s.record? id).isSome := by
  simp [Dictionary.contains, hs.find?_eq id]

theorem Sound.get_eq (hs : s.Sound) (id : HandleId) :
    s.get id = match s.record? id with
      | some h => .ok h
      | none => .error (.notFound id.text) := by
  rw [get, hs.find?_eq id]
  cases s.record? id with
  | none => rfl
  | some h => exact HandleRow.handle_ofHandle h

theorem Sound.get_eq_ok_iff (hs : s.Sound) {id : HandleId} {h : Handle} :
    s.get id = .ok h ↔ s.record? id = some h := by
  rw [hs.get_eq]
  cases s.record? id <;> simp

theorem Sound.status_eq (hs : s.Sound) (id : HandleId) :
    s.status id = match s.record? id with
      | some h => .ok h.status
      | none => .error (.notFound id.text) := by
  rw [status, hs.get_eq id]
  cases s.record? id <;> rfl

theorem Sound.getMany_eq (hs : s.Sound) (ids : List HandleId) :
    s.getMany ids = .ok (ids.filterMap s.record?) := by
  induction ids with
  | nil => rfl
  | cons id rest ih =>
      rw [getMany, hs.get_eq id]
      cases hr : s.record? id with
      | none => simp [hr, ih]
      | some h => simp [hr, ih, Except.map]

/-! ## Writing -/

theorem record?_putHandle (s : Store) (h : Handle) (id : HandleId) :
    (s.putHandle h).record? id = if h.id = id then some h else s.record? id := by
  simp only [record?, putHandle, Dictionary.find?_insert, HandleId.text_inj]
  split
  · simp [HandleRow.handle_ofHandle, Except.toOption]
  · rfl

theorem lifecycle?_putHandle (s : Store) (h : Handle) (id : HandleId) :
    (s.putHandle h).lifecycle? id = if h.id = id then some h.lifecycle else s.lifecycle? id := by
  rw [lifecycle?, record?_putHandle]
  split <;> rfl

theorem Sound.putHandle (hs : s.Sound) (h : Handle) : (s.putHandle h).Sound := by
  intro key row hrow
  simp only [Store.putHandle, Dictionary.find?_insert] at hrow
  split at hrow
  · rename_i hkey
    exact ⟨h, hkey, (Option.some.inj hrow).symm⟩
  · exact hs key row hrow

theorem Sound.status_putHandle (hs : s.Sound) (h : Handle) (id : HandleId) :
    (s.putHandle h).status id = if h.id = id then .ok h.status else s.status id := by
  rw [(hs.putHandle h).status_eq, Store.record?_putHandle, hs.status_eq]
  by_cases hid : h.id = id
  · simp only [if_pos hid]
  · simp only [if_neg hid]

theorem Sound.insert_sound (hs : s.Sound) (handles : List Handle) : (s.insert handles).2.Sound := by
  induction handles generalizing s with
  | nil => exact hs
  | cons h rest ih =>
      rw [insert]
      split
      · exact ih hs
      · exact ih (hs.putHandle h)

/-- A row that is there stays, and otherwise the first handle of the id gets one. -/
theorem row_insert (s : Store) (handles : List Handle) (id : HandleId) :
    (s.insert handles).2.handles.find? id.text =
      (s.handles.find? id.text).or ((handles.find? fun h => h.id = id).map .ofHandle) := by
  induction handles generalizing s with
  | nil => simp [insert]
  | cons h rest ih =>
      rw [insert, Dictionary.contains]
      by_cases hid : h.id = id
      · subst hid
        cases hr : s.handles.find? h.id.text with
        | some row => simp [ih, hr]
        | none => simp [ih, putHandle, Dictionary.find?_insert]
      · have hother : (s.putHandle h).handles.find? id.text = s.handles.find? id.text := by
          simp [putHandle, Dictionary.find?_insert, HandleId.text_inj, hid]
        cases hr : s.handles.find? h.id.text <;> simp [ih, hid, hother]

/-- All handles of an id are named, but for the first of them if there is no row under the id. -/
theorem count_insert (s : Store) (handles : List Handle) (id : HandleId) :
    (s.insert handles).1.count id =
      (handles.map (·.id)).count id - if s.handles.contains id.text then 0 else 1 := by
  induction handles generalizing s with
  | nil => simp [insert]
  | cons h rest ih =>
      rw [insert, List.map_cons]
      by_cases hid : h.id = id
      · subst hid
        cases hr : s.handles.contains h.id.text with
        | true => simp [ih, hr]
        | false => simp [ih, putHandle, Dictionary.contains, Dictionary.find?_insert]
      · have hother : (s.putHandle h).handles.contains id.text = s.handles.contains id.text := by
          simp [putHandle, Dictionary.contains, Dictionary.find?_insert, HandleId.text_inj, hid]
        cases hr : s.handles.contains h.id.text <;> simp [ih, hid, hother]

/-- A handle that is stored stays, and otherwise the first of its id is stored. -/
theorem Sound.record?_insert (hs : s.Sound) (handles : List Handle) (id : HandleId) :
    (s.insert handles).2.record? id = (s.record? id).or (handles.find? fun h => h.id = id) := by
  rw [record?, row_insert, hs.find?_eq]
  cases s.record? id with
  | some g => simp [HandleRow.handle_ofHandle, Except.toOption]
  | none => cases handles.find? fun h => h.id = id <;> simp [HandleRow.handle_ofHandle, Except.toOption]

theorem perform_insert (s : Store) (handles : List Handle) :
    (s.perform (.insert handles)).2 = (s.insert handles).2 := by
  rw [Store.perform]
  split <;> rename_i heq <;> rw [heq]

theorem Sound.save_eq (hs : s.Sound) (h : Handle) :
    s.save h = match s.record? h.id with
      | some _ => .ok (s.putHandle h)
      | none => .error (.notFound h.id.text) := by
  rw [save, hs.contains_eq]
  cases s.record? h.id <;> rfl

theorem Sound.perform_save (hs : s.Sound) {g h : Handle} (hr : s.record? h.id = some g) :
    s.perform (.save h) = (.ok (), s.putHandle h) := by
  rw [Store.perform, hs.save_eq, hr]
  rfl

/-- A status is written if any state will do, or the handle is in the one that is expected. -/
theorem Sound.replaceStatus_of (hs : s.Sound) (id : HandleId) (expected : Option Lifecycle)
    (status : HandleStatus) :
    s.replaceStatus id expected status = match s.record? id with
      | some h =>
          if expected.all (h.lifecycle = ·) then .ok (true, s.putHandle { h with status := status })
          else .ok (false, s)
      | none => .error (.notFound id.text) := by
  rw [replaceStatus, hs.get_eq id]
  cases hr : s.record? id with
  | none => rfl
  | some h =>
      have hstored : s.handles.contains h.id.text = true := by
        rw [hs.contains_eq, hs.id_of_record? hr, hr]
        rfl
      cases expected with
      | none => simp [overwrite, hstored, bind, Except.bind, pure, Except.pure]
      | some state =>
          by_cases hl : h.lifecycle = state
          · simp [hl, overwrite, hstored, bind, Except.bind, pure, Except.pure]
          · simp [hl, bind, Except.bind, pure, Except.pure]

/-- A status is written only while the handle is in the expected state. -/
theorem Sound.replaceStatus_eq (hs : s.Sound) (id : HandleId) (expected : Lifecycle)
    (status : HandleStatus) :
    s.replaceStatus id (some expected) status = match s.record? id with
      | some h =>
          if h.lifecycle = expected then .ok (true, s.putHandle { h with status := status })
          else .ok (false, s)
      | none => .error (.notFound id.text) := by
  rw [hs.replaceStatus_of]
  simp only [Option.all_some, decide_eq_true_eq]

theorem Sound.perform_get (hs : s.Sound) {h : Handle} (hr : s.record? id = some h) :
    s.perform (.get id) = (.ok h, s) := by
  rw [Store.perform, hs.get_eq, hr]

theorem Sound.perform_status (hs : s.Sound) {h : Handle} (hr : s.record? id = some h) :
    s.perform (.status id) = (.ok h.status, s) := by
  rw [Store.perform, hs.status_eq, hr]

theorem Sound.perform_saveStatusIf (hs : s.Sound) {h : Handle} (hr : s.record? id = some h)
    {expected : Lifecycle} (hl : h.lifecycle = expected) (status : HandleStatus) :
    s.perform (.saveStatusIf id expected status) =
      (.ok true, s.putHandle { h with status := status }) := by
  rw [Store.perform, hs.replaceStatus_eq, hr]
  simp only [hl, if_true]

/-- A conditional write replaces the status of a record in the expected state, or changes nothing. -/
theorem Sound.saveStatusIf_cases (hs : s.Sound) {expected : Lifecycle} {status : HandleStatus}
    {reply : Except StoreError Bool} {s' : Store}
    (h : (reply, s') = s.perform (.saveStatusIf id expected status)) :
    (∃ g, s.record? id = some g ∧ g.lifecycle = expected ∧ reply = .ok true ∧
        s' = s.putHandle { g with status := status }) ∨
      (reply ≠ .ok true ∧ s' = s) := by
  rw [Store.perform, hs.replaceStatus_eq] at h
  cases hr : s.record? id with
  | none =>
      rw [hr] at h
      rcases Prod.mk.inj h with ⟨rfl, rfl⟩
      exact Or.inr ⟨by simp, rfl⟩
  | some g =>
      rw [hr] at h
      by_cases hlife : g.lifecycle = expected
      · simp only [if_pos hlife] at h
        rcases Prod.mk.inj h with ⟨rfl, rfl⟩
        exact Or.inl ⟨g, rfl, hlife, rfl, rfl⟩
      · simp only [if_neg hlife] at h
        rcases Prod.mk.inj h with ⟨rfl, rfl⟩
        exact Or.inr ⟨by simp, rfl⟩

/-- A conditional write to another record, or one that is not done, leaves a record as it is. -/
theorem Sound.record?_of_saveStatusIf (hs : s.Sound) {i : HandleId} {expected : Lifecycle}
    {status : HandleStatus} {reply : Except StoreError Bool} {s' : Store}
    (h : (reply, s') = s.perform (.saveStatusIf i expected status)) (hother : i = id → reply ≠ .ok true) :
    s'.record? id = s.record? id := by
  rcases hs.saveStatusIf_cases h with ⟨g, hg, -, hdone, hstore⟩ | ⟨-, hstore⟩
  · have hne : ¬ g.id = id := fun hid => hother ((hs.id_of_record? hg).symm.trans hid) hdone
    rw [hstore, record?_putHandle, if_neg hne]
  · rw [hstore]

theorem Sound.status_replaced (hs : s.Sound) {g : Handle} (hr : s.record? id = some g)
    (status : HandleStatus) (other : HandleId) :
    (s.putHandle { g with status := status }).status other =
      if id = other then .ok status else s.status other := by
  have hid := hs.id_of_record? hr
  subst hid
  exact hs.status_putHandle { g with status := status } other

theorem record?_erase (s : Store) (id other : HandleId) :
    ({ s with
        handles := s.handles.erase id.text
        data := s.data.erase id.text
        modules := s.modules.erase id.text } : Store).record? other =
      if id = other then none else s.record? other := by
  simp only [record?, Dictionary.find?_erase, HandleId.text_inj]
  split <;> rfl

theorem Sound.delete_ok (hs : s.Sound) {s' : Store} (h : s.delete id = .ok s') :
    s'.Sound ∧ (s.record? id).isSome ∧
      ∀ other, s'.record? other = if id = other then none else s.record? other := by
  rw [delete, hs.contains_eq] at h
  split at h
  · cases h
  split at h
  · rename_i hstored
    cases h
    refine ⟨?_, hstored, record?_erase s id⟩
    intro key row hrow
    simp only [Dictionary.find?_erase] at hrow
    split at hrow
    · cases hrow
    · exact hs key row hrow
  · cases h

theorem Sound.perform_delete (hs : s.Sound) {h : Handle} (hvalid : id.isValid = true)
    (hr : s.record? id = some h) :
    s.perform (.delete id) =
      (.ok (), { s with
        handles := s.handles.erase id.text
        data := s.data.erase id.text
        modules := s.modules.erase id.text }) := by
  rw [Store.perform, delete, hvalid, hs.contains_eq, hr]
  rfl

/-- A batch that is deleted held different ids of stored handles. -/
theorem Sound.deleteAll_ok (hs : s.Sound) {ids : List HandleId} {s' : Store}
    (h : s.deleteAll ids = .ok s') :
    s'.Sound ∧ ids.Nodup ∧ (∀ id ∈ ids, (s.record? id).isSome) ∧
      ∀ other, s'.record? other = if other ∈ ids then none else s.record? other := by
  induction ids generalizing s with
  | nil =>
      cases h
      exact ⟨hs, List.nodup_nil, by simp, by simp⟩
  | cons id rest ih =>
      rw [deleteAll] at h
      cases hdel : s.delete id with
      | error e => simp [hdel, bind, Except.bind] at h
      | ok s₁ =>
          rw [hdel] at h
          rcases hs.delete_ok hdel with ⟨hs₁, hstored, hrec⟩
          rcases ih hs₁ h with ⟨hs', hnodup, hall, hrest⟩
          -- After it was deleted an id could not have been deleted once more.
          have hnot : id ∉ rest := by
            intro hmem
            have := hall id hmem
            simp [hrec id] at this
          refine ⟨hs', List.nodup_cons.2 ⟨hnot, hnodup⟩, ?_, ?_⟩
          · intro other hmem
            rcases List.mem_cons.1 hmem with rfl | hmem
            · exact hstored
            · have hkept := hall other hmem
              rw [hrec other] at hkept
              split at hkept
              · cases hkept
              · exact hkept
          · intro other
            rw [hrest other, hrec other]
            by_cases ho : other ∈ rest
            · simp [ho]
            · by_cases he : id = other
              · simp [he]
              · have he' : ¬ other = id := fun h => he h.symm
                simp [ho, he, he']

/-- A call that has nothing to do with the rows of handles leaves the records as they are. -/
theorem record?_perform {call : StoreCall} (hc : ¬ call.WritesHandles) (s : Store) (id : HandleId) :
    (s.perform call).2.record? id = s.record? id := by
  cases call <;> first | rfl | exact absurd trivial hc

/-- Whatever a store is asked for, it stays sound. -/
theorem Sound.perform (hs : s.Sound) (call : StoreCall) : (s.perform call).2.Sound := by
  have hoverwrite : ∀ h, (s.overwrite h).Sound := by
    intro h
    rw [overwrite]
    split
    · exact hs.putHandle h
    · exact hs
  cases call with
  | insert handles =>
      have hinsert := hs.insert_sound handles
      rw [Store.perform]
      split <;> rename_i heq <;> rwa [heq] at hinsert
  | save h =>
      rw [Store.perform, hs.save_eq]
      cases s.record? h.id with
      | none => exact hs
      | some g => exact hs.putHandle h
  | saveStatus id status =>
      rw [Store.perform, replaceStatus]
      cases s.get id with
      | error e => exact hs
      | ok h => exact hoverwrite _
  | saveStatusIf id expected status =>
      rw [Store.perform, hs.replaceStatus_eq]
      cases s.record? id with
      | none => exact hs
      | some h =>
          by_cases hl : h.lifecycle = expected
          · simp only [if_pos hl]
            exact hs.putHandle _
          · simp only [if_neg hl]
            exact hs
  | delete id =>
      rw [Store.perform]
      cases hdel : s.delete id with
      | error e => exact hs
      | ok s' => exact (hs.delete_ok hdel).1
  | deleteAll ids =>
      rw [Store.perform]
      cases hdel : s.deleteAll ids with
      | error e => exact hs
      | ok s' => exact (hs.deleteAll_ok hdel).1
  | _ => exact hs

end Store
end CmInventory
