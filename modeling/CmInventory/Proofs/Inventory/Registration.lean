import CmInventory.Inventory.Registrar
import CmInventory.Proofs.Inventory.Announced
import Mathlib.Data.List.Nodup

/-!
# Registrations keep events and records in agreement

Creations, updates and removals, each done alone from a consistent world, end in a consistent world
(`ensures_create`, `ensures_update`, `ensures_remove`, `ensures_process`).

Between their first and their last request the world is not consistent. New handles are stored before any
of them is announced (`ensures_registers` says what is stored and what is announced then). Handles are
deleted before any of them is announced as deleted: `Gone` says which records a list of deletions took
away, each of them once, and the announcements that follow are for exactly these.
-/

namespace CmInventory

theorem HandleId.eq_of_parse {text : String} {id : HandleId} (h : parse text = .ok id) : id = ⟨text⟩ := by
  rw [parse] at h
  split at h
  · cases h
  split at h <;> cases h
  rfl

/-- A record differs from an earlier one in its properties at most. -/
def Handle.SameButProperties (g h : Handle) : Prop :=
  h = { g with dmiProperties := h.dmiProperties, publicProperties := h.publicProperties }

namespace Handle.SameButProperties

variable {g h k : Handle}

theorem trans (h₁ : g.SameButProperties h) (h₂ : h.SameButProperties k) : g.SameButProperties k := by
  rw [SameButProperties] at *
  rw [h₂, h₁]

theorem id (hsame : g.SameButProperties h) : h.id = g.id := by
  rw [SameButProperties] at hsame
  rw [hsame]

theorem lifecycle (hsame : g.SameButProperties h) : h.lifecycle = g.lifecycle := by
  rw [SameButProperties] at hsame
  rw [hsame]
  rfl

end Handle.SameButProperties

namespace Inventory

variable {w : World}

/-! ## Creation -/

/-- The candidates that are admitted are advised and have different ids. -/
theorem ensures_screen {endpoints : Endpoints} {seen : List HandleId}
    {requested : List RequestedHandle} :
    (screen endpoints seen requested).Ensures .alone
      (fun candidates w' => w.Same w' ∧ ((admittedHandles candidates).map (·.id)).Nodup ∧
        ∀ h ∈ admittedHandles candidates, h.id ∉ seen ∧ h.lifecycle = .advised) w := by
  -- Generalized over the worlds that the clock was read in.
  suffices hgen : ∀ v : World, w.Same v → (screen endpoints seen requested).Ensures .alone
      (fun candidates w' => w.Same w' ∧ ((admittedHandles candidates).map (·.id)).Nodup ∧
        ∀ h ∈ admittedHandles candidates, h.id ∉ seen ∧ h.lifecycle = .advised) v from
    hgen w (.refl w)
  induction requested generalizing seen with
  | nil =>
      intro v hv
      exact ⟨hv, List.nodup_nil, by simp [admittedHandles]⟩
  | cons r rest ih =>
      intro v hv
      rw [screen]
      cases HandleId.parse r.id with
      | error flaw => exact (ih v hv).bind fun more v' hmore => hmore
      | ok id =>
          dsimp only
          split
          · exact (ih v hv).bind fun more v' hmore => hmore
          · rename_i hnew
            rw [Program.ensures_bind]
            refine ensures_quiet trivial ?_
            intro now v₁ h₁
            refine (ih v₁ (hv.trans h₁)).bind ?_
            intro more v₂ hmore
            rcases hmore with ⟨hsame, hnodup, hall⟩
            refine ⟨hsame, ?_, ?_⟩
            · refine List.nodup_cons.2 ⟨?_, hnodup⟩
              intro hmem
              rcases List.mem_map.1 hmem with ⟨h, hh, hid⟩
              exact (hall h hh).1 (by rw [hid]; exact List.mem_cons_self)
            · intro h hmem
              rcases List.mem_cons.1 hmem with rfl | hmem
              · have hout : id ∉ seen := by simpa using hnew
                exact ⟨hout, rfl⟩
              · rcases hall h hmem with ⟨hout, hadv⟩
                exact ⟨fun hin => hout (List.mem_cons_of_mem _ hin), hadv⟩

/-- A handle as it is accepted at some time. -/
def accepted (h : Handle) (now : Instant) : Handle :=
  { h with status := { h.status with lockReason := none, updatedAt := now } }

/-- The handles of a batch that are advised. -/
def advisedOf (handles : List Handle) : List Handle :=
  handles.filter fun h => h.lifecycle = .advised

/-- The failures of the handles of a batch that are not advised. -/
def rejections (handles : List Handle) : List (HandleId × InventoryError) :=
  (handles.filter fun h => !decide (h.lifecycle = .advised)).map fun h =>
    (h.id, .illegalTransition h.id h.lifecycle .advised)

/-- The advised handles of a batch, each accepted at some time. -/
def Accepts (handles admitted : List Handle) : Prop :=
  List.Forall₂ (fun h a => ∃ now, a = accepted h now) (advisedOf handles) admitted

theorem Accepts.map_id {handles admitted : List Handle} (h : Accepts handles admitted) :
    admitted.map (·.id) = (advisedOf handles).map (·.id) := by
  unfold Accepts at h
  generalize advisedOf handles = advised at h ⊢
  induction h with
  | nil => rfl
  | cons haccepted _ ih =>
      rcases haccepted with ⟨now, rfl⟩
      rw [List.map_cons, List.map_cons, ih]
      rfl

/-- What was accepted is the handle of some time. -/
theorem Accepts.exists_of_mem {handles admitted : List Handle} {a : Handle}
    (h : Accepts handles admitted) (ha : a ∈ admitted) :
    ∃ g ∈ handles, g.lifecycle = .advised ∧ ∃ now, a = accepted g now := by
  rcases List.mem_iff_getElem.1 ha with ⟨i, hi, rfl⟩
  have hlength : i < (advisedOf handles).length := by rwa [h.length_eq]
  have hmem := List.getElem_mem hlength
  rcases List.mem_filter.1 hmem with ⟨hg, hadv⟩
  exact ⟨_, hg, of_decide_eq_true hadv, h.get hlength hi⟩

/-- The advised handles are accepted, and the others fail. -/
theorem ensures_accepted {handles : List Handle} :
    (accept handles).Ensures .alone
      (fun result w' => w.Same w' ∧ Accepts handles result.1 ∧ result.2 = rejections handles) w := by
  suffices hgen : ∀ v : World, w.Same v → (accept handles).Ensures .alone
      (fun result w' => w.Same w' ∧ Accepts handles result.1 ∧ result.2 = rejections handles) v from
    hgen w (.refl w)
  induction handles with
  | nil =>
      intro v hv
      exact ⟨hv, .nil, rfl⟩
  | cons h rest ih =>
      intro v hv
      rw [accept]
      split
      · rename_i hadv
        rw [Program.ensures_bind]
        refine ensures_quiet trivial ?_
        intro now v₁ h₁
        refine (ih v₁ (hv.trans h₁)).bind ?_
        rintro result v₂ ⟨hsame, hadmitted, hrejected⟩
        refine ⟨hsame, ?_, ?_⟩
        · rw [Accepts, advisedOf, List.filter_cons_of_pos (by simpa using hadv)]
          exact .cons ⟨now, rfl⟩ hadmitted
        · rw [rejections, List.filter_cons_of_neg (by simpa using hadv)]
          exact hrejected
      · rename_i hadv
        refine (ih v hv).bind ?_
        rintro result v₁ ⟨hsame, hadmitted, hrejected⟩
        refine ⟨hsame, ?_, ?_⟩
        · rw [Accepts, advisedOf, List.filter_cons_of_neg (by simpa using hadv)]
          exact hadmitted
        · rw [rejections, List.filter_cons_of_pos (by simpa using hadv), List.map_cons]
          exact congrArg _ hrejected

/-- What is accepted is advised without a reason of a lock, and its ids are among those of the batch. -/
theorem ensures_accept {handles : List Handle} :
    (accept handles).Ensures .alone
      (fun result w' => w.Same w' ∧
        (result.1.map (·.id)).Sublist (handles.map (·.id)) ∧
        ∀ h ∈ result.1, h.lifecycle = .advised ∧ h.status.lockReason = none) w := by
  refine ensures_accepted.mono ?_
  rintro result w' ⟨hsame, haccepts, -⟩
  refine ⟨hsame, ?_, ?_⟩
  · rw [haccepts.map_id]
    exact List.filter_sublist.map _
  · intro a ha
    rcases haccepts.exists_of_mem ha with ⟨g, -, hadv, now, rfl⟩
    exact ⟨hadv, rfl⟩

/-- The ids of the handles that are not among those stored before. -/
def newIds (present : List HandleId) (handles : List Handle) : List HandleId :=
  (handles.map (·.id)).filter fun id => !present.contains id

/-- What is reported of handles of which the store named some ids. -/
def reportNew (present : List HandleId) (handles : List Handle) : BatchResult :=
  ⟨newIds present handles, [],
    ((handles.map (·.id)).filter fun id => present.contains id).map fun id => (id, .alreadyExists id)⟩

section

variable {present : List HandleId} {h : Handle} {rest : List Handle}

theorem newIds_cons_present (hpresent : h.id ∈ present) :
    newIds present (h :: rest) = newIds present rest := by
  simp [newIds, hpresent]

theorem newIds_cons_new (hnew : h.id ∉ present) :
    newIds present (h :: rest) = h.id :: newIds present rest := by
  simp [newIds, hnew]

theorem reportNew_cons_present (hpresent : h.id ∈ present) : reportNew present (h :: rest) =
    .append ⟨[], [], [(h.id, .alreadyExists h.id)]⟩ (reportNew present rest) := by
  simp [reportNew, newIds_cons_present hpresent, hpresent, BatchResult.append]

theorem reportNew_cons_new (hnew : h.id ∉ present) : reportNew present (h :: rest) =
    .append ⟨[h.id], [], []⟩ (reportNew present rest) := by
  simp [reportNew, newIds_cons_new hnew, hnew, BatchResult.append]

end

/-- The handles whose ids the store did not name are announced. -/
theorem ensures_announceNew {topic : String} {present : List HandleId} {handles : List Handle} :
    (announceNew topic present handles).Ensures .alone
      (fun result w' => w'.store = w.store ∧ result = reportNew present handles ∧
        w.Announces topic ((newIds present handles).map .birth) w') w := by
  induction handles generalizing w with
  | nil => exact ⟨rfl, rfl, World.announces_nil rfl⟩
  | cons h rest ih =>
      rw [announceNew]
      split
      · rename_i hpresent
        -- A handle that was stored before is not announced.
        have hpresent : h.id ∈ present := List.contains_iff_mem.1 hpresent
        refine ih.bind ?_
        rintro more w' ⟨hstore, rfl, hannounced⟩
        rw [newIds_cons_present hpresent, reportNew_cons_present hpresent]
        exact ⟨hstore, rfl, hannounced⟩
      · rename_i hnew
        have hnew : h.id ∉ present := fun hmem => hnew (List.contains_iff_mem.2 hmem)
        rw [Program.ensures_bind]
        refine ensures_announced.mono ?_
        rintro _ w₁ ⟨hstore₁, eventId, timestamp, hpublished⟩
        refine ih.bind ?_
        rintro more w₂ ⟨hstore₂, rfl, hannounced⟩
        rw [newIds_cons_new hnew, reportNew_cons_new hnew]
        exact ⟨hstore₂.trans hstore₁, rfl, (World.announces_one hpublished).trans hannounced⟩

/-- What a registration comes to. The accepted handles are given to the store, and those whose ids it does
not name are announced. -/
def Registers (topic : String) (handles : List Handle) (w : World) (result : BatchResult) (w' : World) :
    Prop :=
  ∃ admitted, Accepts handles admitted ∧ w'.store = (w.store.insert admitted).2 ∧
    result = BatchResult.append ⟨[], [], rejections handles⟩
      (reportNew (w.store.insert admitted).1 admitted) ∧
    w.Announces topic ((newIds (w.store.insert admitted).1 admitted).map .birth) w'

theorem Registers.of_same {topic : String} {handles : List Handle} {result : BatchResult} {w₁ w' : World}
    (h : Registers topic handles w₁ result w') (hsame : w.Same w₁) :
    Registers topic handles w result w' := by
  rcases h with ⟨admitted, haccepts, hstore, hresult, events, hevents, hmade⟩
  rw [hsame.store] at hstore hresult hmade
  rw [hsame.published] at hevents
  exact ⟨admitted, haccepts, hstore, hresult, events, hevents, hmade⟩

theorem ensures_registers {topic : String} {handles : List Handle} :
    (register topic handles).Ensures .alone (Registers topic handles w) w := by
  rw [register]
  refine ensures_accepted.bind ?_
  rintro ⟨admitted, _⟩ w₁ ⟨hsame, haccepts, rfl⟩
  -- Whether some of the ids were stored before or not, the others are announced.
  have hannounce : ∀ w₂ : World, w₂.published = w₁.published →
      w₂.store = (w₁.store.insert admitted).2 →
      (announceNew topic (w₁.store.insert admitted).1 admitted).Ensures .alone
        (fun more w' => Registers topic handles w (.append ⟨[], [], rejections handles⟩ more) w') w₂ := by
    intro w₂ hpub hstore
    refine ensures_announceNew.mono ?_
    rintro more w₃ ⟨hstore₃, rfl, events, hevents, hmade⟩
    rw [hpub, hsame.published] at hevents
    rw [hsame.store] at hstore hmade ⊢
    exact ⟨admitted, haccepts, hstore₃.trans hstore, rfl, events, hevents, hmade⟩
  rw [Program.ensures_bind]
  refine ensures_call (fun hdel => hdel) ?_
  intro reply w₂ hpub hperform
  rw [Store.perform] at hperform
  have hann := hannounce w₂ hpub
  cases hins : w₁.store.insert admitted with
  | mk present store =>
      rw [hins] at hperform hann
      cases present with
      | nil =>
          rcases Prod.mk.inj hperform with ⟨rfl, hstore⟩
          exact (hann hstore).bind fun _ w₃ hw₃ => hw₃
      | cons id rest =>
          rcases Prod.mk.inj hperform with ⟨rfl, hstore⟩
          exact (hann hstore).bind fun _ w₃ hw₃ => hw₃

/-- Not named by the store are the ids that it did not have and that occur once. -/
theorem mem_newIds {s : Store} {handles : List Handle} {id : HandleId} :
    id ∈ newIds (s.insert handles).1 handles ↔
      s.handles.contains id.text = false ∧ (handles.map (·.id)).count id = 1 := by
  have hcount := s.count_insert handles id
  have hmem : id ∈ newIds (s.insert handles).1 handles ↔
      0 < (handles.map (·.id)).count id ∧ (s.insert handles).1.count id = 0 := by
    rw [newIds, List.mem_filter, List.count_pos_iff, List.count_eq_zero]
    simp
  rw [hmem, hcount]
  cases s.handles.contains id.text with
  | true =>
      simp only [if_true, Bool.true_eq_false, false_and, iff_false]
      omega
  | false =>
      simp only [Bool.false_eq_true, if_false, true_and]
      omega

theorem nodup_newIds {s : Store} {handles : List Handle} :
    (newIds (s.insert handles).1 handles).Nodup := by
  refine List.nodup_iff_count_le_one.2 fun id => ?_
  by_cases hmem : id ∈ newIds (s.insert handles).1 handles
  · rw [← (mem_newIds.1 hmem).2]
    exact List.filter_sublist.count_le id
  · rw [List.count_eq_zero.2 hmem]
    exact Nat.zero_le 1

/-- New in a batch with different ids are those that were not stored before. -/
theorem mem_newIds_insert {s : Store} (hs : s.Sound) {handles : List Handle}
    (hd : (handles.map (·.id)).Nodup) {id : HandleId} :
    id ∈ newIds (s.insert handles).1 handles ↔ id ∈ handles.map (·.id) ∧ s.record? id = none := by
  rw [mem_newIds, hs.contains_eq, Option.isSome_eq_false_iff, Option.isNone_iff_eq_none, and_comm]
  refine and_congr_left fun _ => ⟨fun hone => ?_, List.count_eq_one_of_mem hd⟩
  exact List.count_pos_iff.1 (by omega)

/-- The handles of a batch with different ids that are stored are those that are new. -/
theorem lifecycle?_insert {s : Store} (hs : s.Sound) {handles : List Handle}
    (hd : (handles.map (·.id)).Nodup) (hadv : ∀ h ∈ handles, h.lifecycle = .advised)
    (id : HandleId) :
    (s.insert handles).2.lifecycle? id =
      if id ∈ newIds (s.insert handles).1 handles then some .advised else s.lifecycle? id := by
  simp only [mem_newIds_insert hs hd, Store.lifecycle?, hs.record?_insert]
  cases hr : s.record? id with
  | some g => simp
  | none =>
      cases hf : handles.find? fun h => decide (h.id = id) with
      | none =>
          have hout : ¬ ∃ h ∈ handles, h.id = id := by
            rintro ⟨h, hh, hid⟩
            simpa [hid] using List.find?_eq_none.1 hf h hh
          simp [hout]
      | some g =>
          have hg : g ∈ handles := List.mem_of_find?_eq_some hf
          have hid : g.id = id := by simpa using List.find?_some hf
          have hin : ∃ h ∈ handles, h.id = id := ⟨g, hg, hid⟩
          simp [hin, hadv g hg]

theorem ensures_register {topic : String} {handles : List Handle} (hw : w.Consistent)
    (hd : (handles.map (·.id)).Nodup) :
    (register topic handles).Ensures .alone (fun _ w' => w'.Consistent) w := by
  refine ensures_registers.mono ?_
  rintro result w' ⟨admitted, haccepts, hstore, -, hannounced⟩
  have hnodup : (admitted.map (·.id)).Nodup := by
    rw [haccepts.map_id]
    exact hd.sublist (List.filter_sublist.map _)
  have hadv : ∀ h ∈ admitted, h.lifecycle = .advised := by
    intro a ha
    rcases haccepts.exists_of_mem ha with ⟨g, -, hadv, now, rfl⟩
    exact hadv
  have htold := hw.tells.births (hnodup.filter _) ?_ hannounced
  · refine ⟨by rw [hstore]; exact hw.sound.insert_sound admitted, ?_⟩
    intro id
    rw [hstore, lifecycle?_insert hw.sound hnodup hadv]
    exact htold id
  · intro id hid
    rw [Store.lifecycle?, ((mem_newIds_insert hw.sound hnodup).1 hid).2, Option.map_none]

theorem ensures_create {topic : String} {endpoints : Endpoints} {requested : List RequestedHandle}
    (hw : w.Consistent) :
    (create topic endpoints requested).run.Ensures .alone (fun _ w' => w'.Consistent) w := by
  rw [create]
  cases endpoints.flaw? with
  | some flaw => exact hw
  | none =>
      rw [Action.run_lift, Program.ensures_bind]
      refine (ensures_screen).bind ?_
      intro candidates w₁ hscreen
      rcases hscreen with ⟨hsame, hnodup, -⟩
      refine (ensures_register (hw.of_same hsame) hnodup).bind ?_
      intro result w₂ hw₂
      exact hw₂

/-! ## Updates -/

/-- What an update comes to: it answers for its handle, and writes nothing or other properties of the record. -/
structure UpdatesOne (r : RequestedHandle) (w : World) (response : HandleResponse) (w' : World) : Prop where
  id : response.id = ⟨r.id⟩
  published : w'.published = w.published
  store : w'.store = w.store ∨ ∃ g h, w.store.record? ⟨r.id⟩ = some g ∧ g.SameButProperties h ∧
    w'.store = w.store.putHandle h

theorem UpdatesOne.of_same {r : RequestedHandle} {response : HandleResponse} {w' : World}
    (hid : response.id = ⟨r.id⟩) (h : w.Same w') : UpdatesOne r w response w' :=
  ⟨hid, h.published, Or.inl h.store⟩

theorem ensures_updatesOne {r : RequestedHandle} (hs : w.store.Sound) :
    (updateOne r).Ensures .alone (UpdatesOne r w) w := by
  rw [updateOne]
  cases hparse : HandleId.parse r.id with
  | error flaw => exact .of_same rfl (.refl w)
  | ok id =>
      obtain rfl := HandleId.eq_of_parse hparse
      dsimp only
      rw [Program.ensures_bind]
      refine ensures_read (fun hdel => hdel) rfl ?_
      intro w₁ h₁
      have hget : (w.store.perform (.get ⟨r.id⟩)).1 = w.store.get ⟨r.id⟩ := rfl
      rw [hget, hs.get_eq]
      cases hr : w.store.record? ⟨r.id⟩ with
      | none => exact .of_same rfl h₁
      | some g =>
          have hid : g.id = ⟨r.id⟩ := hs.id_of_record? hr
          dsimp only
          rw [Program.ensures_bind]
          refine ensures_call (fun hdel => hdel) ?_
          intro reply w₂ hpub hperform
          -- The record that is written is the one that was read, so there is one to write to.
          have hr₁ : w.store.record? g.id = some g := hid ▸ hr
          rw [h₁.store] at hperform
          rcases Prod.mk.inj (hperform.trans (hs.perform_save hr₁)) with ⟨rfl, hstore⟩
          refine ⟨rfl, hpub.trans h₁.published, Or.inr ⟨g, _, hr, ?_, hstore⟩⟩
          exact rfl

/-- An update writes the record with the status that it read, which is still the stored one. -/
theorem ensures_updateOne {r : RequestedHandle} (hw : w.Consistent) :
    (updateOne r).Ensures .alone (fun _ w' => w'.Consistent) w := by
  refine (ensures_updatesOne hw.sound).mono ?_
  rintro response w' ⟨-, hpub, hstore | ⟨g, h, hr, hsame, hstore⟩⟩
  · exact hw.of_same ⟨hstore, hpub⟩
  · have hid : h.id = ⟨r.id⟩ := hsame.id.trans (hw.sound.id_of_record? hr)
    exact hw.of_putHandle hpub hstore (hid ▸ hr) hsame.lifecycle

theorem ensures_update {requested : List RequestedHandle} (hw : w.Consistent) :
    (update requested).Ensures .alone (fun _ w' => w'.Consistent) w :=
  Program.ensures_mapM (I := fun _ _ => World.Consistent)
    (fun _ _ _ _ h => ensures_updateOne h) hw

/-! ## Deletions -/

/-- The records of the given handles were taken away, and nothing else changed in the records. -/
structure Gone (done : List HandleId) (w w' : World) : Prop where
  published : w'.published = w.published
  sound : w'.store.Sound
  nodup : done.Nodup
  stored : ∀ id ∈ done, w.store.lifecycle? id ≠ none
  states : ∀ id, w'.store.lifecycle? id = if id ∈ done then none else w.store.lifecycle? id

theorem Gone.refl (hs : w.store.Sound) : Gone [] w w :=
  ⟨rfl, hs, List.nodup_nil, by simp, by simp⟩

theorem Gone.of_same {w' : World} (hs : w.store.Sound) (h : w.Same w') : Gone [] w w' :=
  ⟨h.published, by rw [h.store]; exact hs, List.nodup_nil, by simp, by simp [h.store]⟩

/-- What is gone cannot be taken away again. -/
theorem Gone.trans {done more : List HandleId} {u v w : World} (h₁ : Gone done u v)
    (h₂ : Gone more v w) : Gone (done ++ more) u w := by
  have hlater : ∀ id ∈ more, id ∉ done ∧ u.store.lifecycle? id ≠ none := by
    intro id hmem
    have hstored := h₂.stored id hmem
    rw [h₁.states id] at hstored
    by_cases hid : id ∈ done
    · simp [hid] at hstored
    · exact ⟨hid, by simpa [hid] using hstored⟩
  refine ⟨h₂.published.trans h₁.published, h₂.sound, ?_, ?_, ?_⟩
  · refine List.nodup_append.2 ⟨h₁.nodup, h₂.nodup, ?_⟩
    rintro id hid other hother rfl
    exact (hlater id hother).1 hid
  · intro id hmem
    rcases List.mem_append.1 hmem with hid | hid
    · exact h₁.stored id hid
    · exact (hlater id hid).2
  · intro id
    rw [h₂.states id, h₁.states id]
    by_cases hm : id ∈ more
    · simp [hm]
    · by_cases hd : id ∈ done <;> simp [hm, hd]

/-- The ids of the handles that were deleted. -/
def doneIds (deletions : List Deletion) : List HandleId :=
  (deletions.filter Deletion.isDone).map (·.id)

theorem doneIds_append (ds more : List Deletion) :
    doneIds (ds ++ more) = doneIds ds ++ doneIds more := by
  simp [doneIds]

theorem doneIds_done (ids : List HandleId) : doneIds (ids.map (Deletion.mk · (.ok ()))) = ids := by
  have hall : ∀ d ∈ ids.map (Deletion.mk · (.ok ())), d.isDone = true := by
    intro d hd
    rcases List.mem_map.1 hd with ⟨id, -, rfl⟩
    rfl
  rw [doneIds, List.filter_eq_self.2 hall, List.map_map]
  exact List.map_id _

/-- What a list of deletions did, and that it was asked for. -/
structure Deleted (ids : List HandleId) (w : World) (deletions : List Deletion) (w' : World) :
    Prop where
  gone : Gone (doneIds deletions) w w'
  asked : ∀ d ∈ deletions, d.id ∈ ids

theorem Deleted.trans {ids more : List HandleId} {ds es : List Deletion} {u v w : World}
    (h₁ : Deleted ids u ds v) (h₂ : Deleted more v es w) :
    Deleted (ids ++ more) u (ds ++ es) w := by
  refine ⟨?_, ?_⟩
  · rw [doneIds_append]
    exact h₁.gone.trans h₂.gone
  · intro d hmem
    rcases List.mem_append.1 hmem with hd | hd
    · exact List.mem_append_left _ (h₁.asked d hd)
    · exact List.mem_append_right _ (h₂.asked d hd)

theorem ensures_clearMarkers {id : HandleId} :
    (clearMarkers id).Ensures .alone (fun _ w' => w.Same w') w := by
  rw [clearMarkers, Program.ensures_bind]
  refine ensures_quiet trivial ?_
  intro _ w₁ h₁
  exact ensures_quiet trivial fun _ w₂ h₂ => h₁.trans h₂

theorem ensures_deleted {id : HandleId} :
    (deleted id).Ensures .alone (fun d w' => d = ⟨id, .ok ()⟩ ∧ w.Same w') w :=
  ensures_clearMarkers.bind fun _ _ h => ⟨rfl, h⟩

theorem gone_of_deleteAll {ids : List HandleId} {w' : World} {s : Store} (hs : w.store.Sound)
    (h : w.store.deleteAll ids = .ok s) (hstore : w'.store = s)
    (hpub : w'.published = w.published) : Gone ids w w' := by
  subst hstore
  rcases hs.deleteAll_ok h with ⟨hsound, hnodup, hstored, hrecords⟩
  refine ⟨hpub, hsound, hnodup, ?_, ?_⟩
  · intro id hmem
    have hsome := Option.isSome_iff_ne_none.1 (hstored id hmem)
    simpa [Store.lifecycle?] using hsome
  · intro id
    rw [Store.lifecycle?, hrecords id]
    split <;> rfl

theorem deleteAll_singleton (s : Store) (id : HandleId) : s.deleteAll [id] = s.delete id := by
  rw [Store.deleteAll]
  cases s.delete id <;> rfl

theorem ensures_deleteOne {id : HandleId} (hs : w.store.Sound) :
    (deleteOne id).Ensures .alone (Deleted [id] w [·]) w := by
  rw [deleteOne, Program.ensures_bind]
  refine ensures_deletion ?_ ?_
  · intro e w' hsame
    exact ⟨.of_same hs hsame, by simp⟩
  · intro reply w₁ hpub hperform
    rw [Store.perform] at hperform
    cases hdel : w.store.delete id with
    | error e =>
        rw [hdel] at hperform
        rcases Prod.mk.inj hperform with ⟨rfl, hstore⟩
        exact ⟨.of_same hs ⟨hstore, hpub⟩, by simp⟩
    | ok s =>
        rw [hdel] at hperform
        rcases Prod.mk.inj hperform with ⟨rfl, hstore⟩
        have hgone : Gone [id] w w₁ := by
          refine gone_of_deleteAll hs ?_ hstore hpub
          rw [deleteAll_singleton, hdel]
        refine ensures_deleted.mono ?_
        rintro d w₂ ⟨rfl, hsame⟩
        exact ⟨hgone.trans (.of_same hgone.sound hsame), by simp⟩

theorem ensures_deleteChunk {ids : List HandleId} (hs : w.store.Sound) :
    (deleteChunk ids).Ensures .alone (Deleted ids w) w := by
  -- A batch that is not deleted as a whole is deleted one by one, from the store as it was.
  have hsingly : ∀ w₁ : World, w.Same w₁ →
      (ids.mapM deleteOne).Ensures .alone (Deleted ids w) w₁ := by
    intro w₁ hsame
    refine Program.ensures_mapM (I := fun ids ds => Deleted ids w ds) ?_
      ⟨.of_same hs hsame, by simp⟩
    intro ids ds v id hds
    exact (ensures_deleteOne hds.gone.sound).mono fun d v' hd => hds.trans hd
  rw [deleteChunk, Program.ensures_bind]
  refine ensures_deletion ?_ ?_
  · intro e w₁ hsame
    exact hsingly w₁ hsame
  · intro reply w₁ hpub hperform
    rw [Store.perform] at hperform
    cases hdel : w.store.deleteAll ids with
    | error e =>
        rw [hdel] at hperform
        rcases Prod.mk.inj hperform with ⟨rfl, hstore⟩
        exact hsingly w₁ ⟨hstore, hpub⟩
    | ok s =>
        rw [hdel] at hperform
        rcases Prod.mk.inj hperform with ⟨rfl, hstore⟩
        have hgone := gone_of_deleteAll hs hdel hstore hpub
        refine Program.Ensures.mono (Program.ensures_mapM
          (I := fun ids ds v => ds = ids.map (Deletion.mk · (.ok ())) ∧ w₁.Same v) ?_
          ⟨rfl, .refl w₁⟩) ?_
        · rintro ids ds v id ⟨rfl, hsame⟩
          refine ensures_deleted.mono ?_
          rintro d v' ⟨rfl, hmore⟩
          exact ⟨by simp, hsame.trans hmore⟩
        · rintro ds v ⟨rfl, hsame⟩
          refine ⟨?_, by simp⟩
          rw [doneIds_done]
          simpa using hgone.trans (.of_same hgone.sound hsame)

theorem ensures_deleteChunks {lists : List (List HandleId)} (hs : w.store.Sound) :
    (deleteChunks lists).Ensures .alone (Deleted lists.flatten w) w := by
  induction lists generalizing w with
  | nil => exact ⟨.refl hs, by simp⟩
  | cons chunk rest ih =>
      rw [deleteChunks]
      refine (ensures_deleteChunk hs).bind ?_
      intro here w₁ hhere
      refine (ih hhere.gone.sound).bind ?_
      intro more w₂ hmore
      exact hhere.trans hmore

theorem flatten_chunks {α : Type} (size : Nat) (xs : List α) : (chunks size xs).flatten = xs := by
  induction xs using chunks.induct size with
  | case1 => simp [chunks]
  | case2 x rest ih => simp [chunks, ih]

/-! ## Removal -/

/-- A key of a list of entries is found, with one of the values that it has in the list. -/
theorem find?_ofList_of_mem {β : Type} {entries : List (String × β)} {key : String} {value : β}
    (h : (key, value) ∈ entries) :
    ∃ v, (Dictionary.ofList entries).find? key = some v ∧ (key, v) ∈ entries := by
  suffices hgen : ∀ d : Dictionary β, ∃ v,
      (entries.foldl (fun d e => d.insert e.1 e.2) d).find? key = some v ∧ (key, v) ∈ entries from
    hgen .empty
  induction entries using List.reverseRecOn with
  | nil => cases h
  | append_singleton init e ih =>
      intro d
      rw [List.foldl_append, List.foldl_cons, List.foldl_nil, Dictionary.find?_insert]
      by_cases hkey : e.1 = key
      · exact ⟨e.2, if_pos hkey, by simp [← hkey]⟩
      · have hmem : (key, value) ∈ init := by
          rcases List.mem_append.1 h with hm | hm
          · exact hm
          · exact absurd (congrArg Prod.fst (List.mem_singleton.1 hm)).symm hkey
        rcases ih hmem d with ⟨v, hv, hin⟩
        exact ⟨v, by rw [if_neg hkey, hv], List.mem_append_left _ hin⟩

/-- A snapshot of a handle that is deleting now. -/
def asDeleting (h : Handle) : Handle :=
  { h with status := { h.status with lifecycle := .deleting } }

/-- Every handle of the request that is stored is deleting, and there is a snapshot that says so. -/
structure Marked (ids : List HandleId) (snapshots : Dictionary Handle) (w : World) : Prop where
  consistent : w.Consistent
  snapshot : ∀ id ∈ ids, w.store.lifecycle? id ≠ none → ∃ h, snapshots.find? id.text = some h ∧
    h.id = id ∧ h.lifecycle = .deleting ∧ w.store.lifecycle? id = some .deleting

theorem ensures_markDeleting {topic : String} {ids : List HandleId} (hw : w.Consistent) :
    (markDeleting topic ids).Ensures .alone
      (fun result w' => ∃ snapshots, result = .ok snapshots ∧ Marked ids snapshots w') w := by
  rw [markDeleting, Program.ensures_bind]
  refine ensures_read (fun hdel => hdel) rfl ?_
  intro w₁ h₁
  have hw₁ := hw.of_same h₁
  have hmany : (w.store.perform (.getMany ids)).1 = .ok (ids.filterMap w₁.store.record?) := by
    rw [h₁.store]
    exact hw.sound.getMany_eq ids
  rw [hmany]
  refine (ensures_applyBatch_deleting hw₁).bind ?_
  rintro result w₂ ⟨hw₂, hreached, hstates⟩
  refine ⟨_, rfl, hw₂, ?_⟩
  intro id hmem hstored
  -- A handle that is stored after the batch was stored before it, so there is a snapshot of it.
  have hstored₁ : w₁.store.lifecycle? id ≠ none := by
    intro hnone
    rw [hstates id, hnone] at hstored
    simp at hstored
  obtain ⟨g, hg⟩ : ∃ g, w₁.store.record? id = some g := by
    cases hr : w₁.store.record? id with
    | none => simp [Store.lifecycle?, hr] at hstored₁
    | some g => exact ⟨g, rfl⟩
  have hid := hw₁.sound.id_of_record? hg
  have hsnap : g ∈ ids.filterMap w₁.store.record? := List.mem_filterMap.2 ⟨id, hmem, hg⟩
  have hkept : g ∈ (ids.filterMap w₁.store.record?).filter fun h => result.reached h.id :=
    List.mem_filter.2 ⟨hsnap, hreached g hsnap (by rw [hid]; exact hstored₁)⟩
  obtain ⟨h, hfind, hentry⟩ := find?_ofList_of_mem
    (List.mem_map_of_mem (f := fun h : Handle => (h.id.text, asDeleting h)) hkept)
  rcases List.mem_map.1 hentry with ⟨k, -, hk⟩
  rcases Prod.mk.inj hk with ⟨hkid, rfl⟩
  refine ⟨asDeleting k, by rw [← hid]; exact hfind, ?_, rfl, ?_⟩
  · exact (HandleId.text_inj.1 hkid).trans hid
  · rw [hstates id, if_pos (List.mem_map.2 ⟨g, hsnap, hid⟩)]
    simp [Store.lifecycle?, hg]

/-- The snapshots of the handles that are gone are as many as these, in their order. -/
theorem map_id_snapshots {snapshots : Dictionary Handle} {deletions : List Deletion}
    (h : ∀ d ∈ deletions, ∃ g, snapshots.find? d.id.text = some g ∧ g.id = d.id) :
    (deletions.filterMap fun d => snapshots.find? d.id.text).map (·.id) =
      deletions.map (·.id) := by
  induction deletions with
  | nil => rfl
  | cons d rest ih =>
      rcases h d (by simp) with ⟨g, hfind, hid⟩
      have htail := ih fun e he => h e (by simp [he])
      simp [hfind, hid, htail]

theorem ensures_remove {topic : String} {rawIds : List String} (hw : w.Consistent) :
    (remove topic rawIds).Ensures .alone (fun _ w' => w'.Consistent) w := by
  rw [remove]
  refine (ensures_markDeleting hw).bind ?_
  rintro _ w₁ ⟨snapshots, rfl, hmarked⟩
  refine (ensures_deleteChunks hmarked.consistent.sound).bind ?_
  intro deletions w₂ hdeleted
  rw [flatten_chunks] at hdeleted
  rcases hdeleted with ⟨hgone, hasked⟩
  -- What was deleted had been stored, and what had been stored was marked.
  have hsnapshot : ∀ d ∈ deletions.filter Deletion.isDone, ∃ g,
      snapshots.find? d.id.text = some g ∧ g.id = d.id ∧ g.lifecycle = .deleting ∧
        w₁.store.lifecycle? d.id = some .deleting := by
    intro d hd
    exact hmarked.snapshot d.id (hasked d (List.mem_filter.1 hd).1)
      (hgone.stored d.id (List.mem_map.2 ⟨d, hd, rfl⟩))
  have hids := map_id_snapshots fun d hd =>
    let ⟨g, hfind, hid, _⟩ := hsnapshot d hd
    ⟨g, hfind, hid⟩
  have htells : w₂.Tells w₁.store.lifecycle? :=
    hmarked.consistent.tells.of_published hgone.published
  refine (ensures_applyBatch_deleted htells (by rw [hids]; exact hgone.nodup) ?_).bind ?_
  · intro g hg
    rcases List.mem_filterMap.1 hg with ⟨d, hd, hfind⟩
    rcases hsnapshot d hd with ⟨g', hfind', hid, hlife, hstate⟩
    obtain rfl : g' = g := Option.some.inj (hfind'.symm.trans hfind)
    exact ⟨hlife, by rw [hid]; exact hstate⟩
  · rintro result w₃ ⟨hstore, htold⟩
    refine ⟨by rw [hstore]; exact hgone.sound, ?_⟩
    intro id
    rcases htold id with ⟨hlives, hseen⟩
    refine ⟨hlives, ?_⟩
    rw [hseen, hids, hstore, hgone.states id]
    rfl

/-! ## Whole registrations -/

theorem ensures_process {topic : String} {r : Registration} (hw : w.Consistent) :
    (process topic r).run.Ensures .alone (fun _ => World.Consistent) w := by
  rw [process]
  cases r.endpoints.flaw? with
  | some flaw => exact hw
  | none =>
      refine keeps_choice hw ((ensures_remove hw).bind fun _ v hv => hv) ?_
      intro removed w₁ hw₁
      refine keeps_choice hw₁ (ensures_create hw₁) ?_
      intro created w₂ hw₂
      refine keeps_choice hw₂ ((ensures_update hw₂).bind fun _ v hv => hv) ?_
      intro updated w₃ hw₃
      exact hw₃

end Inventory
end CmInventory
