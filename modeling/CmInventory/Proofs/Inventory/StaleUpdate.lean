import CmInventory.Inventory.Registrar
import CmInventory.Proofs.Inventory.Announced
import CmInventory.Proofs.Inventory.Operations
import CmInventory.Proofs.Program.Interleaving

/-!
# Updates of properties beside other members

An update of properties reads the record of a handle and writes the whole record back, status and all. What
other members did to the status in between is overwritten by the status that was read. So their work is
kept exactly when the update fails, or when the status before the write is the one that was read
(`update_keeps_status_iff`); a handle that was deleted in between makes the update fail.
-/

namespace CmInventory

open Inventory

/-- The program of a member that updates the properties of a handle. -/
def updating (r : RequestedHandle) : Program (Option HandleResponse) := do
  let response ← updateOne r
  return some response

/-- The program of a member that works on handles. -/
def working (ops : List Operation) : Program (Option HandleResponse) := do
  let _ ← Operation.script ops
  return none

/-! ## Single requests -/

/-- What a member got to read of a handle is stored. -/
theorem record?_of_get {fails : StoreCall → Prop} {id : HandleId} {w w' : World} {h : Handle}
    (hs : w.store.Sound) (hans : World.Answers fails (.store (.get id)) w (.ok h) w') :
    w.store.record? id = some h := by
  rcases World.Answers.store hans with ⟨-, ⟨e, -, heq, -⟩ | hperform⟩
  · cases heq
  · have hget : Except.ok h = w.store.get id := (Prod.mk.inj hperform).1
    rw [hs.get_eq] at hget
    cases hr : w.store.record? id with
    | none =>
        rw [hr] at hget
        cases hget
    | some g =>
        rw [hr] at hget
        cases hget
        rfl

/-- A record that is saved is stored as it is, or nothing changes. -/
theorem store_of_save {fails : StoreCall → Prop} {g : Handle} {w w' : World}
    {reply : Except StoreError Unit} (hs : w.store.Sound)
    (hans : World.Answers fails (.store (.save g)) w reply w') :
    (reply = .ok () ∧ w'.store = w.store.putHandle g) ∨
      ((∃ e, reply = .error e) ∧ w'.store = w.store) := by
  rcases World.Answers.store hans with ⟨-, ⟨e, -, heq, hstore⟩ | hperform⟩
  · exact Or.inr ⟨⟨e, heq⟩, hstore⟩
  · rw [Store.perform, hs.save_eq] at hperform
    cases hr : w.store.record? g.id with
    | none =>
        rw [hr] at hperform
        rcases Prod.mk.inj hperform with ⟨heq, hstore⟩
        exact Or.inr ⟨⟨_, heq⟩, hstore⟩
    | some h =>
        rw [hr] at hperform
        exact Or.inl (Prod.mk.inj hperform)

/-! ## The update -/

/-- The two turns of an update: it gets a record and saves one with the same id and status, and its
response says whether that was done. -/
theorem leads_updating {r : RequestedHandle} {read write : Turn World} {response : HandleResponse}
    (h : Leads (updating r) [read, write] (.done (some response))) :
    ∃ (id : HandleId) (g changed : Handle) (reply : Except StoreError Unit) (i j : Nat)
      (w₀ w₁ w₂ w₃ : World), HandleId.parse r.id = .ok id ∧ read = ⟨i, .store (.get id), .ok g, w₀, w₁⟩ ∧
        write = ⟨j, .store (.save changed), reply, w₂, w₃⟩ ∧ changed.id = g.id ∧
        changed.status = g.status ∧ (response.isSuccess = true ↔ reply = .ok ()) := by
  rw [updating, updateOne] at h
  cases hid : HandleId.parse r.id with
  | error flaw =>
      rw [hid] at h
      cases h
  | ok id =>
      rw [hid] at h
      cases h with
      | @turn i _ _ answer w₀ w₁ _ _ rest =>
          cases answer with
          | error e => cases e <;> cases rest
          | ok g =>
              cases rest with
              | @turn j _ _ reply w₂ w₃ _ _ rest =>
                  refine ⟨id, g, _, reply, i, j, w₀, w₁, w₂, w₃, rfl, rfl, rfl, rfl, rfl, ?_⟩
                  cases reply with
                  | error e =>
                      cases rest
                      simp [HandleResponse.isSuccess, HandleResponse.unknownFailure]
                  | ok _ =>
                      cases rest
                      simp [HandleResponse.isSuccess, HandleResponse.success]

/-- Beside any operations of other members, an update leaves the statuses of other handles as they are. If
it fails it changes nothing, and if it succeeds the handle has the status that was read. So the status that
the other members left is kept exactly when the update fails or that status is the one that was read. -/
theorem update_keeps_status_iff {r : RequestedHandle} {others : List (List Operation)}
    {w₀ w : World} {turns : List (Turn World)} {qs : List (Program (Option HandleResponse))}
    {read write : Turn World} {response : HandleResponse} (hs : w₀.store.Sound)
    (h : Interleaved (World.Answers fun _ => True) (updating r :: others.map working) w₀ turns qs w)
    (hturns : turnsOf 0 turns = [read, write]) (hdone : qs[0]? = some (.done (some response))) :
    ∃ id, HandleId.parse r.id = .ok id ∧
      (∀ other, other ≠ id →
        write.after.store.status other = write.before.store.status other) ∧
      (response.isSuccess = false → write.after.store = write.before.store) ∧
      (response.isSuccess = true →
        write.after.store.status id = read.before.store.status id) ∧
      (write.after.store.status id = write.before.store.status id ↔
        response.isSuccess = false ∨
          write.before.store.status id = read.before.store.status id) := by
  rcases h.leads 0 _ hdone with ⟨p, hp, hleads⟩
  have hp : updating r = p := Option.some.inj hp
  rw [← hp, hturns] at hleads
  rcases leads_updating hleads with
    ⟨id, g, changed, reply, i, j, v₀, v₁, v₂, v₃, hparse, rfl, rfl, hid, hstatus, hresponse⟩
  -- The store was sound at both turns of the update, whatever the others did.
  have hinv := (h.invariant (I := fun v => v.store.Sound) hs
    fun _ _ _ _ hsound hans => hans.sound hsound).2
  have hmem : ∀ t ∈ turnsOf 0 turns, t ∈ turns := fun t ht => (List.mem_filter.1 ht).1
  rw [hturns] at hmem
  rcases hinv _ (hmem _ List.mem_cons_self) with ⟨hs₀, -, hread⟩
  rcases hinv _ (hmem _ (List.mem_cons_of_mem _ (List.mem_singleton.2 rfl))) with ⟨hs₂, -, hwrite⟩
  have hrecord := record?_of_get hs₀ hread
  have hgid : changed.id = id := by rw [hid, hs₀.id_of_record? hrecord]
  have hbefore : v₀.store.status id = .ok g.status := by rw [hs₀.status_eq, hrecord]
  refine ⟨id, hparse, ?_⟩
  rcases store_of_save hs₂ hwrite with ⟨hok, hstore⟩ | ⟨⟨e, herror⟩, hstore⟩
  · have hsuccess : response.isSuccess = true := hresponse.2 hok
    -- The record that is saved has the status that was read, not the one that is stored now.
    have hafter : ∀ other, v₃.store.status other =
        if id = other then v₀.store.status id else v₂.store.status other := by
      intro other
      rw [hstore, hs₂.status_putHandle, hgid, hstatus, hbefore]
    refine ⟨?_, ?_, ?_, ?_⟩
    · intro other hother
      rw [hafter, if_neg hother.symm]
    · intro hfail
      rw [hsuccess] at hfail
      cases hfail
    · intro _
      rw [hafter, if_pos rfl]
    · rw [hafter, if_pos rfl, hsuccess]
      constructor
      · exact fun hkept => Or.inr hkept.symm
      · rintro (hfail | hkept)
        · cases hfail
        · exact hkept.symm
  · have hfail : response.isSuccess = false := by
      rw [Bool.eq_false_iff]
      intro hsuccess
      rw [hresponse.1 hsuccess] at herror
      cases herror
    have hstore : v₃.store = v₂.store := hstore
    refine ⟨?_, ?_, ?_, ?_⟩
    · intro other _
      rw [hstore]
    · exact fun _ => hstore
    · intro hsuccess
      rw [hfail] at hsuccess
      cases hsuccess
    · rw [hstore, hfail]
      exact ⟨fun _ => Or.inl rfl, fun _ => rfl⟩

/-! ## A deletion that is undone -/

/-- A handle that is ready. -/
def readyHandle : Handle :=
  { (default : Handle) with
    id := ⟨"a"⟩
    status := { (default : HandleStatus) with lifecycle := .ready } }

/-- The handle once it is deleting. -/
def deletingHandle : Handle :=
  { readyHandle with status := nextStatus readyHandle.status .deleting none default }

/-- A world with a ready handle in its store. -/
def readyWorld : World :=
  { World.empty with store := Store.empty.putHandle readyHandle }

/-- Between the two turns of an update the handle is moved to deleting. The update succeeds, and the handle
is ready again. -/
theorem update_undoes_deleting :
    ∃ turns qs w read write response,
      Interleaved (World.Answers fun _ => True)
        (updating { (default : RequestedHandle) with id := "a" } ::
          [[.apply "lcm" [(readyHandle, .deleting)]]].map working) readyWorld turns qs w ∧
      turnsOf 0 turns = [read, write] ∧ qs[0]? = some (.done (some response)) ∧
      write.before.store.status ⟨"a"⟩ = .ok deletingHandle.status ∧
      write.after.store.status ⟨"a"⟩ = .ok readyHandle.status := by
  have hs₀ : readyWorld.store.Sound := Store.sound_empty.putHandle readyHandle
  have hs₁ : (readyWorld.store.putHandle deletingHandle).Sound := hs₀.putHandle deletingHandle
  have hr₀ : readyWorld.store.record? ⟨"a"⟩ = some readyHandle :=
    (Store.record?_putHandle _ _ _).trans (if_pos rfl)
  have hget : readyWorld.store.perform (.get ⟨"a"⟩) = (.ok readyHandle, readyWorld.store) := by
    rw [Store.perform, hs₀.get_eq, hr₀]
  have hstatus : readyWorld.store.perform (.status ⟨"a"⟩) =
      (.ok readyHandle.status, readyWorld.store) := by
    rw [Store.perform, hs₀.status_eq, hr₀]
  have hmove : readyWorld.store.perform (.saveStatusIf ⟨"a"⟩ .ready deletingHandle.status) =
      (.ok true, readyWorld.store.putHandle deletingHandle) := by
    rw [Store.perform, hs₀.replaceStatus_eq, hr₀]
    rfl
  have hsave : (readyWorld.store.putHandle deletingHandle).perform (.save readyHandle) =
      (.ok (), (readyWorld.store.putHandle deletingHandle).putHandle readyHandle) := by
    have hr₁ : (readyWorld.store.putHandle deletingHandle).record? readyHandle.id =
        some deletingHandle := (Store.record?_putHandle _ _ _).trans (if_pos rfl)
    rw [Store.perform, hs₁.save_eq, hr₁]
    rfl
  have h₀ := @Interleaved.start _ _ (World.Answers fun _ => True)
    (updating { (default : RequestedHandle) with id := "a" } ::
      [[.apply "lcm" [(readyHandle, .deleting)]]].map working) readyWorld
  have h₁ := h₀.snoc 0 rfl (World.answers_store _ _ hget)
  have h₂ := h₁.snoc 1 rfl (World.answers_store _ _ hstatus)
  have h₃ := h₂.snoc 1 rfl (World.answers_undisturbed _ .now _)
  have h₄ := h₃.snoc 1 rfl (World.answers_store _ _ hmove)
  have h₅ := h₄.snoc 0 rfl (World.answers_store _ _ hsave)
  rcases update_keeps_status_iff hs₀ h₅ (by rfl) (by rfl) with ⟨id, hparse, -, -, hwritten, -⟩
  have hid : id = ⟨"a"⟩ := (Except.ok.inj hparse).symm
  subst hid
  refine ⟨_, _, _, _, _, _, h₅, rfl, rfl, ?_, (hwritten rfl).trans ?_⟩
  · exact (hs₀.status_putHandle deletingHandle ⟨"a"⟩).trans (if_pos rfl)
  · exact (Store.sound_empty.status_putHandle readyHandle ⟨"a"⟩).trans (if_pos rfl)

end CmInventory
