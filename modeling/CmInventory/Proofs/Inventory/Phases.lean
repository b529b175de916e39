import CmInventory.Proofs.Inventory.Creation
import CmInventory.Proofs.Inventory.Singly
import CmInventory.Proofs.Inventory.Tidy
import CmInventory.Proofs.Program.Delays

/-!
# Registrations in phases

A registration removes, creates and updates, and the creation looks at the services of the registration once
more. They were looked at before the first removal, so that the creation finds nothing that was not found then,
and a registration fails as a whole or not at all (`process_in_phases`). Its phases do what the three operations
do one after the other (`InTurn`); a phase with nothing to do is left out, and the operation would only have
made a request for nothing (`idleRequests`).

An id may stand in several phases. The removal leaves nothing under a valid id, neither a record
(`lifecycle?_deleteSingly`) nor anything that was fetched, if the store was tidy. So a handle that is removed
and created is a new one (`IsNew`), and an update that comes after it changes its properties only.
-/

namespace CmInventory

open Inventory

/-! ## Removals -/

section

variable {c : Circumstances} {w w' : World}

/-- If no call fails a removal answers for each id in its place, and leaves no record of those that are
valid. -/
theorem Inventory.remove_unhindered (hc : ∀ n call, c.storeFailure n call = none) (hs : w.store.Sound)
    (hlive : ∀ id, w.store.lifecycle? id ≠ some .deleted) {topic : String} {rawIds : List String}
    {responses : List HandleResponse}
    (hrun : (remove topic rawIds).run (World.reply c) w = (responses, w')) :
    responses.map (·.id) = rawIds.map HandleId.mk ∧
      ∀ id : HandleId, id.text ∈ rawIds → id.isValid = true → w'.store.lifecycle? id = none := by
  have hc := Circumstances.refuses_none hc
  have hmarked : (markDeleting topic (rawIds.map HandleId.mk)).Ensures (.under c) _ w :=
    ensures_markDeleting_under hc hs hlive
  have hmarked := hmarked.under
  rcases hmarking : (markDeleting topic (rawIds.map HandleId.mk)).run (World.reply c) w with ⟨marked, w₁⟩
  rw [hmarking] at hmarked
  rcases hmarked with ⟨snapshots, rfl, hs₁, hsnapshots, -⟩
  have hsound : w₁.unstamped.store.Sound := hs₁
  have hsettled := remove_settled hc hmarking hs₁ hsnapshots
  rw [hrun] at hsettled
  rcases hsettled with ⟨hresponses, hworld⟩
  refine ⟨?_, fun id hmem hvalid => ?_⟩
  · rw [show responses = _ from hresponses, List.map_map]
    exact (List.map_congr_left fun d _ => id_response d).trans (World.map_id_deleteSingly _ _ _)
  · have hstore := congrArg World.store hworld
    rw [store_farewell] at hstore
    change w'.unstamped.store.lifecycle? id = none
    rw [show w'.unstamped.store = _ from hstore]
    exact World.lifecycle?_deleteSingly hsound (List.mem_map.2 ⟨id.text, hmem, rfl⟩) rfl hvalid

end

/-! ## Updates -/

theorem Inventory.IsNew.of_same {endpoints : Endpoints} {r : RequestedHandle} {g h : Handle}
    (hg : IsNew endpoints r g) (hsame : g.SameButProperties h) : IsNew endpoints r h := by
  rw [Handle.SameButProperties] at hsame
  rw [hsame]
  exact ⟨hg.id, hg.endpoints, hg.moduleSetTag, hg.lifecycle, hg.lockReason, hg.dataSync, hg.operational⟩

/-- The records are there as before, but for the properties of those that were updated. -/
structure Updated (requested : List RequestedHandle) (w w' : World) : Prop where
  sound : w'.store.Sound
  kept : ∀ id g, w.store.record? id = some g → ∃ h, w'.store.record? id = some h ∧
    g.SameButProperties h ∧ ((∀ u ∈ requested, u.id ≠ id.text) → h = g)

section

variable {u v w : World} {r : RequestedHandle} {requested more : List RequestedHandle}

theorem Updated.refl (hs : w.store.Sound) : Updated requested w w :=
  ⟨hs, fun _ g hg => ⟨g, hg, rfl, fun _ => rfl⟩⟩

theorem Updated.trans (h₁ : Updated requested u v) (h₂ : Updated more v w) :
    Updated (requested ++ more) u w := by
  refine ⟨h₂.sound, fun id g hg => ?_⟩
  rcases h₁.kept id g hg with ⟨h, hh, hsame, huntouched⟩
  rcases h₂.kept id h hh with ⟨k, hk, hsame', huntouched'⟩
  refine ⟨k, hk, hsame.trans hsame', fun hnot => ?_⟩
  rw [huntouched' fun u hu => hnot u (List.mem_append_right _ hu),
    huntouched fun u hu => hnot u (List.mem_append_left _ hu)]

namespace Inventory

theorem UpdatesOne.updated {response : HandleResponse} {w' : World} (h : UpdatesOne r w response w')
    (hs : w.store.Sound) : Updated [r] w w' := by
  rcases h.store with hstore | ⟨g, h, hr, hsame, hstore⟩
  · refine ⟨hstore ▸ hs, fun id k hk => ⟨k, hstore ▸ hk, rfl, fun _ => rfl⟩⟩
  · have hid : h.id = ⟨r.id⟩ := hsame.id.trans (hs.id_of_record? hr)
    refine ⟨hstore ▸ hs.putHandle h, fun id k hk => ?_⟩
    rw [hstore, Store.record?_putHandle, hid]
    split
    · rename_i heq
      subst heq
      obtain rfl : g = k := Option.some.inj (hr.symm.trans hk)
      exact ⟨h, rfl, hsame, fun hnot => absurd rfl (hnot r (by simp))⟩
    · exact ⟨k, hk, rfl, fun _ => rfl⟩

/-- Updates answer for each handle in its place. -/
theorem ensures_updated (hs : w.store.Sound) :
    (update requested).Ensures .alone (fun responses w' =>
      responses.map (·.id) = requested.map (fun r => ⟨r.id⟩) ∧ Updated requested w w') w := by
  refine Program.ensures_mapM (I := fun done (responses : List HandleResponse) w' =>
    responses.map (·.id) = done.map (fun r => ⟨r.id⟩) ∧ Updated done w w') ?_ ⟨rfl, .refl hs⟩
  rintro done responses v r ⟨hids, hdone⟩
  refine (ensures_updatesOne hdone.sound).mono ?_
  intro response v' hone
  refine ⟨?_, hdone.trans (hone.updated hdone.sound)⟩
  rw [List.map_append, List.map_append, hids, List.map_singleton, List.map_singleton, hone.id]

end Inventory
end

/-! ## Phases -/

namespace Inventory

section

variable {c : Circumstances} {w : World} {β γ δ : Type}

/-- How many requests a removal or a creation of such handles makes for nothing. -/
def idleRequests (handles : List β) : Nat :=
  if handles.isEmpty then 1 else 0

theorem run_remove_nil (hc : ∀ n call, c.storeFailure n call = none) (topic : String) (w : World) :
    (remove topic []).run (World.reply c) w = ([], w.later 1) := by
  have hmany : w.store.perform (.getMany []) = (.ok [], w.store) := rfl
  have hchunks : chunks deleteChunkSize ([].map HandleId.mk) = [] := by simp [chunks]
  rw [remove, hchunks]
  exact (World.run_store hc hmany).trans rfl

theorem run_create_nil (hc : ∀ n call, c.storeFailure n call = none) (topic : String)
    {endpoints : Endpoints} (hflaw : endpoints.flaw? = none) (w : World) :
    (create topic endpoints []).run.run (World.reply c) w = (.ok [], w.later 1) := by
  have hinsert : w.store.perform (.insert []) = (.ok (), w.store) := rfl
  rw [create, hflaw]
  exact (World.run_store hc hinsert).trans rfl

/-- A phase of a registration comes to what its operation comes to some requests later. If there is nothing to do,
the operation makes requests for nothing, which the phase does not make. -/
theorem ensures_phase {xs : List β} {act : Action (List γ)} {next : List γ → Action δ} (n idle : Nat)
    {Q : Except InventoryError δ → World → Prop}
    (hidle : xs = [] → ∀ v, act.run.run (World.reply (c.behind n)) v = (.ok [], v.later idle))
    (hok : ∃ result, (act.run.run (World.reply c) w).1 = .ok result)
    (hnext : ∀ result v, act.run.run (World.reply (c.behind n)) (w.later n) =
      (.ok result, v.later (n + if xs.isEmpty then idle else 0)) → (next result).run.Ensures (.under c) Q v) :
    (if xs.isEmpty then pure [] >>= next else act >>= next).run.Ensures (.under c) Q w := by
  cases xs with
  | nil =>
      refine hnext [] w ?_
      rw [hidle rfl, World.later_later]
      rfl
  | cons x rest =>
      rcases hok with ⟨result, hresult⟩
      change (act >>= next).run.Ensures (.under c) Q w
      rw [Action.ensures_bind]
      refine Program.ensures_under ?_
      rw [hresult, Action.goes_ok]
      refine hnext result _ ?_
      rw [Program.run_later, hresult]
      rfl

end

/-! ## Whole registrations -/

variable {c : Circumstances} {topic : String} {r : Registration} {w w' : World}
  {response : RegistrationResponse}

/-- Removing, creating and updating, one operation after the other, gives these responses and, but for the number of
requests, this world. The operations meet the circumstances that the phases meet, which make no idle requests. -/
def InTurn (c : Circumstances) (topic : String) (r : Registration) (w : World)
    (response : RegistrationResponse) (w' : World) : Prop :=
  ∃ w₁ w₂, (remove topic r.removed).run (World.reply c) w = (response.removed, w₁) ∧
    (create topic r.endpoints r.created).run.run (World.reply (c.behind (idleRequests r.removed))) w₁ =
      (.ok response.created, w₂) ∧
    (update r.updated).run
        (World.reply (c.behind (idleRequests r.removed + idleRequests r.created))) w₂ =
      (response.updated, w'.later (idleRequests r.removed + idleRequests r.created))

theorem process_inTurn (hc : ∀ n call, c.storeFailure n call = none) (hflaw : r.endpoints.flaw? = none) :
    ∃ response w', (process topic r).run.run (World.reply c) w = (.ok response, w') ∧
      InTurn c topic r w response w' := by
  have hbehind : ∀ m n call, (c.behind m).storeFailure n call = none := fun m n call => hc (n - m) call
  have hprocess : (process topic r).run.Ensures (.under c) (fun result w' =>
      ∃ response, result = .ok response ∧ InTurn c topic r w response w') w := by
    rw [process, hflaw]
    -- Each phase goes on in the world of the process, which is behind that of the operations by the idle requests.
    refine ensures_phase 0 1 (fun hnil v => ?_) (Action.run_lift_ok _ _ _) fun removed w₁ h₁ => ?_
    · rw [hnil]
      exact Action.run_lift_iff.2 (run_remove_nil (hbehind 0) topic v)
    refine ensures_phase (idleRequests r.removed) 1 (fun hnil v => ?_) ?_ fun created w₂ h₂ => ?_
    · rw [hnil]
      exact run_create_nil (hbehind _) topic hflaw v
    -- The services are looked at once more, with the same result as before the removals.
    · rcases World.run_of_ensures (World.only_deletes hc) (ensures_created hflaw) with ⟨result, hresult, -⟩
      exact ⟨result, hresult⟩
    refine ensures_phase (idleRequests r.removed + idleRequests r.created) 0 (fun hnil v => ?_)
      (Action.run_lift_ok _ _ _) fun updated w₃ h₃ => ?_
    · rw [hnil]
      rfl
    refine ⟨⟨created, updated, removed⟩, rfl, w₁.later (idleRequests r.removed),
      w₂.later (idleRequests r.removed + idleRequests r.created), ?_, h₂, ?_⟩
    · rw [Nat.zero_add] at h₁
      exact Action.run_lift_iff.1 h₁
    · rw [ite_self, Nat.add_zero] at h₃
      exact Action.run_lift_iff.1 h₃
  rcases hprocess.under with ⟨response, hresponse, hturn⟩
  exact ⟨response, _, Prod.ext hresponse rfl, hturn⟩

/-- What a registration comes to that is not refused. It does the same as the three operations in turn, and answers for
each handle in its place. A handle that is removed and created is a new one afterwards, as it was first requested,
with nothing that was fetched for the old one; an update may have changed its properties since. -/
structure DoneInPhases (c : Circumstances) (topic : String) (r : Registration) (w : World)
    (response : RegistrationResponse) (w' : World) : Prop where
  inTurn : InTurn c topic r w response w'
  removed : response.removed.map (·.id) = r.removed.map HandleId.mk
  created : response.created.map (·.id) = r.created.map fun q => ⟨q.id⟩
  updated : response.updated.map (·.id) = r.updated.map fun q => ⟨q.id⟩
  recreated : ∀ id : HandleId, HandleId.IsName id.text → id.text ∈ r.removed →
    id.text ∈ r.created.map (·.id) → ∃ q h, r.created.find? (fun p => p.id = id.text) = some q ∧
      w'.store.get id = .ok h ∧ IsNew r.endpoints q h ∧
      ((∀ u ∈ r.updated, u.id ≠ id.text) → Describes r.endpoints q h) ∧
      w'.store.getData id = .ok none ∧ w'.store.getModules id = []

/-- The second phase stores a new handle under an id under which the first one left nothing. -/
theorem describes_of_created {endpoints : Endpoints} {requested : List RequestedHandle} {id : HandleId}
    {w₁ w₂ : World} {responses : List HandleResponse} (hs : w₁.store.Sound)
    (h : Created endpoints requested w₁ responses w₂) (hname : HandleId.IsName id.text)
    (hmem : id.text ∈ requested.map (·.id)) (hgone : w₁.store.lifecycle? id = none) :
    ∃ q g, requested.find? (fun p => p.id = id.text) = some q ∧ w₂.store.get id = .ok g ∧
      Describes endpoints q g := by
  refine h.describes hname hmem ?_
  rw [hs.contains_eq, ← Option.isSome_map, ← Store.lifecycle?, hgone]
  rfl

theorem InTurn.doneInPhases (hc : ∀ n call, c.storeFailure n call = none) (hflaw : r.endpoints.flaw? = none)
    (hw : w.Consistent) (htidy : w.store.Tidy) (h : InTurn c topic r w response w') :
    DoneInPhases c topic r w response w' := by
  have hbehind : ∀ m n call, (c.behind m).storeFailure n call = none := fun m n call => hc (n - m) call
  rcases id h with ⟨w₁, w₂, hremove, hcreate, hupdate⟩
  have hw₁ := World.ensured hc hremove (ensures_remove hw)
  have hw₂ := World.ensured (hbehind _) hcreate (ensures_create hw₁)
  rcases remove_unhindered hc hw.sound hw.ne_deleted hremove with ⟨hremoved, hgone⟩
  rcases World.ensured (hbehind _) hcreate (ensures_created hflaw) with ⟨_, ⟨⟩, hcreated⟩
  rcases World.ensured (hbehind _) hupdate (ensures_updated hw₂.sound) with ⟨hids, hupdated⟩
  refine ⟨h, hremoved, hcreated.map_id, hids, fun id hname hin hmem => ?_⟩
  have hnone := hgone id hin (HandleId.isValid_of_isName hname)
  rcases describes_of_created hw₁.sound hcreated hname hmem hnone with ⟨q, g, hq, hg, hdescribes⟩
  rcases hupdated.kept id g (hw₂.sound.get_eq_ok_iff.1 hg) with ⟨k, hk, hsame, huntouched⟩
  refine ⟨q, k, hq, hupdated.sound.get_eq_ok_iff.2 hk, hdescribes.toIsNew.of_same hsame, ?_, Store.read_of_bare ?_⟩
  · intro hnot
    rwa [huntouched hnot]
  -- The removal left nothing under the id, and the other phases save nothing that was fetched.
  · have hbare₁ := (World.ensured hc hremove (savesOnly_remove.tidy htidy)).bare id
      (Option.map_eq_none_iff.1 hnone)
    have hbare₂ := World.ensured (hbehind _) hcreate (savesOnly_create.bare hbare₁)
    exact World.ensured (hbehind _) hupdate (savesOnly_update.bare hbare₂)

end Inventory

/-- In an inventory in which no call of the store fails, a registration fails as a whole or not at all, whatever
demands were served before it. If its services are not as they should be nothing at all has changed, and otherwise
it does what removing, creating and updating in turn do, with a response for each handle. -/
theorem process_in_phases {c : Circumstances} (hc : ∀ n call, c.storeFailure n call = none)
    (demands : List Demand) (topic : String) (r : Registration) :
    let w := World.history c demands
    match r.endpoints.flaw? with
    | some flaw => (process topic r).run.run (World.reply c) w = (.error (.validation flaw), w)
    | none => ∃ response w', (process topic r).run.run (World.reply c) w = (.ok response, w') ∧
        DoneInPhases c topic r w response w' := by
  intro w
  have hdel := World.only_deletes hc
  split
  · rename_i flaw hflaw
    rw [process, hflaw]
    rfl
  · rename_i hflaw
    rcases process_inTurn hc hflaw with ⟨response, w', hrun, hturn⟩
    exact ⟨response, w', hrun, hturn.doneInPhases hc hflaw (World.consistent_history hdel demands)
      (World.tidy_history hdel demands)⟩

/-- A registration that removes a handle and creates it again. -/
def renewal : Registration :=
  ⟨⟨"dmi", "", ""⟩, [plainRequest "a"], [], ["a"]⟩

/-- A handle that was created and visited in a cycle is as new after it is renewed. -/
theorem process_in_phases_renewal :
    let demands : List Demand := [.create "lcm" renewal.endpoints renewal.created,
      .moduleCycle ⟨"member", .zero, .zero, "lcm"⟩ 2]
    ∃ response w', (process "lcm" renewal).run.run (World.reply World.undisturbed)
        (World.history World.undisturbed demands) = (.ok response, w') ∧
      response.removed.map (·.id) = [⟨"a"⟩] ∧ response.created.map (·.id) = [⟨"a"⟩] ∧
      ∃ h, w'.store.get ⟨"a"⟩ = .ok h ∧ h.lifecycle = .advised ∧ h.status.lockReason = none ∧
        w'.store.getData ⟨"a"⟩ = .ok none ∧ w'.store.getModules ⟨"a"⟩ = [] := by
  intro demands
  have hphases := process_in_phases (c := World.undisturbed) (fun _ _ => rfl) demands "lcm" renewal
  have hflaw : renewal.endpoints.flaw? = none := by decide
  rw [hflaw] at hphases
  rcases hphases with ⟨response, w', hrun, hdone⟩
  have hname : HandleId.IsName "a" := by simp [HandleId.IsName]
  rcases hdone.recreated ⟨"a"⟩ hname List.mem_cons_self List.mem_cons_self with
    ⟨q, h, -, hget, hnew, -, hdata, hmodules⟩
  exact ⟨response, w', hrun, hdone.removed, hdone.created, h, hget, hnew.lifecycle, hnew.lockReason, hdata,
    hmodules⟩

end CmInventory
