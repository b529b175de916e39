import CmInventory.Proofs.Inventory.Picks
import CmInventory.Proofs.Store.Fetched
import CmInventory.Proofs.Store.HandleMap

/-!
# Nothing is kept without a record

What is fetched for a handle is saved under the id of the handle, and the store does not look for a record of
it. That nothing is kept of handles that are not stored (`Store.Tidy`) is therefore up to those who save. A
member that works alone saves for the handle that it picked, which is stored as long as the attempt lasts;
nobody else saves anything (`Request.SavesOnly`), and a deletion takes along what was fetched. So the store is
tidy after any demands that were served one after the other (`tidy_history`), and a handle that is created then
has nothing of an earlier one with its id. Members that work side by side are another matter: one of them may
save for a handle that another one has deleted since it was picked.
-/

namespace CmInventory

/-! ## Tidy stores -/

/-- Whether a call saves something that was fetched for a handle. -/
def StoreCall.Saves (id : HandleId) : StoreCall → Prop
  | .saveData i _ | .saveModules i _ => i = id
  | _ => False

namespace Store

variable {s : Store} {kind : SyncKind} {id : HandleId} {call : StoreCall}

/-- A call that saves nothing for a handle leaves nothing where there was nothing. -/
theorem fetched?_of_not_saves (hcall : ¬ call.Saves id) (hnone : s.fetched? kind id = none) :
    (s.perform call).2.fetched? kind id = none := by
  have hperform : ((s.perform call).1, (s.perform call).2) = s.perform call := rfl
  rw [fetched?_perform hperform, hnone]
  split
  · cases call with
    | saveData i data => rw [StoreCall.leaves?, if_neg fun hsaves => hcall hsaves.2]; rfl
    | saveModules i modules => rw [StoreCall.leaves?, if_neg fun hsaves => hcall hsaves.2]; rfl
    | deleteData i => rw [StoreCall.leaves?]; split <;> rfl
    | delete i => rw [StoreCall.leaves?]; split <;> rfl
    | deleteAll ids => rw [StoreCall.leaves?]; split <;> rfl
    | _ => rfl
  · rfl

/-- Nothing is read where nothing is kept. -/
theorem read_of_bare (h : ∀ kind, s.fetched? kind id = none) :
    s.getData id = .ok none ∧ s.getModules id = [] :=
  ⟨getData_of_none (h .data), Fetched.ofModules_injective (h .modules)⟩

theorem rewrite_eq_none {m : HandleMap} {i : HandleId} {f : Handle → Handle} :
    m.rewrite i f id = none ↔ m id = none := by
  rw [HandleMap.rewrite, Function.update_apply]
  split
  · rename_i hid
    rw [hid, Option.map_eq_none_iff]
  · exact Iff.rfl

/-- A record that goes is deleted, and with it what was fetched. -/
theorem Sound.gone_of_perform (hs : s.Sound) (hstored : s.record? id ≠ none)
    (hgone : (s.perform call).2.record? id = none) :
    call.Deletes ∧ ∀ kind, (s.perform call).2.fetched? kind id = none := by
  have hafter := congrFun (hs.record?_after call) id
  rw [hgone] at hafter
  -- Every write leaves a record where there was one.
  have hrewrite : ∀ {i : HandleId} {f : Handle → Handle},
      none = HandleMap.rewrite s.record? i f id → False :=
    fun h => hstored (rewrite_eq_none.1 h.symm)
  cases call with
  | insert handles => exact absurd (Option.or_eq_none_iff.1 hafter.symm).1 hstored
  | save h => exact (hrewrite hafter).elim
  | saveStatus i status => exact (hrewrite hafter).elim
  | saveStatusIf i expected status => exact (hrewrite hafter).elim
  | delete i =>
      refine ⟨trivial, fun kind => ?_⟩
      rw [Store.perform] at hgone ⊢
      cases hdel : s.delete i with
      | error e =>
          rw [hdel] at hgone
          exact absurd hgone hstored
      | ok s' =>
          rw [hdel] at hgone
          have hgone : s'.record? id = none := hgone
          rw [(hs.delete_ok hdel).2.2 id] at hgone
          have hi : i = id := by
            by_contra hne
            rw [if_neg hne] at hgone
            exact hstored hgone
          exact (fetched?_delete hdel).trans (if_pos hi)
  | deleteAll ids =>
      refine ⟨trivial, fun kind => ?_⟩
      rw [Store.perform] at hgone ⊢
      cases hdel : s.deleteAll ids with
      | error e =>
          rw [hdel] at hgone
          exact absurd hgone hstored
      | ok s' =>
          rw [hdel] at hgone
          have hgone : s'.record? id = none := hgone
          rw [(hs.deleteAll_ok hdel).2.2.2 id] at hgone
          have hmem : id ∈ ids := by
            by_contra hnot
            rw [if_neg hnot] at hgone
            exact hstored hgone
          exact (fetched?_deleteAll hdel).trans (if_pos hmem)
  | _ => exact absurd hafter.symm hstored

/-- Nothing is kept of handles that are not stored. -/
structure Tidy (s : Store) : Prop where
  sound : s.Sound
  bare : ∀ id, s.record? id = none → ∀ kind, s.fetched? kind id = none

theorem tidy_empty : empty.Tidy := by
  refine ⟨sound_empty, fun id _ kind => ?_⟩
  have hdata : empty.data.find? id.text = none := Dictionary.find?_empty id.text
  have hmodules : empty.modules.find? id.text = none := Dictionary.find?_empty id.text
  cases kind with
  | data => rw [fetched?, hdata]; rfl
  | modules => rw [fetched?, getModules, hmodules]; rfl

theorem Tidy.perform (h : s.Tidy) (hsaves : ∀ id, call.Saves id → s.record? id ≠ none) :
    (s.perform call).2.Tidy := by
  refine ⟨h.sound.perform call, fun id hnone kind => ?_⟩
  by_cases hbefore : s.record? id = none
  · exact fetched?_of_not_saves (fun hsave => hsaves id hsave hbefore) (h.bare id hbefore kind)
  · exact (h.sound.gone_of_perform hbefore hnone).2 kind

end Store

/-! ## Requests -/

/-- Whether a request saves nothing that was fetched, but for the given handles. -/
def Request.SavesOnly (ids : List HandleId) : Request → Prop
  | .store (.saveData i _) | .store (.saveModules i _) => i ∈ ids
  | _ => True

section

variable {fails : StoreCall → Prop} {w w' : World} {r : Request} {reply : r.Reply} {id : HandleId}
  {ids : List HandleId}

theorem Request.SavesOnly.of_saves {call : StoreCall} (h : (Request.store call).SavesOnly ids)
    (hsaves : call.Saves id) : id ∈ ids := by
  cases call with
  | saveData i data => exact hsaves ▸ h
  | saveModules i modules => exact hsaves ▸ h
  | _ => exact hsaves.elim

/-- What is saved is saved for stored handles. -/
theorem World.Answers.tidy (h : World.Answers fails r w reply w') (hr : r.SavesOnly ids)
    (hw : w.store.Tidy) (hstored : ∀ id ∈ ids, w.store.record? id ≠ none) : w'.store.Tidy := by
  cases r with
  | store call =>
      rcases World.Answers.store h with ⟨-, ⟨e, -, -, hstore⟩ | hperform⟩
      · rwa [hstore]
      · rw [show w'.store = (w.store.perform call).2 from (Prod.ext_iff.1 hperform).2]
        exact hw.perform fun id hsaves => hstored id (hr.of_saves hsaves)
  | publish event => rwa [(World.Answers.publish h).1]
  | _ => rwa [(World.Answers.quiet (by trivial) h).1]

/-- Nothing is kept of a handle until something is saved for it. -/
theorem World.Answers.bare (h : World.Answers fails r w reply w') (hr : r.SavesOnly [])
    (hbare : ∀ kind, w.store.fetched? kind id = none) (kind : SyncKind) :
    w'.store.fetched? kind id = none := by
  cases r with
  | store call =>
      rcases World.Answers.store h with ⟨-, ⟨e, -, -, hstore⟩ | hperform⟩
      · rw [hstore, hbare]
      · rw [show w'.store = (w.store.perform call).2 from (Prod.ext_iff.1 hperform).2]
        exact Store.fetched?_of_not_saves (fun hsaves => List.not_mem_nil (hr.of_saves hsaves)) (hbare kind)
  | publish event => rw [(World.Answers.publish h).1, hbare]
  | _ => rw [(World.Answers.quiet (by trivial) h).1, hbare]

/-- A handle stays stored as long as nothing is deleted. -/
theorem World.Answers.stored (h : World.Answers fails r w reply w') (hs : w.store.Sound)
    (hr : ∀ call, r = .store call → ¬ call.Deletes) (hstored : w.store.record? id ≠ none) :
    w'.store.record? id ≠ none := by
  cases r with
  | store call =>
      rcases World.Answers.store h with ⟨-, ⟨e, -, -, hstore⟩ | hperform⟩
      · rwa [hstore]
      · rw [show w'.store = (w.store.perform call).2 from (Prod.ext_iff.1 hperform).2]
        exact fun hgone => hr call rfl (hs.gone_of_perform hstored hgone).1
  | publish event => rwa [(World.Answers.publish h).1]
  | _ => rwa [(World.Answers.quiet (by trivial) h).1]

theorem Request.Moves.savesOnly (h : r.Moves id) : r.SavesOnly [] := by
  cases r with
  | store call =>
      cases call with
      | saveData i data => exact h.elim
      | saveModules i modules => exact h.elim
      | _ => trivial
  | _ => trivial

theorem Request.Deletes.savesOnly (h : r.Deletes ids) : r.SavesOnly [] := by
  cases r with
  | store call =>
      cases call with
      | saveData i data => exact h.elim
      | saveModules i modules => exact h.elim
      | _ => trivial
  | _ => trivial

/-- Work on a handle saves for this handle, and deletes nothing. -/
theorem Request.WorksOn.savesOnly {kind : SyncKind} (h : r.WorksOn kind id) :
    r.SavesOnly [id] ∧ ∀ call, r = .store call → ¬ call.Deletes := by
  cases r with
  | store call =>
      cases call with
      | saveData i data => exact ⟨List.mem_singleton.2 h.2, by rintro _ ⟨⟩ hdel; exact hdel⟩
      | saveModules i modules => exact ⟨List.mem_singleton.2 h.2, by rintro _ ⟨⟩ hdel; exact hdel⟩
      | status i => exact ⟨trivial, by rintro _ ⟨⟩ hdel; exact hdel⟩
      | saveStatusIf i expected status => exact ⟨trivial, by rintro _ ⟨⟩ hdel; exact hdel⟩
      | _ => exact h.elim
  | _ => exact ⟨trivial, by rintro _ ⟨⟩⟩

end

/-! ## Programs -/

section

variable {α : Type} {w : World} {id : HandleId}

/-- A program that saves nothing leaves a tidy store tidy. -/
theorem Program.Asks.tidy {p : Program α} (hp : p.Asks (Request.SavesOnly [])) (hw : w.store.Tidy) :
    p.Ensures .alone (fun _ w' => w'.store.Tidy) w :=
  hp.ensures (I := fun v : World => v.store.Tidy) hw fun _ _ hr hv =>
    ⟨trivial, fun _ _ hans => World.Answers.tidy hans hr hv (by simp)⟩

theorem Program.Asks.bare {p : Program α} (hp : p.Asks (Request.SavesOnly []))
    (hbare : ∀ kind, w.store.fetched? kind id = none) :
    p.Ensures .alone (fun _ w' => ∀ kind, w'.store.fetched? kind id = none) w :=
  hp.ensures (I := fun v : World => ∀ kind, v.store.fetched? kind id = none) hbare fun _ _ hr hv =>
    ⟨trivial, fun _ _ hans => World.Answers.bare hans hr hv⟩

namespace Inventory

variable {topic : String}

/-! ### Requests to the inventory -/

theorem savesOnly_create {endpoints : Endpoints} {requested : List RequestedHandle} :
    (create topic endpoints requested).run.Asks (Request.SavesOnly []) :=
  asks_create trivial (fun _ => trivial) fun _ => moves_announce.mono fun _ hr => hr.savesOnly

theorem savesOnly_update {requested : List RequestedHandle} :
    (update requested).Asks (Request.SavesOnly []) :=
  asks_update (fun _ => trivial) fun _ => trivial

theorem savesOnly_remove {rawIds : List String} : (remove topic rawIds).Asks (Request.SavesOnly []) :=
  asks_remove (fun _ _ hr => hr.savesOnly) (fun _ => trivial) fun _ hr => hr.savesOnly

theorem savesOnly_process {r : Registration} : (process topic r).run.Asks (Request.SavesOnly []) :=
  asks_process savesOnly_remove savesOnly_create savesOnly_update

/-! ### Cycles -/

/-- The handle of an attempt is stored until the attempt is over. -/
theorem tidy_attempt {m : Member} {kind : SyncKind} {h : Handle} (hw : w.store.Tidy)
    (hr : w.store.record? h.id = some h) :
    (attempt m kind h).Ensures .alone (fun _ w' => w'.store.Tidy) w := by
  have hasks : (attempt m kind h).Asks fun r =>
      r.SavesOnly [h.id] ∧ ∀ call, r = .store call → ¬ call.Deletes :=
    asks_attempt ⟨trivial, by rintro _ ⟨⟩⟩ ⟨trivial, by rintro _ ⟨⟩⟩ fun _ hworks => hworks.savesOnly
  refine (hasks.ensures (I := fun v : World => v.store.Tidy ∧ v.store.record? h.id ≠ none)
    ⟨hw, by simp [hr]⟩ ?_).mono fun _ _ hv => hv.1
  rintro r v ⟨hsaves, hkeeps⟩ ⟨hv, hstored⟩
  refine ⟨trivial, fun reply v' hans => ⟨?_, ?_⟩⟩
  · exact World.Answers.tidy hans hsaves hv (by simpa using hstored)
  · exact World.Answers.stored hans hv.sound hkeeps hstored

theorem tidy_visitAll {m : Member} {kind : SyncKind} {bound : Nat} {visited : List HandleId}
    {report : CycleReport} (hw : w.store.Tidy) :
    (visitAll (pick kind) (attempt m kind) bound visited report).Ensures .alone
      (fun _ w' => w'.store.Tidy) w :=
  ensures_visitAll (I := fun v => v.store.Tidy) (fun _ hv => hv.sound) (fun _ _ hv hsame => hsame.store ▸ hv)
    (fun _ _ hv hr _ => tidy_attempt hv hr) hw

theorem tidy_dataCycle {m : Member} {bound : Nat} (hw : w.store.Tidy) :
    (dataCycle m bound).Ensures .alone (fun _ w' => w'.store.Tidy) w := by
  rw [dataCycle_eq]
  exact tidy_visitAll hw

theorem tidy_moduleCycle {m : Member} {bound : Nat} (hw : w.store.Tidy) :
    (moduleCycle m bound).Ensures .alone (fun _ w' => w'.store.Tidy) w := by
  have hasks : (readvise m).Asks (Request.SavesOnly []) :=
    (Program.asks_request trivial).bind fun _ =>
      asks_readviseAt (fun _ _ hr => hr.savesOnly) fun _ => trivial
  rw [moduleCycle_eq]
  exact (hasks.tidy hw).bind fun _ _ hv => tidy_visitAll hv

end Inventory
end

/-! ## Histories -/

namespace World

variable {c : Circumstances}

theorem tidy_serve (hc : ∀ n call e, c.storeFailure n call = some e → call.Deletes) {w : World}
    (hw : w.store.Tidy) (d : Demand) : (w.serve c d).store.Tidy := by
  cases d with
  | create topic endpoints requested => exact run_of_ensures hc (Inventory.savesOnly_create.tidy hw)
  | update requested => exact run_of_ensures hc (Inventory.savesOnly_update.tidy hw)
  | remove topic rawIds => exact run_of_ensures hc (Inventory.savesOnly_remove.tidy hw)
  | process topic registration => exact run_of_ensures hc (Inventory.savesOnly_process.tidy hw)
  | dataCycle m bound => exact run_of_ensures hc (Inventory.tidy_dataCycle hw)
  | moduleCycle m bound => exact run_of_ensures hc (Inventory.tidy_moduleCycle hw)
  | wait length => exact hw

/-- After any demands nothing is kept of handles that are not stored. -/
theorem tidy_history (hc : ∀ n call e, c.storeFailure n call = some e → call.Deletes)
    (demands : List Demand) : (history c demands).store.Tidy := by
  induction demands using List.reverseRecOn with
  | nil => exact Store.tidy_empty
  | append_singleton demands d ih =>
      rw [history, List.foldl_concat]
      exact tidy_serve hc ih d

end World
end CmInventory
