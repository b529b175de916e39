import CmInventory.Proofs.Inventory.Demands
import CmInventory.Proofs.Plugin.Services
import CmInventory.Proofs.Program.Interleaving
import CmInventory.Proofs.Store.HandleMap

/-!
# The services of stored handles

A handle has the services of the creation or the registration that it came with. Nothing changes them later: a call of
the store keeps a handle with at most another status, or it puts a handle that its caller names
(`HandleMap.after_eq_some`), and the members put new handles with services that were accepted, or handles that they
read before, with other properties. So however the requests of members are interleaved, and whichever calls of the
store fail, every stored handle has services that some demand named and that were accepted (`accepted_of_stored`).
-/

namespace CmInventory

/-! ## What is stored after a call -/

namespace HandleMap

variable {m : HandleMap} {id : HandleId} {h : Handle}

theorem rewrite_eq_some {i : HandleId} {f : Handle → Handle} (hafter : m.rewrite i f id = some h) :
    ∃ g, m id = some g ∧ (h = g ∨ h = f g) := by
  rw [rewrite, Function.update_apply] at hafter
  split at hafter
  · rename_i hid
    obtain ⟨g, hg, rfl⟩ := Option.map_eq_some_iff.1 hafter
    exact ⟨g, hid ▸ hg, Or.inr rfl⟩
  · exact ⟨h, hafter, Or.inl rfl⟩

theorem delete_eq_some {m' : HandleMap} {i : HandleId} (hdelete : m.delete i = .ok m')
    (hafter : m' id = some h) : m id = some h := by
  rw [delete] at hdelete
  split at hdelete
  · cases hdelete
  split at hdelete
  · cases hdelete
    rw [Function.update_apply] at hafter
    split at hafter
    · cases hafter
    · exact hafter
  · cases hdelete

theorem deleteAll_eq_some {m' : HandleMap} {ids : List HandleId} (hdelete : m.deleteAll ids = .ok m')
    (hafter : m' id = some h) : m id = some h := by
  induction ids generalizing m with
  | nil =>
      cases hdelete
      exact hafter
  | cons i rest ih =>
      rw [deleteAll, List.foldlM_cons] at hdelete
      cases hfirst : m.delete i with
      | error e =>
          rw [hfirst] at hdelete
          cases hdelete
      | ok between =>
          rw [hfirst] at hdelete
          exact delete_eq_some hfirst (ih hdelete)

theorem settle_eq_some {change : Except StoreError HandleMap}
    (hchange : ∀ m', change = .ok m' → m' id = some h → m id = some h)
    (hafter : m.settle change id = some h) : m id = some h := by
  cases change with
  | error e => exact hafter
  | ok m' => exact hchange m' rfl hafter

/-- A handle that is stored after a call was stored before it, with another status at most, or it is one that the
call puts. -/
theorem after_eq_some {call : StoreCall} (hafter : m.after call id = some h) :
    (∃ g status, m id = some g ∧ h = { g with status := status }) ∨
      (∃ handles, call = .insert handles ∧ h ∈ handles) ∨ call = .save h := by
  have hsame : m id = some h → ∃ g status, m id = some g ∧ h = { g with status := status } :=
    fun hm => ⟨h, h.status, hm, rfl⟩
  -- Only the first four calls write handles; a deletion can but take some away.
  cases call with
  | insert handles =>
      rcases Option.or_eq_some_iff.1 hafter with hm | ⟨-, hfound⟩
      · exact Or.inl (hsame hm)
      · exact Or.inr (Or.inl ⟨handles, rfl, List.mem_of_find?_eq_some hfound⟩)
  | save g =>
      rcases rewrite_eq_some hafter with ⟨old, hold, rfl | rfl⟩
      · exact Or.inl (hsame hold)
      · exact Or.inr (Or.inr rfl)
  | saveStatus i status =>
      rcases rewrite_eq_some hafter with ⟨old, hold, rfl | rfl⟩
      · exact Or.inl (hsame hold)
      · exact Or.inl ⟨old, status, hold, rfl⟩
  | saveStatusIf i expected status =>
      rcases rewrite_eq_some hafter with ⟨old, hold, rfl | rfl⟩
      · exact Or.inl (hsame hold)
      · split
        · exact Or.inl ⟨old, status, hold, rfl⟩
        · exact Or.inl ⟨old, old.status, hold, rfl⟩
  | delete i => exact Or.inl (hsame (settle_eq_some (fun _ => delete_eq_some) hafter))
  | deleteAll ids => exact Or.inl (hsame (settle_eq_some (fun _ => deleteAll_eq_some) hafter))
  | _ => exact Or.inl (hsame hafter)

end HandleMap

section

variable {allowed : Endpoints → Prop}

/-! ## Stores and requests -/

/-- Every stored handle has services of an allowed choice. -/
structure Store.NamesServices (allowed : Endpoints → Prop) (s : Store) : Prop where
  sound : s.Sound
  services : ∀ id h, s.record? id = some h → allowed h.endpoints

/-- Whether a request puts only handles with services of an allowed choice. -/
def Request.NamesServices (allowed : Endpoints → Prop) : Request → Prop
  | .store (.insert handles) => ∀ h ∈ handles, allowed h.endpoints
  | .store (.save h) => allowed h.endpoints
  | _ => True

/-- A handle that is read has services of an allowed choice. -/
def Request.TellsServices (allowed : Endpoints → Prop) : (r : Request) → r.Reply → Prop
  | .store (.get _), .ok h => allowed h.endpoints
  | _, _ => True

theorem Store.namesServices_empty : empty.NamesServices allowed := by
  refine ⟨sound_empty, fun id h hr => ?_⟩
  rw [record?_empty] at hr
  cases hr

theorem Store.NamesServices.perform {s : Store} {call : StoreCall} (hs : s.NamesServices allowed)
    (hcall : (Request.store call).NamesServices allowed) : (s.perform call).2.NamesServices allowed := by
  refine ⟨hs.sound.perform call, fun id h hr => ?_⟩
  rw [hs.sound.record?_after] at hr
  rcases HandleMap.after_eq_some hr with ⟨g, status, hg, rfl⟩ | ⟨handles, rfl, hmem⟩ | rfl
  · exact hs.services id g hg
  · exact hcall h hmem
  · exact hcall

theorem Store.NamesServices.tells {s : Store} (hs : s.NamesServices allowed) (call : StoreCall) :
    Request.TellsServices allowed (.store call) (s.perform call).1 := by
  cases call with
  | get id =>
      have hget := hs.sound.tells (.get id)
      rw [HandleMap.Tells] at hget
      rw [hget]
      cases hr : s.record? id with
      | none =>
          rw [HandleMap.get_of_none hr]
          trivial
      | some h =>
          rw [HandleMap.get_of_some hr]
          exact hs.services id h hr
  | _ => trivial

/-- The discipline of members that put only handles with services of an allowed choice. They need no view. -/
def namingServices (allowed : Endpoints → Prop) : Discipline Unit (World.Answers fun _ => True) where
  start := ()
  note _ _ _ := ()
  may r _ := r.NamesServices allowed
  told := Request.TellsServices allowed
  orderly _ := True
  holds w := w.store.NamesServices allowed
  orderly_start := trivial
  orderly_note _ _ _ _ := trivial
  keeps := by
    intro r _ w reply w' hmay hw hans
    cases r with
    | store call =>
        rcases World.Answers.store hans with ⟨-, ⟨e, -, rfl, hstore⟩ | hperform⟩
        · refine ⟨hstore ▸ hw, ?_⟩
          cases call <;> trivial
        · obtain ⟨hreply, hstore⟩ := Prod.ext_iff.1 hperform
          change reply = _ at hreply
          change w'.store = _ at hstore
          rw [hreply, hstore]
          exact ⟨hw.perform hmay, hw.tells call⟩
    | publish event => exact ⟨(World.Answers.publish hans).1 ▸ hw, trivial⟩
    | _ => exact ⟨(World.Answers.quiet (by trivial) hans).1 ▸ hw, trivial⟩

/-! ## What members put -/

/-- A request that puts no handle follows the discipline, whatever is allowed. -/
theorem Request.namesServices_of {r : Request} (hinsert : ∀ handles, r ≠ .store (.insert handles))
    (hsave : ∀ h, r ≠ .store (.save h)) : r.NamesServices allowed := by
  cases r with
  | store call =>
      cases call with
      | insert handles => exact absurd rfl (hinsert handles)
      | save h => exact absurd rfl (hsave h)
      | _ => trivial
  | _ => trivial

theorem Request.WorksOn.namesServices {kind : SyncKind} {id : HandleId} {r : Request} (h : r.WorksOn kind id) :
    r.NamesServices allowed := by
  apply Request.namesServices_of
  · rintro handles rfl
    exact h
  · rintro g rfl
    exact h

theorem Request.Moves.namesServices {id : HandleId} {r : Request} (h : r.Moves id) : r.NamesServices allowed :=
  (h.worksOn : r.WorksOn .data id).namesServices

theorem Request.Deletes.namesServices {ids : List HandleId} {r : Request} (h : r.Deletes ids) :
    r.NamesServices allowed := by
  apply Request.namesServices_of
  · rintro handles rfl
    exact h
  · rintro g rfl
    exact h

/-- A program follows the discipline by what it asks for, if it puts no handle that it read. -/
theorem Program.Asks.naming {α : Type} {p : Program α} (h : p.Asks (Request.NamesServices allowed)) :
    p.Ensures (namingServices allowed).own (fun _ _ => True) () :=
  h.ensures (I := fun _ => True) trivial fun _ _ hr _ => ⟨hr, fun _ _ _ => trivial⟩

namespace Inventory

variable {topic : String}

theorem naming_screen {endpoints : Endpoints} {seen : List HandleId} {requested : List RequestedHandle} :
    (screen endpoints seen requested).Ensures (namingServices allowed).own
      (fun candidates _ => ∀ h ∈ admittedHandles candidates, h.endpoints = endpoints) () := by
  induction requested generalizing seen with
  | nil => exact fun h hmem => absurd hmem List.not_mem_nil
  | cons r rest ih =>
      rw [screen]
      cases HandleId.parse r.id with
      | error flaw => exact ih.bind fun _ _ hmore => hmore
      | ok id =>
          dsimp only
          split
          · exact ih.bind fun _ _ hmore => hmore
          · refine Program.ensures_bind.2 ((namingServices allowed).own_request trivial fun now _ => ?_)
            refine ih.bind fun more _ hmore => ?_
            intro h hmem
            rcases List.mem_cons.1 hmem with rfl | hmem
            · rfl
            · exact hmore h hmem

theorem naming_accept {handles : List Handle} (hall : ∀ h ∈ handles, allowed h.endpoints) :
    (accept handles).Ensures (namingServices allowed).own
      (fun result _ => ∀ h ∈ result.1, allowed h.endpoints) () := by
  induction handles with
  | nil => exact hall
  | cons h rest ih =>
      rcases List.forall_mem_cons.1 hall with ⟨hfirst, hrest⟩
      rw [accept]
      split
      · refine Program.ensures_bind.2 ((namingServices allowed).own_request trivial fun now _ => ?_)
        refine (ih hrest).bind fun result _ hmore => ?_
        exact List.forall_mem_cons.2 ⟨hfirst, hmore⟩
      · exact (ih hrest).bind fun result _ hmore => hmore

theorem naming_announceNew {present : List HandleId} {handles : List Handle} :
    (announceNew topic present handles).Asks (Request.NamesServices allowed) :=
  asks_announceNew fun _ => moves_announce.mono fun _ hr => hr.namesServices

theorem naming_register {handles : List Handle} (hall : ∀ h ∈ handles, allowed h.endpoints) :
    (register topic handles).Ensures (namingServices allowed).own (fun _ _ => True) () := by
  rw [register]
  refine (naming_accept hall).bind fun result _ hadmitted => ?_
  refine Program.ensures_bind.2 ((namingServices allowed).own_request hadmitted fun reply _ => ?_)
  -- Whatever the store answers, no other handle is put.
  cases reply with
  | ok _ => exact naming_announceNew.naming.bind fun _ _ _ => trivial
  | error e => cases e <;> first | exact naming_announceNew.naming.bind fun _ _ _ => trivial | trivial

/-- New handles have the services that the creation names, if these are accepted. -/
theorem naming_create {endpoints : Endpoints} {requested : List RequestedHandle}
    (hallowed : endpoints.flaw? = none → allowed endpoints) :
    (create topic endpoints requested).run.Ensures (namingServices allowed).own (fun _ _ => True) () := by
  rw [create]
  cases hflaw : endpoints.flaw? with
  | some flaw => trivial
  | none =>
      have hcreated : (do
          let candidates ← screen endpoints [] requested
          let result ← register topic (admittedHandles candidates)
          return candidates.map (Candidate.response result) : Program (List HandleResponse)).Ensures
            (namingServices allowed).own (fun _ _ => True) () := by
        -- All candidates have the services of the request, which were found to be in order.
        refine naming_screen.bind fun candidates _ hcandidates => ?_
        refine Program.Ensures.bind (naming_register fun h hmem => ?_) fun _ _ _ => trivial
        rw [hcandidates h hmem]
        exact hallowed hflaw
      exact hcreated.bind fun _ _ _ => trivial

/-- An update puts a handle that was read, with other properties. -/
theorem naming_updateOne {r : RequestedHandle} :
    (updateOne r).Ensures (namingServices allowed).own (fun _ _ => True) () := by
  rw [updateOne]
  cases HandleId.parse r.id with
  | error flaw => trivial
  | ok id =>
      refine Program.ensures_bind.2 ((namingServices allowed).own_request trivial fun found htold => ?_)
      cases found with
      | error e => cases e <;> trivial
      | ok h =>
          -- The changed handle has the services of the one that was told.
          refine Program.ensures_bind.2 ((namingServices allowed).own_request htold fun saved _ => ?_)
          cases saved <;> trivial

theorem naming_update {requested : List RequestedHandle} :
    (update requested).Ensures (namingServices allowed).own (fun _ _ => True) () :=
  Program.ensures_mapM (I := fun _ _ _ => True) (fun _ _ _ _ _ => naming_updateOne) trivial

theorem naming_remove {rawIds : List String} :
    (remove topic rawIds).Asks (Request.NamesServices allowed) :=
  asks_remove (fun _ _ hr => hr.namesServices) (fun _ => trivial) fun _ hr => hr.namesServices

theorem naming_process {r : Registration} (hallowed : r.endpoints.flaw? = none → allowed r.endpoints) :
    (process topic r).run.Ensures (namingServices allowed).own (fun _ _ => True) () := by
  rw [process]
  cases r.endpoints.flaw? with
  | some flaw => trivial
  | none =>
      refine keeps_choice (I := fun _ => True) trivial (naming_remove.naming.bind fun _ _ _ => trivial) ?_
      refine fun removed _ _ => keeps_choice (I := fun _ => True) trivial (naming_create hallowed) ?_
      refine fun created _ _ => keeps_choice (I := fun _ => True) trivial (naming_update.bind fun _ _ _ => trivial) ?_
      exact fun updated _ _ => trivial

theorem naming_visitAll {m : Member} {kind : SyncKind} {bound : Nat} :
    (visitAll (pick kind) (attempt m kind) bound [] .empty).Asks (Request.NamesServices allowed) :=
  asks_visitAll (fun _ => asks_pick (fun _ => trivial) (fun _ => trivial) (fun _ => trivial) fun _ => trivial)
    fun _ => asks_attempt trivial trivial fun _ hr => hr.namesServices

theorem naming_dataCycle {m : Member} {bound : Nat} :
    (dataCycle m bound).Asks (Request.NamesServices allowed) := by
  rw [dataCycle_eq]
  exact naming_visitAll

theorem naming_moduleCycle {m : Member} {bound : Nat} :
    (moduleCycle m bound).Asks (Request.NamesServices allowed) := by
  have hreadvise : (readvise m).Asks (Request.NamesServices allowed) :=
    (Program.asks_request trivial).bind fun _ =>
      asks_readviseAt (fun _ _ hr => hr.namesServices) fun _ => trivial
  rw [moduleCycle_eq]
  exact hreadvise.bind fun _ => naming_visitAll

end Inventory
end

/-! ## Demands -/

/-- A demand names these services for new handles, and they are accepted. -/
def Demand.Accepts (e : Endpoints) : Demand → Prop
  | .create _ endpoints _ => endpoints = e ∧ e.flaw? = none
  | .process _ registration => registration.endpoints = e ∧ e.flaw? = none
  | _ => False

theorem Demand.Accepts.flaw?_eq {d : Demand} {e : Endpoints} (h : d.Accepts e) : e.flaw? = none := by
  cases d with
  | create topic endpoints requested => exact h.2
  | process topic registration => exact h.2
  | _ => exact h.elim

theorem Demand.naming_program {allowed : Endpoints → Prop} {d : Demand} (h : ∀ e, d.Accepts e → allowed e) :
    d.program.Ensures (namingServices allowed).own (fun _ _ => True) () := by
  cases d with
  | create topic endpoints requested =>
      exact (Inventory.naming_create fun hflaw => h _ ⟨rfl, hflaw⟩).bind fun _ _ _ => trivial
  | update requested => exact Inventory.naming_update.bind fun _ _ _ => trivial
  | remove topic rawIds => exact Inventory.naming_remove.naming.bind fun _ _ _ => trivial
  | process topic registration =>
      exact (Inventory.naming_process fun hflaw => h _ ⟨rfl, hflaw⟩).bind fun _ _ _ => trivial
  | dataCycle m bound => exact Inventory.naming_dataCycle.naming.bind fun _ _ _ => trivial
  | moduleCycle m bound => exact Inventory.naming_moduleCycle.naming.bind fun _ _ _ => trivial
  | wait length => trivial

theorem Demand.naming_script {allowed : Endpoints → Prop} {demands : List Demand}
    (h : ∀ d ∈ demands, ∀ e, d.Accepts e → allowed e) :
    (Demand.script demands).Ensures (namingServices allowed).own (fun _ _ => True) () := by
  induction demands with
  | nil => trivial
  | cons d rest ih =>
      rcases List.forall_mem_cons.1 h with ⟨hfirst, hrest⟩
      rw [Demand.script, List.mapM_cons]
      refine (Demand.naming_program hfirst).bind fun _ _ _ => ?_
      refine (ih hrest).bind fun _ _ _ => ?_
      trivial

/-- Every stored handle has services that a demand named and that were accepted. -/
theorem accepted_of_stored {members : List (List Demand)} {turns : List (Turn World)}
    {qs : List (Program (List Unit))} {w : World} {id : HandleId} {h : Handle}
    (hrun : Interleaved (World.Answers fun _ => True) (members.map Demand.script) .empty turns qs w)
    (hr : w.store.record? id = some h) : ∃ demands ∈ members, ∃ d ∈ demands, d.Accepts h.endpoints := by
  have hkept := hrun.kept
    (D := namingServices fun e => ∃ demands ∈ members, ∃ d ∈ demands, d.Accepts e)
    (Q := fun _ _ _ => True) Store.namesServices_empty ?_
  · exact hkept.1.services id h hr
  · -- Each member puts handles with services of its own demands only.
    intro i p hp
    obtain ⟨demands, hdemands, rfl⟩ := List.mem_map.1 (List.mem_of_getElem? hp)
    exact Demand.naming_script fun d hd e he => ⟨demands, hdemands, d, hd, he⟩

/-- For a handle with accepted services the client finds both bases, unless a name is made of slashes alone, and
exactly then a call for it fails for want of an endpoint. Every handle that is ever stored is such a handle. -/
theorem endpoint_missing_iff_slashes (h : Handle) :
    (h.endpoints.flaw? = none → PluginClient.Decides h) ∧
      ∀ (members : List (List Demand)) (turns : List (Turn World)) (qs : List (Program (List Unit))) (w : World),
        Interleaved (World.Answers fun _ => True) (members.map Demand.script) .empty turns qs w →
          ∀ id, w.store.record? id = some h →
            (∃ demands ∈ members, ∃ d ∈ demands, d.Accepts h.endpoints) ∧ PluginClient.Decides h := by
  refine ⟨fun haccepted => PluginClient.decides_of_accepted haccepted, ?_⟩
  intro members turns qs w hrun id hr
  obtain ⟨demands, hdemands, d, hd, haccepts⟩ := accepted_of_stored hrun hr
  exact ⟨⟨demands, hdemands, d, hd, haccepts⟩, PluginClient.decides_of_accepted haccepts.flaw?_eq⟩

/-- A creation that names a slash for its only service. -/
def slashDemand : Demand :=
  .create "lcm" ⟨"/", "", ""⟩ [{ (default : RequestedHandle) with id := "a" }]

/-- The handle that it stores. -/
def slashHandle : Handle :=
  Inventory.newHandle ⟨"a"⟩ ⟨"/", "", ""⟩ { (default : RequestedHandle) with id := "a" } default

/-- The handle is created, and its modules can never be asked for. -/
theorem endpoint_missing_of_slash : ∃ turns qs w h,
    Interleaved (World.Answers fun _ => True) ([[slashDemand]].map Demand.script) .empty turns qs w ∧
      w.store.record? ⟨"a"⟩ = some h ∧ ∀ transport, PluginClient.Misses (PluginClient.modules transport h) := by
  have answered := World.answers_undisturbed fun _ => True
  have h₀ := @Interleaved.start _ _ (World.Answers fun _ => True) ([[slashDemand]].map Demand.script) .empty
  have h₁ := h₀.snoc 0 rfl (answered _ _)
  have h₂ := h₁.snoc 0 rfl (answered _ _)
  -- The store is asked to insert the handle, and it has none of its id.
  have hinsert : Store.empty.perform (.insert [slashHandle]) = (.ok (), Store.empty.putHandle slashHandle) := rfl
  have h₃ := h₂.snoc 0 rfl (World.answers_store _ _ hinsert)
  have hstored : (Store.empty.putHandle slashHandle).record? ⟨"a"⟩ = some slashHandle :=
    (Store.record?_putHandle ..).trans (if_pos rfl)
  refine ⟨_, _, _, slashHandle, h₃, hstored, fun transport => ?_⟩
  have hslashes : Text.IsSlashes "/" := ⟨[], 0, [], rfl, by simp, by simp⟩
  exact (((endpoint_missing_iff_slashes slashHandle).2 _ _ _ _ h₃ _ hstored).2.modules transport).2 hslashes

end CmInventory
