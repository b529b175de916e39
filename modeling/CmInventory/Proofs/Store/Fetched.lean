import CmInventory.Program.Request
import CmInventory.Proofs.Store.Records

/-!
# What was fetched for a handle

Beside the record of a handle the store keeps what was fetched for it from its plugin, the operational data and
the modules (`Store.fetched?`). They stand in tables of their own, under the id alone: a save asks for no record,
and only a deletion of the record takes them along. What a call makes of them when it is performed is
`StoreCall.leaves?`.
-/

namespace CmInventory

/-- What is kept of a handle beside its record. -/
inductive Fetched
  | data (text : String)
  | modules (list : List ModuleReference)
  deriving DecidableEq

namespace Fetched

/-- Modules, if there are any. -/
def ofModules : List ModuleReference → Option Fetched
  | [] => none
  | m :: rest => some (.modules (m :: rest))

theorem ofModules_injective : Function.Injective Fetched.ofModules := by
  intro a b h
  cases a with
  | nil =>
      cases b with
      | nil => rfl
      | cons n rest => cases h
  | cons m rest =>
      cases b with
      | nil => cases h
      | cons n others =>
          cases h
          rfl

end Fetched

/-- What is kept under an id of what one kind of work fetches. -/
def Store.fetched? (s : Store) (kind : SyncKind) (id : HandleId) : Option Fetched :=
  match kind with
  | .data => (s.data.find? id.text).map .data
  | .modules => Fetched.ofModules (s.getModules id)

/-- What is kept under an id after a call, if the call has to do with it: a save keeps what is saved, and a
deletion keeps nothing. -/
def StoreCall.leaves? (kind : SyncKind) (id : HandleId) : StoreCall → Option (Option Fetched)
  | .saveData i data => if kind = .data ∧ i = id then some (some (.data data.render)) else none
  | .deleteData i => if kind = .data ∧ i = id then some none else none
  | .saveModules i modules =>
      if kind = .modules ∧ i = id then some (Fetched.ofModules (Store.arrange modules)) else none
  | .delete i => if i = id then some none else none
  | .deleteAll ids => if id ∈ ids then some none else none
  | _ => none

namespace Store

variable {s : Store} {kind : SyncKind} {id : HandleId}

/-- Only the tables of what was fetched matter. -/
theorem fetched?_congr {s' : Store} (hdata : s'.data = s.data) (hmodules : s'.modules = s.modules) :
    s'.fetched? kind id = s.fetched? kind id := by
  cases kind with
  | data => rw [fetched?, fetched?, hdata]
  | modules => rw [fetched?, fetched?, Store.getModules, Store.getModules, hmodules]

/-! ## Reading -/

theorem getData_of_fetched? {text : String} (h : s.fetched? .data id = some (.data text)) :
    s.getData id = ((Json.decode .value text).map some).mapError .unreadable := by
  obtain ⟨kept, hkept, heq⟩ := Option.map_eq_some_iff.1 h
  cases heq
  rw [getData, hkept]

theorem getData_of_none (h : s.fetched? .data id = none) : s.getData id = .ok none := by
  rw [getData, Option.map_eq_none_iff.1 h]

/-! ## Calls -/

theorem fetched?_insert (kind : SyncKind) (id : HandleId) (s : Store) (handles : List Handle) :
    (s.insert handles).2.fetched? kind id = s.fetched? kind id := by
  induction handles generalizing s with
  | nil => rfl
  | cons h rest ih =>
      rw [insert]
      split
      · exact ih s
      · exact (ih (s.putHandle h)).trans (fetched?_congr rfl rfl)

theorem fetched?_overwrite (kind : SyncKind) (id : HandleId) (s : Store) (h : Handle) :
    (s.overwrite h).fetched? kind id = s.fetched? kind id := by
  rw [overwrite]
  split
  · exact fetched?_congr rfl rfl
  · rfl

theorem fetched?_replaceStatus {expected : Option Lifecycle} {i : HandleId} {status : HandleStatus}
    {written : Bool} {s' : Store} (h : s.replaceStatus i expected status = .ok (written, s')) :
    s'.fetched? kind id = s.fetched? kind id := by
  rw [replaceStatus] at h
  cases hget : s.get i with
  | error e => simp [hget, bind, Except.bind] at h
  | ok g =>
      have hover := fetched?_overwrite kind id s { g with status := status }
      cases expected with
      | none =>
          simp only [hget, bind, Except.bind, pure, Except.pure, Except.ok.injEq, Prod.mk.injEq] at h
          rw [← h.2, hover]
      | some state =>
          by_cases hlife : g.lifecycle = state
          · simp only [hget, bind, Except.bind, pure, Except.pure, hlife, if_true, Except.ok.injEq,
              Prod.mk.injEq] at h
            rw [← h.2, hover]
          · simp only [hget, bind, Except.bind, pure, Except.pure, hlife, if_false, Except.ok.injEq,
              Prod.mk.injEq] at h
            rw [← h.2]

/-- A deletion takes what was fetched along with the record. -/
theorem fetched?_delete {i : HandleId} {s' : Store} (h : s.delete i = .ok s') :
    s'.fetched? kind id = if i = id then none else s.fetched? kind id := by
  rw [delete] at h
  split at h
  · cases h
  split at h
  · cases h
    cases kind with
    | data =>
        simp only [fetched?, Dictionary.find?_erase, HandleId.text_inj]
        split <;> rfl
    | modules =>
        simp only [fetched?, Store.getModules, Dictionary.find?_erase, HandleId.text_inj]
        split <;> rfl
  · cases h

theorem fetched?_deleteAll {ids : List HandleId} {s' : Store} (h : s.deleteAll ids = .ok s') :
    s'.fetched? kind id = if id ∈ ids then none else s.fetched? kind id := by
  induction ids generalizing s with
  | nil =>
      cases h
      simp
  | cons i rest ih =>
      rw [deleteAll] at h
      cases hdel : s.delete i with
      | error e => simp [hdel, bind, Except.bind] at h
      | ok s₁ =>
          rw [hdel] at h
          rw [ih h, fetched?_delete hdel]
          by_cases hrest : id ∈ rest
          · simp [hrest]
          · by_cases hi : i = id
            · simp [hi]
            · simp [hrest, hi, Ne.symm hi]

theorem fetched?_saveData (s : Store) (i : HandleId) (data : Json.Value) :
    (s.saveData i data).fetched? kind id =
      (StoreCall.leaves? kind id (.saveData i data)).getD (s.fetched? kind id) := by
  cases kind with
  | data =>
      simp only [fetched?, saveData, Dictionary.find?_insert, HandleId.text_inj, StoreCall.leaves?, true_and]
      split <;> rfl
  | modules => rfl

theorem fetched?_deleteData (s : Store) (i : HandleId) :
    (s.deleteData i).fetched? kind id =
      (StoreCall.leaves? kind id (.deleteData i)).getD (s.fetched? kind id) := by
  cases kind with
  | data =>
      simp only [fetched?, deleteData, Dictionary.find?_erase, HandleId.text_inj, StoreCall.leaves?, true_and]
      split <;> rfl
  | modules => rfl

theorem fetched?_saveModules (s : Store) (i : HandleId) (modules : List ModuleReference) :
    (s.saveModules i modules).fetched? kind id =
      (StoreCall.leaves? kind id (.saveModules i modules)).getD (s.fetched? kind id) := by
  cases kind with
  | data => rfl
  | modules =>
      simp only [fetched?, saveModules, Store.getModules, Dictionary.find?_insert, HandleId.text_inj,
        StoreCall.leaves?, true_and]
      split <;> rfl

theorem fetched?_save {g : Handle} {s' : Store} (h : s.save g = .ok s') :
    s'.fetched? kind id = s.fetched? kind id := by
  rw [save] at h
  split at h
  · cases h
    exact fetched?_congr rfl rfl
  · cases h

/-- A call that settles with another store leaves what is kept there, if it succeeds. -/
theorem fetched?_settle {result : Except StoreError Store} {reply : Except StoreError Unit} {s' : Store}
    {left : Option (Option Fetched)} (h : (reply, s') = s.settle result)
    (hok : ∀ s₁, result = .ok s₁ → s₁.fetched? kind id = left.getD (s.fetched? kind id)) :
    s'.fetched? kind id = (if reply.isOk then left else none).getD (s.fetched? kind id) := by
  cases result with
  | error e =>
      cases h
      rfl
  | ok s₁ =>
      cases h
      exact hok s' rfl

/-- What was fetched is as a performed call leaves it, and a call that gives an error leaves it as it was. -/
theorem fetched?_perform {call : StoreCall} {reply : Except StoreError call.Answer} {s' : Store}
    (h : (reply, s') = s.perform call) :
    s'.fetched? kind id =
      (if reply.isOk then call.leaves? kind id else none).getD (s.fetched? kind id) := by
  cases call with
  | insert handles =>
      have hinsert := fetched?_insert kind id s handles
      rw [Store.perform] at h
      split at h <;> rename_i heq <;> rw [heq] at hinsert <;> cases h <;> exact hinsert
  | save g => exact fetched?_settle h fun s₁ hsave => fetched?_save hsave
  | saveStatus i status =>
      refine fetched?_settle h fun s₁ hwritten => ?_
      cases hrep : s.replaceStatus i none status with
      | error e =>
          rw [hrep] at hwritten
          cases hwritten
      | ok result =>
          rw [hrep] at hwritten
          cases hwritten
          exact fetched?_replaceStatus hrep
  | saveStatusIf i expected status =>
      rw [Store.perform] at h
      cases hrep : s.replaceStatus i (some expected) status with
      | error e =>
          rw [hrep] at h
          cases h
          rfl
      | ok result =>
          rw [hrep] at h
          cases h
          exact fetched?_replaceStatus hrep
  | delete i =>
      refine fetched?_settle h fun s₁ hdeleted => ?_
      rw [fetched?_delete hdeleted, StoreCall.leaves?]
      split <;> rfl
  | deleteAll ids =>
      refine fetched?_settle h fun s₁ hdeleted => ?_
      rw [fetched?_deleteAll hdeleted, StoreCall.leaves?]
      split <;> rfl
  | saveData i data =>
      cases h
      exact fetched?_saveData s i data
  | deleteData i =>
      cases h
      exact fetched?_deleteData s i
  | saveModules i modules =>
      cases h
      exact fetched?_saveModules s i modules
  | _ =>
      -- All other calls only read.
      rcases Prod.mk.inj h with ⟨-, rfl⟩
      cases reply <;> rfl

end Store
end CmInventory
