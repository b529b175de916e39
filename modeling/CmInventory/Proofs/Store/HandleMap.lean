import CmInventory.Proofs.Store.Selections
import Mathlib.Data.List.Induction
import Mathlib.Logic.Function.Basic

/-!
# The store as a map of handles

To its callers the store is a map from ids to handles (`HandleMap`), in which nothing is known of rows, of texts
or of the names that stand beside the records. What a call makes of the map is `HandleMap.after`, and what it may
answer is `HandleMap.Tells`. The records of a sound store are such a map, and each call of the store takes them
where the map goes (`Store.Sound.record?_after`) and answers from them (`Store.Sound.tells`). So whatever was
called before, the answer to the next call is that of the map (`Store.answers_as_map`).
-/

namespace CmInventory

/-- What is stored, by the ids. -/
abbrev HandleMap := HandleId → Option Handle

namespace HandleMap

def empty : HandleMap := fun _ => none

/-! ## What a call makes of the map -/

/-- A handle that is stored stays, and otherwise the first of its id is stored. -/
def insert (m : HandleMap) (handles : List Handle) : HandleMap := fun id =>
  (m id).or (handles.find? fun h => h.id = id)

/-- Changes the handle under an id, if there is one. -/
def rewrite (m : HandleMap) (id : HandleId) (f : Handle → Handle) : HandleMap :=
  Function.update m id ((m id).map f)

def delete (m : HandleMap) (id : HandleId) : Except StoreError HandleMap :=
  if !id.isValid then .error (.invalidId id.text)
  else if (m id).isSome then .ok (Function.update m id none)
  else .error (.notFound id.text)

/-- Deletes one id after the other, as long as each of them can be deleted. -/
def deleteAll (m : HandleMap) (ids : List HandleId) : Except StoreError HandleMap :=
  ids.foldlM delete m

/-- The map after a change that may have failed. -/
def settle (m : HandleMap) (change : Except StoreError HandleMap) : HandleMap :=
  change.toOption.getD m

/-- The map after a call. -/
def after (m : HandleMap) : StoreCall → HandleMap
  | .insert handles => m.insert handles
  | .save h => m.rewrite h.id fun _ => h
  | .saveStatus id status => m.rewrite id fun h => { h with status := status }
  | .saveStatusIf id expected status =>
      m.rewrite id fun h => if h.lifecycle = expected then { h with status := status } else h
  | .delete id => m.settle (m.delete id)
  | .deleteAll ids => m.settle (m.deleteAll ids)
  | _ => m

/-- The map after calls that began with nothing stored. -/
def afterCalls (calls : List StoreCall) : HandleMap :=
  calls.foldl after empty

/-! ## What a call answers -/

/-- The handle under an id. -/
def get (m : HandleMap) (id : HandleId) : Except StoreError Handle :=
  match m id with
  | some h => .ok h
  | none => .error (.notFound id.text)

/-- The ids of those handles of a batch that are not stored: something is stored under the id already, or an
earlier handle of the batch has it. -/
def refused (m : HandleMap) (handles : List Handle) : List HandleId :=
  (handles.zipIdx.filter fun (h, i) => (m h.id).isSome || (handles.take i).any (·.id = h.id)).map (·.1.id)

/-- A list that holds the handles that satisfy a condition, each of them once. -/
def Lists (m : HandleMap) (p : Handle → Prop) (found : List Handle) : Prop :=
  (found.map (·.id)).Nodup ∧ ∀ h, h ∈ found ↔ m h.id = some h ∧ p h

/-- The numbers of the handles in each lifecycle state that occurs. -/
def Counts (m : HandleMap) (counts : List (Lifecycle × Nat)) : Prop :=
  (counts.map (·.1)).Nodup ∧
    ∀ state, ∃ found, m.Lists (·.lifecycle = state) found ∧
      ∀ n, (state, n) ∈ counts ↔ n = found.length ∧ found ≠ []

/-- The answer to a call, if it is asked of the map. Calls that have to do with something else than handles
may answer anything. -/
def Tells (m : HandleMap) : (call : StoreCall) → Except StoreError call.Answer → Prop
  | .get id, reply => reply = m.get id
  | .getMany ids, reply => reply = .ok (ids.filterMap m)
  | .status id, reply => reply = (m.get id).map (·.status)
  | .byLifecycle state, reply => ∃ found, reply = .ok found ∧ m.Lists (·.lifecycle = state) found
  | .bySyncState state, reply => ∃ found, reply = .ok found ∧ m.Lists (·.status.syncState = state) found
  | .byLockCategory category, reply => ∃ found, reply = .ok found ∧
      m.Lists (fun h => h.lifecycle = .locked ∧
        ∃ reason, h.status.lockReason = some reason ∧ reason.category = category) found
  | .insert handles, reply =>
      reply = if m.refused handles = [] then .ok () else .error (.alreadyExists (m.refused handles))
  | .save h, reply => reply = (m.get h.id).map fun _ => ()
  | .saveStatus id _, reply => reply = (m.get id).map fun _ => ()
  | .saveStatusIf id expected _, reply => reply = (m.get id).map fun h => decide (h.lifecycle = expected)
  | .delete id, reply => reply = (m.delete id).map fun _ => ()
  | .deleteAll ids, reply => reply = (m.deleteAll ids).map fun _ => ()
  | .countByLifecycle, reply => ∃ counts, reply = .ok counts ∧ m.Counts counts
  | _, _ => True

/-! ## Batches -/

variable {m : HandleMap} {h : Handle}

/-- Whether a handle of the rest is refused does not depend on whether the first one is. -/
theorem refused_cons (m : HandleMap) (h : Handle) (rest : List Handle) :
    m.refused (h :: rest) =
      (if (m h.id).isSome then [h.id] else []) ++ refused (Function.update m h.id (some h)) rest := by
  have hcond : ∀ (g : Handle) i, ((m g.id).isSome || ((h :: rest).take (i + 1)).any (·.id = g.id)) =
      ((Function.update m h.id (some h) g.id).isSome || (rest.take i).any (·.id = g.id)) := by
    intro g i
    rw [List.take_succ_cons, List.any_cons]
    by_cases hid : g.id = h.id
    · simp [hid]
    · simp [Function.update_of_ne hid, Ne.symm hid]
  rw [refused, refused, List.zipIdx_cons', List.filter_cons, List.filter_map]
  simp only [Function.comp_def, hcond, Prod.map]
  cases (m h.id).isSome <;> simp

/-- What is refused depends on the ids alone under which something is stored. -/
theorem refused_update_of_isSome (hm : (m h.id).isSome) (handles : List Handle) :
    refused (Function.update m h.id (some h)) handles = m.refused handles := by
  have htaken : ∀ id, (Function.update m h.id (some h) id).isSome = (m id).isSome := by
    intro id
    by_cases hid : id = h.id
    · simp [hid, hm]
    · rw [Function.update_of_ne hid]
  simp only [refused, htaken]

/-! ## Changes of one handle -/

theorem rewrite_of_none {id : HandleId} (hm : m id = none) (f : Handle → Handle) : m.rewrite id f = m := by
  rw [rewrite, hm, Option.map_none, ← hm, Function.update_eq_self]

theorem rewrite_of_some {id : HandleId} (hm : m id = some h) (f : Handle → Handle) :
    m.rewrite id f = Function.update m id (some (f h)) := by
  rw [rewrite, hm, Option.map_some]

theorem get_of_none {id : HandleId} (hm : m id = none) : m.get id = .error (.notFound id.text) := by
  rw [get, hm]

theorem get_of_some {id : HandleId} (hm : m id = some h) : m.get id = .ok h := by
  rw [get, hm]

end HandleMap

namespace Store

open HandleMap

variable {s : Store}

/-! ## Each operation on the records -/

theorem records_putHandle (s : Store) (h : Handle) :
    (s.putHandle h).record? = Function.update s.record? h.id (some h) := by
  funext id
  rw [record?_putHandle, Function.update_apply]
  exact if_congr eq_comm rfl rfl

theorem Sound.records_insert (hs : s.Sound) (handles : List Handle) :
    (s.insert handles).2.record? = HandleMap.insert s.record? handles :=
  funext fun id => hs.record?_insert handles id

theorem Sound.insert_refused (hs : s.Sound) (handles : List Handle) :
    (s.insert handles).1 = refused s.record? handles := by
  -- A refused handle is not put, but its id is taken either way, and nothing else counts for the rest.
  induction handles generalizing s with
  | nil => rfl
  | cons h rest ih =>
      rw [insert, refused_cons, hs.contains_eq]
      cases hr : (s.record? h.id).isSome with
      | true => rw [if_pos rfl, if_pos rfl, refused_update_of_isSome hr, ← ih hs]; rfl
      | false =>
          rw [if_neg Bool.false_ne_true, if_neg Bool.false_ne_true, ← records_putHandle,
            ← ih (hs.putHandle h), List.nil_append]

theorem Sound.records_delete (hs : s.Sound) (id : HandleId) :
    (s.delete id).map record? = HandleMap.delete s.record? id := by
  rw [delete, HandleMap.delete, hs.contains_eq]
  split
  · rfl
  split
  · refine congrArg Except.ok (funext fun other => ?_)
    rw [record?_erase, Function.update_apply]
    exact if_congr eq_comm rfl rfl
  · rfl

theorem Sound.records_deleteAll (hs : s.Sound) (ids : List HandleId) :
    (s.deleteAll ids).map record? = HandleMap.deleteAll s.record? ids := by
  induction ids generalizing s with
  | nil => rfl
  | cons id rest ih =>
      rw [deleteAll, HandleMap.deleteAll, List.foldlM_cons, ← hs.records_delete id]
      cases hdel : s.delete id with
      | error e => rfl
      | ok t => exact ih (hs.delete_ok hdel).1

theorem records_settle (s : Store) (change : Except StoreError Store) :
    (s.settle change).2.record? = HandleMap.settle s.record? (change.map record?) := by
  cases change <;> rfl

theorem settle_reply (s : Store) (change : Except StoreError Store) :
    (s.settle change).1 = (change.map record?).map fun _ => () := by
  cases change <;> rfl

theorem insert_reply (s : Store) (handles : List Handle) :
    (s.perform (.insert handles)).1 =
      if (s.insert handles).1 = [] then .ok () else .error (.alreadyExists (s.insert handles).1) := by
  rw [Store.perform]
  rcases s.insert handles with ⟨present, t⟩
  cases present <;> rfl

/-! ## Each call on the map -/

/-- A call takes the records of a store where it takes the map. -/
theorem Sound.record?_after (hs : s.Sound) (call : StoreCall) :
    (s.perform call).2.record? = HandleMap.after s.record? call := by
  -- The writes put a handle under its own id, which is the id it was found under.
  have hwrite : ∀ {id : HandleId} {h g : Handle} (f : Handle → Handle), s.record? id = some h →
      g.id = h.id → f h = g → (s.putHandle g).record? = rewrite s.record? id f := by
    intro id h g f hr hid hf
    rw [rewrite_of_some hr, records_putHandle, hid, hs.id_of_record? hr, hf]
  cases call with
  | insert handles => rw [perform_insert, hs.records_insert, HandleMap.after]
  | save h =>
      rw [Store.perform, hs.save_eq, HandleMap.after]
      cases hr : s.record? h.id with
      | none => exact (rewrite_of_none hr _).symm
      | some g => exact hwrite _ hr (hs.id_of_record? hr).symm rfl
  | saveStatus id status =>
      rw [Store.perform, hs.replaceStatus_of, HandleMap.after]
      cases hr : s.record? id with
      | none => exact (rewrite_of_none hr _).symm
      | some g => exact hwrite _ hr rfl rfl
  | saveStatusIf id expected status =>
      rw [Store.perform, hs.replaceStatus_eq, HandleMap.after]
      cases hr : s.record? id with
      | none => exact (rewrite_of_none hr _).symm
      | some g =>
          by_cases hl : g.lifecycle = expected
          · simp only [if_pos hl]
            exact hwrite _ hr rfl (if_pos hl)
          · simp only [if_neg hl]
            rw [rewrite_of_some hr, if_neg hl, ← hr, Function.update_eq_self]
  | delete id => rw [Store.perform, records_settle, hs.records_delete, HandleMap.after]
  | deleteAll ids => rw [Store.perform, records_settle, hs.records_deleteAll, HandleMap.after]
  | _ => rfl

/-- A call answers what the map of the records answers. -/
theorem Sound.tells (hs : s.Sound) (call : StoreCall) : Tells s.record? call (s.perform call).1 := by
  cases call with
  | get id => exact hs.get_eq id
  | getMany ids => exact hs.getMany_eq ids
  | status id => exact congrArg (Except.map (·.status)) (hs.get_eq id)
  | byLifecycle state => exact hs.byLifecycle_eq state
  | bySyncState state => exact hs.bySyncState_eq state
  | byLockCategory category => exact hs.byLockCategory_eq category
  | insert handles =>
      rw [Tells, ← hs.insert_refused]
      exact insert_reply s handles
  | save h =>
      rw [Tells, Store.perform, hs.save_eq]
      cases hr : s.record? h.id with
      | none => rw [get_of_none hr]; rfl
      | some g => rw [get_of_some hr]; rfl
  | saveStatus id status =>
      rw [Tells, Store.perform, hs.replaceStatus_of]
      cases hr : s.record? id with
      | none => rw [get_of_none hr]; rfl
      | some g => rw [get_of_some hr]; rfl
  | saveStatusIf id expected status =>
      rw [Tells, Store.perform, hs.replaceStatus_eq]
      cases hr : s.record? id with
      | none => rw [get_of_none hr]; rfl
      | some g =>
          rw [get_of_some hr]
          by_cases hl : g.lifecycle = expected <;> simp [hl, Except.map]
  | delete id => rw [Tells, Store.perform, settle_reply, hs.records_delete]
  | deleteAll ids => rw [Tells, Store.perform, settle_reply, hs.records_deleteAll]
  | countByLifecycle =>
      rcases hs.countByLifecycle_eq with ⟨counts, hcounts, hnodup, hmem⟩
      refine ⟨counts, hcounts, hnodup, fun state => ?_⟩
      rcases hmem state with ⟨found, hfound, hn⟩
      rcases hs.byLifecycle_eq state with ⟨found', hfound', hlists⟩
      obtain rfl : found = found' := Except.ok.inj (hfound.symm.trans hfound')
      exact ⟨found, hlists, hn⟩
  | _ => exact trivial

/-! ## Sequences of calls -/

/-- The store after calls that began with nothing stored. -/
def afterCalls (calls : List StoreCall) : Store :=
  calls.foldl (fun s call => (s.perform call).2) empty

/-- Stores and maps that began empty are in step after every call. -/
theorem records_afterCalls (calls : List StoreCall) :
    (afterCalls calls).Sound ∧ (afterCalls calls).record? = HandleMap.afterCalls calls := by
  induction calls using List.reverseRecOn with
  | nil => exact ⟨sound_empty, funext record?_empty⟩
  | append_singleton calls call ih =>
      rw [afterCalls, HandleMap.afterCalls, List.foldl_concat, List.foldl_concat]
      exact ⟨ih.1.perform call, (ih.1.record?_after call).trans (congrArg (HandleMap.after · call) ih.2)⟩

/-- Whatever was called since the store was empty, the next call answers what the map answers. -/
theorem answers_as_map (calls : List StoreCall) (call : StoreCall) :
    Tells (HandleMap.afterCalls calls) call ((afterCalls calls).perform call).1 := by
  rcases records_afterCalls calls with ⟨hsound, hrecords⟩
  rw [← hrecords]
  exact hsound.tells call

end Store
end CmInventory
