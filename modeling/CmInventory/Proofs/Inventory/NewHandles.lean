import CmInventory.Proofs.Inventory.Demands
import CmInventory.Proofs.Program.Logged

/-!
# What is told of new handles

A registration of new handles tells of each handle of its batch whether it was stored. The store names the
handles that it did not take, one by one, and the registration looks up the ids that were named. So a handle
that is named twice among the advised ones is reported to be stored already, also if the first of the two
was stored just now: nothing is announced of it then. Everything else is told as it is (`BatchTold`), and all is
if no id that is new occurs twice (`registration_told_iff`).

Nothing is required of the store, and every call but the insertion may fail.
-/

namespace CmInventory

open Inventory

/-! ## Failures that a program does not meet -/

/-- A program that makes only some requests ends as it does alone, if of these requests only deletions may
fail. -/
theorem World.run_of_asks {α : Type} {c : Circumstances} {P : Request → Prop} {p : Program α}
    {Q : α → World → Prop} {w : World} (hp : p.Asks P)
    (hc : ∀ n call e, P (.store call) → c.storeFailure n call = some e → call.Deletes)
    (h : p.Ensures .alone Q w) : Q (p.run (World.reply c) w).1 (p.run (World.reply c) w).2 := by
  have hunder : p.Ensures (.under c) Q w := by
    refine h.within id hp (fun _ _ _ => trivial) fun r v reply v' hr hreply => ?_
    have hreply : World.reply c r (v.advance .zero) = (reply, v') := hreply
    refine World.answers_of_failures (fun n call e heq hfails => ?_) hreply
    subst heq
    exact hc n call e hr hfails
  exact hunder.under

/-- Whether a request does not call the store but for an insertion. -/
def Request.InsertsOnly : Request → Prop
  | .store (.insert _) => True
  | .store _ => False
  | _ => True

theorem insertsOnly_announce {topic : String} {id : HandleId} :
    (announce topic id none .advised).Asks Request.InsertsOnly :=
  (Program.asks_request trivial).bind fun _ => (Program.asks_request trivial).bind fun _ =>
    Program.asks_request trivial

theorem Request.InsertsOnly.deletes {c : Circumstances} (hc : ∀ n batch, c.storeFailure n (.insert batch) = none)
    (n : Nat) (call : StoreCall) (e : StoreError) (h : (Request.store call).InsertsOnly)
    (hfails : c.storeFailure n call = some e) : call.Deletes := by
  cases call with
  | insert batch =>
      rw [hc] at hfails
      cases hfails
  | _ => exact h.elim

/-! ## What is stored and what is told -/

/-- A row came into the store under an id. -/
def Store.Gains (s s' : Store) (id : HandleId) : Prop :=
  s.handles.contains id.text = false ∧ s'.handles.contains id.text = true

/-- The ids of the advised handles of a batch, each as often as it occurs. -/
def advisedIds (handles : List Handle) : List HandleId :=
  (advisedOf handles).map (·.id)

theorem Store.gains_insert {s : Store} {handles : List Handle} {id : HandleId} :
    s.Gains (s.insert handles).2 id ↔
      s.handles.contains id.text = false ∧ id ∈ handles.map (·.id) := by
  rw [Store.Gains, Dictionary.contains, Dictionary.contains, Store.row_insert]
  refine and_congr_right fun hnone => ?_
  rw [Option.isSome_eq_false_iff, Option.isNone_iff_eq_none] at hnone
  simp [hnone]

/-- What is told of a batch of new handles, and what was stored of it. -/
structure BatchTold (topic : String) (handles : List Handle) (w : World) (result : BatchResult) (w' : World) :
    Prop where
  /-- Stored are the first handles of the ids that the store did not have. -/
  gained : ∀ id, w.store.Gains w'.store id ↔
    w.store.handles.contains id.text = false ∧ id ∈ advisedIds handles
  stored : ∀ id, w.store.Gains w'.store id → ∃ h ∈ handles, h.id = id ∧ h.lifecycle = .advised ∧
    ∃ now, w'.store.get id = .ok (accepted h now)
  kept : ∀ id, ¬ w.store.Gains w'.store id →
    w'.store.handles.find? id.text = w.store.handles.find? id.text
  /-- Of these the ones are committed that occur once. -/
  committed : ∀ id, id ∈ result.committed ↔
    w.store.Gains w'.store id ∧ (advisedIds handles).count id = 1
  once : result.committed.Nodup
  announced : w.Announces topic (result.committed.map .birth) w'
  /-- All others fail. -/
  others : (handles.map (·.id)).Perm (result.committed ++ result.failed.map (·.1))
  unchanged : result.unchanged = []

/-- The ids of a batch are new, or named by the store, or those of handles that are not advised. -/
theorem perm_told (handles admitted : List Handle) (present : List HandleId)
    (h : Accepts handles admitted) :
    (handles.map (·.id)).Perm (newIds present admitted ++
      ((rejections handles).map (·.1) ++
        (admitted.map (·.id)).filter fun id => present.contains id)) := by
  have hbatch : (handles.map (·.id)).Perm
      (admitted.map (·.id) ++ (rejections handles).map (·.1)) := by
    have hrejected : (rejections handles).map (·.1) =
        (handles.filter fun h => !decide (h.lifecycle = .advised)).map (·.id) := by
      rw [rejections, List.map_map]
      rfl
    rw [h.map_id, hrejected, ← List.map_append]
    exact (List.filter_append_perm _ handles).symm.map _
  have hadmitted : (admitted.map (·.id)).Perm
      (((admitted.map (·.id)).filter fun id => present.contains id) ++ newIds present admitted) :=
    (List.filter_append_perm _ _).symm
  refine hbatch.trans ((hadmitted.append_right _).trans ?_)
  refine (List.perm_append_comm.append_right _).trans ?_
  rw [List.append_assoc]
  exact List.perm_append_comm.append_left _

theorem Inventory.Registers.told {topic : String} {handles : List Handle} {w w' : World} {result : BatchResult}
    (h : Registers topic handles w result w') : BatchTold topic handles w result w' := by
  rcases h with ⟨admitted, haccepts, hstore, rfl, hannounced⟩
  have hcommitted : (BatchResult.append ⟨[], [], rejections handles⟩
      (reportNew (w.store.insert admitted).1 admitted)).committed =
        newIds (w.store.insert admitted).1 admitted := rfl
  have hgained : ∀ id, w.store.Gains w'.store id ↔
      w.store.handles.contains id.text = false ∧ id ∈ advisedIds handles := by
    intro id
    rw [hstore, Store.gains_insert, haccepts.map_id, advisedIds]
  refine ⟨hgained, ?_, ?_, ?_, ?_, ?_, ?_, rfl⟩
  · intro id hgains
    rcases (hgained id).1 hgains with ⟨hnone, hmem⟩
    rw [Dictionary.contains, Option.isSome_eq_false_iff, Option.isNone_iff_eq_none] at hnone
    rw [advisedIds, ← haccepts.map_id] at hmem
    rcases List.mem_map.1 hmem with ⟨b, hb, hid⟩
    obtain ⟨a, ha⟩ : ∃ a, (admitted.find? fun h => h.id = id) = some a :=
      Option.isSome_iff_exists.1 (List.find?_isSome.2 ⟨b, hb, decide_eq_true hid⟩)
    rcases haccepts.exists_of_mem (List.mem_of_find?_eq_some ha) with ⟨g, hg, hadv, now, rfl⟩
    have hfirst : (accepted g now).id = id := by simpa using List.find?_some ha
    refine ⟨g, hg, hfirst, hadv, now, ?_⟩
    rw [Store.get, hstore, Store.row_insert, hnone, ha]
    exact HandleRow.handle_ofHandle _
  · intro id hkept
    rw [hstore, Store.row_insert]
    cases hrow : w.store.handles.find? id.text with
    | some row => rfl
    | none =>
        have hnone : admitted.find? (fun h => decide (h.id = id)) = none := by
          refine List.find?_eq_none.2 fun a ha hid => hkept ((hgained id).2 ⟨?_, ?_⟩)
          · rw [Dictionary.contains, hrow]
            rfl
          · rw [advisedIds, ← haccepts.map_id]
            exact List.mem_map.2 ⟨a, ha, of_decide_eq_true hid⟩
        rw [hnone]
        rfl
  · intro id
    rw [hcommitted, mem_newIds, hgained, haccepts.map_id, advisedIds, and_assoc]
    refine and_congr_right fun _ => ?_
    rw [iff_and_self]
    intro hone
    exact List.count_pos_iff.1 (by omega)
  · exact nodup_newIds
  · exact hannounced
  · rw [hcommitted]
    have hfailed : ∀ ids : List HandleId,
        (ids.map fun id => (id, InventoryError.alreadyExists id)).map (·.1) = ids := by
      intro ids
      rw [List.map_map]
      exact List.map_id _
    rw [BatchResult.append, List.map_append, reportNew, hfailed]
    exact perm_told handles admitted _ haccepts

/-- What a registration tells when its insertion does not fail for reasons of the store. The committed ids
are those under which a handle was stored just now, if and only if no id that was new is the id of two
advised handles of the batch. -/
theorem registration_told_iff {c : Circumstances} {topic : String} {handles : List Handle} {w : World}
    (hc : ∀ n batch, c.storeFailure n (.insert batch) = none) :
    let run := (register topic handles).run (World.reply c) w
    BatchTold topic handles w run.1 run.2 ∧
      ((∀ id, id ∈ run.1.committed ↔ w.store.Gains run.2.store id) ↔
        ∀ id ∈ advisedIds handles, w.store.handles.contains id.text = false →
          (advisedIds handles).count id = 1) := by
  have hasks : (register topic handles).Asks Request.InsertsOnly :=
    asks_register trivial (fun _ => trivial) fun _ => insertsOnly_announce
  have hregisters : Registers topic handles w _ _ :=
    World.run_of_asks hasks (Request.InsertsOnly.deletes hc) ensures_registers
  have htold := hregisters.told
  refine ⟨htold, ?_⟩
  constructor
  · intro hall id hmem hnone
    have hgains := (htold.gained id).2 ⟨hnone, hmem⟩
    exact ((htold.committed id).1 ((hall id).2 hgains)).2
  · intro honce id
    rw [htold.committed id]
    refine and_iff_left_of_imp fun hgains => ?_
    rcases (htold.gained id).1 hgains with ⟨hnone, hmem⟩
    exact honce id hmem hnone

/-- A new handle that is not known yet. -/
def firstHandle : Handle := .advised ⟨"a"⟩ ⟨"dmi", "", ""⟩ default

/-- A handle that is registered twice in one batch is stored, and nobody is told. -/
theorem registration_untold :
    let run := (register "lcm" [firstHandle, firstHandle]).run (World.reply World.undisturbed) .empty
    World.empty.store.Gains run.2.store ⟨"a"⟩ ∧ run.1.committed = [] ∧ run.2.published = [] := by
  have htold : BatchTold "lcm" [firstHandle, firstHandle] .empty
      ((register "lcm" [firstHandle, firstHandle]).run (World.reply World.undisturbed) .empty).1 _ :=
    (registration_told_iff fun _ _ => rfl).1
  have hcommitted : ((register "lcm" [firstHandle, firstHandle]).run
      (World.reply World.undisturbed) .empty).1.committed = [] := by
    refine List.eq_nil_iff_forall_not_mem.2 fun id hmem => ?_
    rcases (htold.committed id).1 hmem with ⟨hgains, hone⟩
    have hid : id ∈ [firstHandle.id, firstHandle.id] := ((htold.gained id).1 hgains).2
    obtain rfl : id = firstHandle.id := by simpa using hid
    exact absurd hone (by decide)
  refine ⟨(htold.gained _).2 ⟨rfl, List.mem_cons_self⟩, hcommitted, ?_⟩
  rcases htold.announced with ⟨events, hevents, hmade⟩
  rw [hcommitted] at hmade
  cases hmade
  exact hevents

end CmInventory
