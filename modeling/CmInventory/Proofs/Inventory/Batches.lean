import CmInventory.Proofs.Inventory.Announced

/-!
# Batches of moves

A batch is applied entry by entry, whatever the store holds and whichever of its calls fail. An entry is
moved, stays where it is or is refused (`Verdict`), and `EntryDone.Lawful` says what it leaves behind: one
event if it is moved and none otherwise, and in the store a new status of the record that it found, if it
is moved and the move is not the end of a handle that is gone. What holds of one entry holds of the batch
(`BatchDone`), and a batch in two parts is the one part after the other (`applyBatch_append`).

An entry writes to the row that has the id of the record that it found. That is the row of its own handle
in every store in which the records stand under their ids (`Store.Filed`), as all do that were written by
the operations of the store.
-/

namespace CmInventory

/-! ## Rows and their ids -/

namespace Store

variable {s : Store} {id : HandleId} {h : Handle}

/-- Every record that can be read stands under its own id. -/
def Filed (s : Store) : Prop :=
  ∀ id h, s.get id = .ok h → h.id = id

theorem Sound.filed (hs : s.Sound) : s.Filed := by
  intro id h hget
  rw [hs.get_eq] at hget
  cases hr : s.record? id with
  | none =>
      rw [hr] at hget
      cases hget
  | some g =>
      rw [hr] at hget
      cases hget
      exact hs.id_of_record? hr

theorem row_overwrite (s : Store) {h : Handle} (hid : h.id ≠ id) :
    (s.overwrite h).handles.find? id.text = s.handles.find? id.text := by
  rw [overwrite]
  split
  · exact (Dictionary.find?_insert _ _ _ _).trans (if_neg fun heq => hid (HandleId.text_inj.1 heq))
  · rfl

theorem tables_overwrite (s : Store) (h : Handle) :
    s.overwrite h = { s with handles := (s.overwrite h).handles } := by
  rw [overwrite]
  split <;> rfl

/-- A row that is there is replaced. -/
theorem get_overwrite (hrow : s.handles.contains h.id.text = true) (id : HandleId) :
    (s.overwrite h).get id = if h.id = id then .ok h else s.get id := by
  have hfind : (s.putHandle h).handles.find? id.text =
      if h.id = id then some (.ofHandle h) else s.handles.find? id.text := by
    simp only [putHandle, Dictionary.find?_insert, HandleId.text_inj]
  rw [overwrite, if_pos hrow, get, hfind]
  by_cases hid : h.id = id
  · rw [if_pos hid, if_pos hid]
    exact HandleRow.handle_ofHandle h
  · rw [if_neg hid, if_neg hid, get]

theorem contains_of_get (hget : s.get id = .ok h) : s.handles.contains id.text = true := by
  rw [get] at hget
  cases hrow : s.handles.find? id.text with
  | none =>
      rw [hrow] at hget
      cases hget
  | some row =>
      rw [Dictionary.contains, hrow]
      rfl

/-- A status that is written replaces that of the record of its id, and nothing else. -/
theorem Filed.overwrite (hs : s.Filed) (hget : s.get id = .ok h) (status : HandleStatus) :
    (s.overwrite { h with status := status }).Filed ∧ ∀ other g, s.get other = .ok g →
      ∃ new, (s.overwrite { h with status := status }).get other = .ok { g with status := new } := by
  have hid : h.id = id := hs id h hget
  have hrow : s.handles.contains h.id.text = true := hid ▸ contains_of_get hget
  have hread := get_overwrite (h := { h with status := status }) hrow
  constructor
  · intro other g hg
    rw [hread] at hg
    split at hg
    · rename_i heq
      cases hg
      exact heq
    · exact hs other g hg
  · intro other g hg
    rw [hread]
    split
    · rename_i heq
      have heq : other = id := heq.symm.trans hid
      subst heq
      rw [hget] at hg
      cases hg
      exact ⟨status, rfl⟩
    · exact ⟨g.status, hg⟩

/-- A status is read with the record that is read under the id. -/
theorem perform_status (hget : s.get id = .ok h) :
    s.perform (.status id) = (.ok h.status, s) := by
  rw [Store.perform, Store.status, hget]
  rfl

/-- A status is written to the record that is read under an id, if that is in the expected state. -/
theorem perform_saveStatusIf (hget : s.get id = .ok h) {expected : Lifecycle}
    (hl : h.lifecycle = expected) (status : HandleStatus) :
    s.perform (.saveStatusIf id expected status) =
      (.ok true, s.overwrite { h with status := status }) := by
  rw [Store.perform, replaceStatus, hget]
  simp [hl, bind, Except.bind, pure, Except.pure]

end Store

/-! ## Single requests -/

/-- The markers, the pending subscriptions and the time are the same. -/
structure World.SameCaches (w w' : World) : Prop where
  dataMarkers : w'.dataMarkers = w.dataMarkers
  moduleMarkers : w'.moduleMarkers = w.moduleMarkers
  pending : w'.pending = w.pending
  time : w'.time = w.time

theorem World.SameCaches.refl (w : World) : w.SameCaches w := ⟨rfl, rfl, rfl, rfl⟩

theorem World.SameCaches.trans {u v w : World} (h₁ : u.SameCaches v) (h₂ : v.SameCaches w) :
    u.SameCaches w :=
  ⟨h₂.dataMarkers.trans h₁.dataMarkers, h₂.moduleMarkers.trans h₁.moduleMarkers,
    h₂.pending.trans h₁.pending, h₂.time.trans h₁.time⟩

variable {c : Circumstances} {topic : String} {w w' : World}

/-- Nothing changed but the store and the number of requests. -/
structure World.SameButStore (w w' : World) : Prop where
  caches : w.SameCaches w'
  published : w'.published = w.published

theorem World.SameButStore.refl (w : World) : w.SameButStore w := ⟨.refl w, rfl⟩

theorem World.SameButStore.trans {u v w : World} (h₁ : u.SameButStore v) (h₂ : v.SameButStore w) :
    u.SameButStore w :=
  ⟨h₁.caches.trans h₂.caches, h₂.published.trans h₁.published⟩

/-- A call of the store fails and has no effect, or it is performed. -/
theorem under_store {call : StoreCall} {Q : Except StoreError call.Answer → World → Prop}
    (hfailed : ∀ e w', w.SameButStore w' → w'.store = w.store → Q (.error e) w')
    (h : ∀ w', w.SameButStore w' → w'.store = (w.store.perform call).2 →
      Q (w.store.perform call).1 w') :
    (Program.store call).Ensures (.under c) Q w := by
  have hsame : ∀ s, w.SameButStore { w.nextTurn with store := s } := fun _ => ⟨⟨rfl, rfl, rfl, rfl⟩, rfl⟩
  refine under_request ?_
  rw [World.reply]
  cases c.storeFailure w.turn call with
  | some e => exact hfailed e _ (hsame w.store) rfl
  | none => exact h _ (hsame _) rfl

theorem under_now {Q : Instant → World → Prop}
    (h : ∀ now w', w.SameButStore w' → w'.store = w.store → Q now w') :
    Program.now.Ensures (.under c) Q w :=
  under_request (h _ _ ⟨⟨rfl, rfl, rfl, rfl⟩, rfl⟩ rfl)

namespace Inventory

theorem under_announce {id : HandleId} {old : Option Lifecycle} {new : Lifecycle} :
    (announce topic id old new).Ensures (.under c)
      (fun _ w' => w'.store = w.store ∧ w.SameCaches w' ∧ w.Announces topic [⟨id, old, new⟩] w') w := by
  refine ensures_announce_iff.2 (under_request (under_request (under_request ?_)))
  exact ⟨rfl, ⟨rfl, rfl, rfl, rfl⟩, World.announces_one rfl⟩

theorem under_saveFrom {id : HandleId} {h : Handle} {old : Lifecycle} {status : HandleStatus}
    {Q : Except InventoryError Unit → World → Prop} (hget : w.store.get id = .ok h)
    (hl : h.lifecycle = old)
    (hfailed : ∀ e w', w.SameButStore w' → w'.store = w.store → Q (.error e) w')
    (hdone : ∀ w', w.SameButStore w' → w'.store = w.store.overwrite { h with status := status } →
      Q (.ok ()) w') : (saveFrom id old status).run.Ensures (.under c) Q w := by
  refine ensures_saveFrom_iff.2 (under_store (fun e w' => hfailed _ w') fun w' hsame hstore => ?_)
  rw [Store.perform_saveStatusIf hget hl] at hstore ⊢
  exact hdone w' hsame hstore

/-! ## One move -/

/-- What a move leaves in the store. It writes to the record that it found, unless the record is gone; if
it is not made nothing is written. -/
def MoveStores (snapshot : Handle) (target : Lifecycle) (s s' : Store) :
    Except InventoryError (Option Lifecycle) → Prop
  | .ok (some old) =>
      old.canMoveTo target = true ∧
        if target = .deleted then snapshot.lifecycle = old ∧ s' = s
        else ∃ h reason now, s.get snapshot.id = .ok h ∧ h.lifecycle = old ∧
          nextReason snapshot h.status target = .ok reason ∧
          s' = s.overwrite { h with status := nextStatus h.status target reason now }
  | .ok none => (∃ h, s.get snapshot.id = .ok h ∧ h.lifecycle = target) ∧ s' = s
  | .error _ => s' = s

theorem under_move {snapshot : Handle} {target : Lifecycle} :
    (move snapshot target).run.Ensures (.under c)
      (fun result w' => w.SameButStore w' ∧ MoveStores snapshot target w.store w'.store result) w := by
  by_cases htarget : target = .deleted
  · subst htarget
    rw [run_move_deleted, completeDeletion]
    split
    · rename_i hmove
      exact ⟨.refl w, hmove, by rw [if_pos rfl]; exact ⟨rfl, rfl⟩⟩
    · exact ⟨.refl w, rfl⟩
  refine (ensures_move_iff htarget).2 ?_
  refine under_store (fun e w₁ h₁ hstore => ⟨h₁, hstore⟩) fun w₁ h₁ hstore₁ => ?_
  have hstore₁ : w₁.store = w.store := hstore₁
  rw [Store.perform, Store.status]
  cases hget : w.store.get snapshot.id with
  | error e => exact ⟨h₁, hstore₁⟩
  | ok h =>
      refine ⟨fun heq => ⟨h₁, ⟨h, hget, heq⟩, hstore₁⟩, fun _ _ => ⟨h₁, hstore₁⟩,
        fun _ _ _ _ => ⟨h₁, hstore₁⟩, ?writes⟩
      case writes =>
        intro hne hmove reason hreason
        refine under_now fun now w₂ h₂ hstore₂ => ?_
        have hstore₂ : w₂.store = w.store := hstore₂.trans hstore₁
        -- The record is still the one that was read.
        refine under_saveFrom (hstore₂ ▸ hget) rfl (fun e w₃ h₃ hstore₃ => ?_)
          fun w₃ h₃ hstore₃ => ?_
        · exact ⟨(h₁.trans h₂).trans h₃, hstore₃.trans hstore₂⟩
        · rw [hstore₂] at hstore₃
          refine ⟨(h₁.trans h₂).trans h₃, hmove, ?_⟩
          rw [if_neg htarget]
          exact ⟨h, reason, now, hget, rfl, hreason, hstore₃⟩

end Inventory

open Inventory

/-! ## One entry -/

/-- An entry of a batch that was done: what the move gave, which is the state that the handle left or none
if it stays, and the worlds before and after. -/
structure EntryDone where
  snapshot : Handle
  target : Lifecycle
  result : Except InventoryError (Option Lifecycle)
  before : World
  after : World

namespace EntryDone

/-- What is announced of a committed entry. -/
def announcement? (d : EntryDone) : Option Announcement :=
  match d.result with
  | .ok (some old) => some ⟨d.snapshot.id, some old, d.target⟩
  | _ => none

/-- The id of an entry that was left as it is. -/
def unchanged? (d : EntryDone) : Option HandleId :=
  match d.result with
  | .ok none => some d.snapshot.id
  | _ => none

/-- The failure of an entry. -/
def failure? (d : EntryDone) : Option (HandleId × InventoryError) :=
  match d.result with
  | .error e => some (d.snapshot.id, e)
  | _ => none

/-- The report on entries. Each of them stands in one of the lists, in the order of the batch. -/
def report (done : List EntryDone) : BatchResult :=
  ⟨(done.filterMap announcement?).map (·.id), done.filterMap unchanged?, done.filterMap failure?⟩

theorem report_cons (d : EntryDone) (done : List EntryDone) :
    report (d :: done) = (report [d]).append (report done) := by
  rcases d with ⟨snapshot, target, result, before, after⟩
  rcases result with e | _ | old <;> rfl

/-- An entry was committed, and not to tell the end of a handle that is gone. -/
def Writes (d : EntryDone) : Prop :=
  (∃ old, d.result = .ok (some old)) ∧ d.target ≠ .deleted

/-- The record that an entry found. -/
def Found (d : EntryDone) (h : Handle) : Prop :=
  d.before.store.get d.snapshot.id = .ok h

/-- What an entry leaves behind. -/
structure Lawful (topic : String) (d : EntryDone) : Prop where
  announced : d.before.Announces topic d.announcement?.toList d.after
  caches : d.before.SameCaches d.after
  stores : MoveStores d.snapshot d.target d.before.store d.after.store d.result

variable {d : EntryDone}

theorem Lawful.store_cases (h : d.Lawful topic) : d.after.store = d.before.store ∨
    ∃ g status, d.Writes ∧ d.Found g ∧
      d.after.store = d.before.store.overwrite { g with status := status } := by
  rcases d with ⟨snapshot, target, result, before, after⟩
  have hstores := h.stores
  rcases result with e | _ | old
  · exact Or.inl hstores
  · exact Or.inl hstores.2
  · rcases hstores with ⟨-, hstore⟩
    dsimp only at hstore
    split at hstore
    · exact Or.inl hstore.2
    · rename_i htarget
      rcases hstore with ⟨g, reason, now, hget, -, -, hwritten⟩
      exact Or.inr ⟨g, _, ⟨⟨old, rfl⟩, htarget⟩, hget, hwritten⟩

/-- An entry changes no row but that of the record that it writes to. -/
theorem Lawful.kept (h : d.Lawful topic) {id : HandleId}
    (hother : d.Writes → ∀ g, d.Found g → g.id ≠ id) :
    d.after.store.handles.find? id.text = d.before.store.handles.find? id.text := by
  rcases h.store_cases with hstore | ⟨g, status, hwrites, hfound, hstore⟩
  · rw [hstore]
  · rw [hstore]
    exact Store.row_overwrite (h := { g with status := status }) _ (hother hwrites g hfound)

theorem Lawful.tables (h : d.Lawful topic) :
    d.after.store = { d.before.store with handles := d.after.store.handles } := by
  rcases h.store_cases with hstore | ⟨g, status, -, -, hstore⟩
  · rw [hstore]
  · rw [hstore]
    exact Store.tables_overwrite _ _

/-- An entry changes nothing of a record but its status. -/
theorem Lawful.filed (h : d.Lawful topic) (hs : d.before.store.Filed) : d.after.store.Filed ∧
    ∀ id g, d.before.store.get id = .ok g →
      ∃ status, d.after.store.get id = .ok { g with status := status } := by
  rcases h.store_cases with hstore | ⟨g, status, -, hfound, hstore⟩
  · rw [hstore]
    exact ⟨hs, fun id g hget => ⟨g.status, hget⟩⟩
  · rw [hstore]
    exact hs.overwrite hfound status

end EntryDone

namespace Inventory

theorem under_applyEntry {snapshot : Handle} {target : Lifecycle} :
    (applyEntry topic snapshot target).Ensures (.under c)
      (fun result w' => ∃ d : EntryDone, d.snapshot = snapshot ∧ d.target = target ∧ d.before = w ∧
        d.after = w' ∧ d.Lawful topic ∧ result = EntryDone.report [d]) w := by
  refine ensures_applyEntry_of under_move ?failed ?stays ?moved
  case failed =>
    rintro e w₁ ⟨hsame, hstores⟩
    exact ⟨⟨snapshot, target, .error e, w, w₁⟩, rfl, rfl, rfl, rfl,
      ⟨World.announces_nil hsame.published, hsame.caches, hstores⟩, rfl⟩
  case stays =>
    rintro w₁ ⟨hsame, hstores⟩
    exact ⟨⟨snapshot, target, .ok none, w, w₁⟩, rfl, rfl, rfl, rfl,
      ⟨World.announces_nil hsame.published, hsame.caches, hstores⟩, rfl⟩
  case moved =>
    rintro old w₁ ⟨hsame, hstores⟩
    refine under_announce.mono ?_
    rintro _ w₂ ⟨hstore, hcaches, hannounced⟩
    refine ⟨⟨snapshot, target, .ok (some old), w, w₂⟩, rfl, rfl, rfl, rfl, ⟨?_, ?_, ?_⟩, rfl⟩
    · exact (World.announces_nil hsame.published).trans hannounced
    · exact hsame.caches.trans hcaches
    · change MoveStores snapshot target w.store w₂.store (.ok (some old))
      rw [hstore]
      exact hstores

end Inventory

/-! ## Whole batches -/

/-- Entries that were done one after the other lead from one world to another. -/
def EntriesLead : World → List EntryDone → World → Prop
  | w, [], w' => w' = w
  | w, d :: rest, w' => d.before = w ∧ EntriesLead d.after rest w'

/-- What entries leave of a store in which the records stand under their ids. -/
structure KeepsRecords (done : List EntryDone) (s s' : Store) : Prop where
  filed : s'.Filed
  /-- The row of an id of which no entry was committed but for the end of a handle that is gone. -/
  untouched : ∀ id, (∀ d ∈ done, d.snapshot.id = id → ¬ d.Writes) →
    s'.handles.find? id.text = s.handles.find? id.text
  /-- No record is lost, and nothing changes in it but the status. -/
  records : ∀ id h, s.get id = .ok h → ∃ status, s'.get id = .ok { h with status := status }

/-- What a batch comes to, by what became of its entries. -/
structure BatchDone (topic : String) (batch : List (Handle × Lifecycle)) (w : World)
    (done : List EntryDone) (result : BatchResult) (w' : World) : Prop where
  entries : done.map (fun d => (d.snapshot, d.target)) = batch
  leads : EntriesLead w done w'
  lawful : ∀ d ∈ done, d.Lawful topic
  report : result = EntryDone.report done
  /-- There is one event for each committed entry, in the order of the batch, and no other. -/
  announced : w.Announces topic (done.filterMap EntryDone.announcement?) w'
  caches : w.SameCaches w'
  tables : w'.store = { w.store with handles := w'.store.handles }
  /-- No row changes but those of the ids of the records that committed entries found. -/
  kept : ∀ id, (∀ d ∈ done, d.Writes → ∀ h, d.Found h → h.id ≠ id) →
    w'.store.handles.find? id.text = w.store.handles.find? id.text
  records : w.store.Filed → KeepsRecords done w.store w'.store

theorem batchDone_nil : BatchDone topic [] w [] .empty w :=
  ⟨rfl, rfl, by simp, rfl, World.announces_nil rfl, .refl w, rfl, fun _ _ => rfl,
    fun hs => ⟨hs, fun _ _ => rfl, fun _ h hget => ⟨h.status, hget⟩⟩⟩

theorem BatchDone.cons {d : EntryDone} {batch : List (Handle × Lifecycle)} {done : List EntryDone}
    {result : BatchResult} (hd : d.Lawful topic) (h : BatchDone topic batch d.after done result w') :
    BatchDone topic ((d.snapshot, d.target) :: batch) d.before (d :: done)
      ((EntryDone.report [d]).append result) w' := by
  refine ⟨by rw [List.map_cons, h.entries], ⟨rfl, h.leads⟩, ?_, ?_, ?_, hd.caches.trans h.caches, ?_, ?_, ?_⟩
  · exact List.forall_mem_cons.2 ⟨hd, h.lawful⟩
  · exact (congrArg _ h.report).trans (EntryDone.report_cons d done).symm
  · have hannounced := hd.announced.trans h.announced
    rw [List.filterMap_cons]
    cases hone : d.announcement? with
    | none => rwa [hone] at hannounced
    | some a => rwa [hone] at hannounced
  · rw [h.tables, hd.tables]
  · intro id hother
    rw [h.kept id fun e he => hother e (List.mem_cons_of_mem _ he)]
    exact hd.kept (hother d List.mem_cons_self)
  · intro hs
    rcases hd.filed hs with ⟨hafter, hfirst⟩
    have hrest := h.records hafter
    refine ⟨hrest.filed, ?_, ?_⟩
    · intro id hother
      rw [hrest.untouched id fun e he => hother e (List.mem_cons_of_mem _ he)]
      refine hd.kept fun hwrites g hfound hid => ?_
      exact hother d List.mem_cons_self ((hs _ g hfound).symm.trans hid) hwrites
    · intro id g hget
      rcases hfirst id g hget with ⟨first, hafter⟩
      obtain ⟨status, hstatus⟩ := hrest.records id _ hafter
      exact ⟨status, hstatus⟩

namespace Inventory

theorem under_applyBatch {batch : List (Handle × Lifecycle)} :
    (applyBatch topic batch).Ensures (.under c)
      (fun result w' => ∃ done, BatchDone topic batch w done result w') w := by
  induction batch generalizing w with
  | nil => exact ⟨[], batchDone_nil⟩
  | cons entry rest ih =>
      rcases entry with ⟨snapshot, target⟩
      rw [applyBatch]
      refine under_applyEntry.bind ?_
      rintro here w₁ ⟨d, rfl, rfl, rfl, rfl, hlawful, rfl⟩
      refine ih.bind ?_
      rintro more w₂ ⟨done, hdone⟩
      exact ⟨d :: done, .cons hlawful hdone⟩

theorem append_assoc (a b c : BatchResult) : (a.append b).append c = a.append (b.append c) := by
  simp only [BatchResult.append, List.append_assoc]

/-- A batch in two parts is the second part after the first. -/
theorem applyBatch_append (first second : List (Handle × Lifecycle)) :
    applyBatch topic (first ++ second) = (do
      let one ← applyBatch topic first
      let two ← applyBatch topic second
      return one.append two) := by
  induction first with
  | nil =>
      change _ = applyBatch topic second >>= fun two => Program.done two
      rw [Program.bind_done, List.nil_append]
  | cons entry rest ih =>
      rcases entry with ⟨snapshot, target⟩
      simp only [List.cons_append, applyBatch, ih, bind_assoc, Program.pure_eq, Program.done_bind, append_assoc]

end Inventory

/-- A batch of moves is applied entry by entry, whatever the store holds and whatever calls of it fail, and
a batch in two parts is applied part by part. -/
theorem batch_applied (c : Circumstances) (topic : String) (batch : List (Handle × Lifecycle))
    (w : World) :
    (∃ done, BatchDone topic batch w done ((applyBatch topic batch).run (World.reply c) w).1
      ((applyBatch topic batch).run (World.reply c) w).2) ∧
    ∀ first second, batch = first ++ second →
      let one := (applyBatch topic first).run (World.reply c) w
      let two := (applyBatch topic second).run (World.reply c) one.2
      (applyBatch topic batch).run (World.reply c) w = (one.1.append two.1, two.2) := by
  refine ⟨under_applyBatch.under, ?_⟩
  rintro first second rfl
  rw [applyBatch_append, Program.run_bind, Program.run_bind]
  rfl

end CmInventory
