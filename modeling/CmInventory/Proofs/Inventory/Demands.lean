import CmInventory.Proofs.Inventory.History
import CmInventory.Proofs.Program.Asks

/-!
# Demands as programs

A member that serves demands one after the other is a program (`Demand.script`), so that several members are
a list of such programs. What a member does with a handle that it picked in a cycle is an attempt
(`attempt`).

This module says what these programs ask for. An attempt works on its own handle only, beside the marker of
the handle (`asks_syncData`, `asks_syncModules`). Markers are put by attempts alone, and taken off by
attempts and by the removal of the handle: everything else spares the markers of a handle
(`Request.Spares`).
-/

namespace CmInventory

/-- The program of a member that serves a demand. -/
def Demand.program : Demand → Program Unit
  | .create topic endpoints requested => do
      let _ ← (Inventory.create topic endpoints requested).run
      return ()
  | .update requested => do
      let _ ← Inventory.update requested
      return ()
  | .remove topic rawIds => do
      let _ ← Inventory.remove topic rawIds
      return ()
  | .process topic registration => do
      let _ ← (Inventory.process topic registration).run
      return ()
  | .dataCycle m bound => do
      let _ ← Inventory.dataCycle m bound
      return ()
  | .moduleCycle m bound => do
      let _ ← Inventory.moduleCycle m bound
      return ()
  | .wait _ => return ()

/-- The program of a member that serves one demand after the other. -/
def Demand.script (demands : List Demand) : Program (List Unit) :=
  demands.mapM Demand.program

/-- Whether a demand asks for the removal of a handle. -/
def Demand.Removes (id : HandleId) : Demand → Prop
  | .remove _ rawIds => id.text ∈ rawIds
  | .process _ registration => id.text ∈ registration.removed
  | _ => False

namespace Inventory

/-- What a member does with a handle that it picked. -/
def attempt (m : Member) : SyncKind → Handle → Program (Except InventoryError Unit)
  | .data, h => whileMarked m .data h.id (syncData h)
  | .modules, h => whileMarked m .modules h.id (syncModules m.topic h)

/-- The selection of a kind of work. -/
def pick : SyncKind → List HandleId → Action (Option Handle)
  | .data => pickUnsynchronized
  | .modules => pickAdvised

/-- A data cycle is an attempt after the other. -/
theorem dataCycle_eq (m : Member) (bound : Nat) :
    dataCycle m bound = visitAll (pick .data) (attempt m .data) bound [] .empty := rfl

theorem moduleCycle_eq (m : Member) (bound : Nat) :
    moduleCycle m bound = (do
      let _ ← readvise m
      visitAll (pick .modules) (attempt m .modules) bound [] .empty) := rfl

/-- A pass, once the clock was read. -/
def readviseAt (m : Member) (now : Instant) : Program Nat := do
  match ← (dueForRetry now m.retryBase).run with
  | .error _ => return 0
  | .ok handles =>
      let result ← applyBatch m.topic (handles.map fun h => (h, .advised))
      return result.committed.length

/-- A module cycle, once the clock was read. -/
def moduleCycleAt (m : Member) (bound : Nat) (now : Instant) : Program CycleReport := do
  let _ ← readviseAt m now
  visitAll (pick .modules) (attempt m .modules) bound [] .empty

theorem moduleCycle_eq_ask (m : Member) (bound : Nat) :
    moduleCycle m bound = Program.ask .now (moduleCycleAt m bound) := rfl

end Inventory

/-! ## Work on one handle -/

/-- Whether an event tells of a move of a handle. -/
def Published.IsOf (id : HandleId) (p : Published) : Prop :=
  ∃ e, p.event = .lifecycle e ∧ e.handleId = id

/-- Whether a request may be part of a kind of work on a handle. -/
def Request.WorksOn (kind : SyncKind) (id : HandleId) : Request → Prop
  | .store (.status i) | .store (.saveStatusIf i _ _) => i = id
  | .store (.saveData i _) => kind = .data ∧ i = id
  | .store (.saveModules i _) => kind = .modules ∧ i = id
  | .publish p => p.IsOf id
  | .store _ | .mark .. | .unmark .. | .pending _ => False
  | .plugin _ | .now | .newEventId | .choose _ => True

/-- Whether a request may be part of a change of the status of a handle. -/
def Request.Moves (id : HandleId) : Request → Prop
  | .store (.status i) | .store (.saveStatusIf i _ _) => i = id
  | .publish p => p.IsOf id
  | .now | .newEventId => True
  | _ => False

theorem Request.Moves.worksOn {kind : SyncKind} {id : HandleId} {r : Request} (h : r.Moves id) :
    r.WorksOn kind id := by
  cases r with
  | store call =>
      cases call with
      | status i => exact h
      | saveStatusIf i expected status => exact h
      | _ => exact h.elim
  | publish p => exact h
  | now => trivial
  | newEventId => trivial
  | _ => exact h.elim

namespace Inventory

variable {kind : SyncKind} {topic : String}

/-! ### Changes of the status -/

theorem moves_announce {id : HandleId} {old : Option Lifecycle} {new : Lifecycle} :
    (announce topic id old new).Asks (Request.Moves id) := by
  refine (Program.asks_request trivial).bind fun eventId => ?_
  refine (Program.asks_request trivial).bind fun timestamp => ?_
  exact Program.asks_request ⟨⟨eventId, id, old, new, timestamp⟩, rfl, rfl⟩

theorem moves_saveFrom {id : HandleId} {old : Lifecycle} {status : HandleStatus} :
    (saveFrom id old status).run.Asks (Request.Moves id) := by
  refine Action.asks_bind (Action.asks_store rfl) fun written => ?_
  cases written <;> exact Program.asks_done _

theorem moves_move {snapshot : Handle} {target : Lifecycle} :
    (move snapshot target).run.Asks (Request.Moves snapshot.id) := by
  by_cases ht : target = .deleted
  · rw [ht, run_move_deleted]
    exact Program.asks_done _
  refine (ensures_move_iff ht).2 ⟨rfl, fun answer _ _ => ?_⟩
  rcases answer with e | current
  · trivial
  · refine ⟨fun _ => trivial, fun _ _ => trivial, fun _ _ _ _ => trivial, fun _ _ _ _ => ?_⟩
    exact ⟨trivial, fun now _ _ => moves_saveFrom⟩

theorem moves_applyEntry {snapshot : Handle} {target : Lifecycle} :
    (applyEntry topic snapshot target).Asks (Request.Moves snapshot.id) := by
  rw [applyEntry]
  refine moves_move.bind fun result => ?_
  cases result with
  | error e => exact Program.asks_done _
  | ok old =>
      cases old with
      | none => exact Program.asks_done _
      | some old => exact moves_announce.bind fun _ => Program.asks_done _

theorem moves_markSynchronized {id : HandleId} : (markSynchronized id).run.Asks (Request.Moves id) := by
  refine ensures_markSynchronized_iff.2 ⟨rfl, fun answer _ _ => ?_⟩
  rcases answer with e | current
  · trivial
  · exact ⟨fun _ => trivial, fun _ => ⟨trivial, fun now _ _ => moves_saveFrom⟩⟩

theorem moves_commit (snapshot : Handle) (target : Lifecycle) :
    (commit topic snapshot target).run.Asks (Request.Moves snapshot.id) := by
  rw [commit]
  refine Action.asks_bind (Action.asks_lift ?_) fun result => ?_
  · exact moves_applyEntry.bind fun _ => Program.asks_done _
  · cases result.failed.getLast? <;> exact Program.asks_done _

/-! ### As work on the handle -/

theorem asks_announce {id : HandleId} {old : Option Lifecycle} {new : Lifecycle} :
    (announce topic id old new).Asks (Request.WorksOn kind id) :=
  moves_announce.mono fun _ h => h.worksOn

theorem asks_move {snapshot : Handle} {target : Lifecycle} :
    (move snapshot target).run.Asks (Request.WorksOn kind snapshot.id) :=
  moves_move.mono fun _ h => h.worksOn

/-- A batch asks only for changes of the status of its handles. -/
theorem asks_applyBatch {P : Request → Prop} (hmoves : ∀ id r, Request.Moves id r → P r)
    {batch : List (Handle × Lifecycle)} : (applyBatch topic batch).Asks P := by
  induction batch with
  | nil => exact Program.asks_done _
  | cons entry rest ih =>
      rcases entry with ⟨snapshot, target⟩
      rw [applyBatch]
      refine (moves_applyEntry.mono (hmoves snapshot.id)).bind fun here => ?_
      exact ih.bind fun more => Program.asks_done _

theorem asks_markDeleting {P : Request → Prop} (hmoves : ∀ id r, Request.Moves id r → P r)
    {ids : List HandleId} (hmany : P (.store (.getMany ids))) : (markDeleting topic ids).Asks P := by
  rw [markDeleting]
  refine (Program.asks_request hmany).bind fun found => ?_
  cases found with
  | error e => exact Program.asks_done _
  | ok snapshots => exact (asks_applyBatch hmoves).bind fun _ => Program.asks_done _

theorem asks_markSynchronized {id : HandleId} :
    (markSynchronized id).run.Asks (Request.WorksOn kind id) :=
  moves_markSynchronized.mono fun _ h => h.worksOn

theorem asks_syncData {h : Handle} : (syncData h).run.Asks (Request.WorksOn .data h.id) := by
  rw [syncData]
  split
  · refine Action.asks_bind (Action.asks_plugin trivial) fun reply => ?_
    refine Action.asks_bind (Program.asks_done _) fun data => ?_
    exact Action.asks_bind (Action.asks_store ⟨rfl, rfl⟩) fun _ => asks_markSynchronized
  · exact Program.asks_done _

theorem asks_commit (snapshot : Handle) (target : Lifecycle) :
    (commit topic snapshot target).run.Asks (Request.WorksOn kind snapshot.id) :=
  (moves_commit snapshot target).mono fun _ h => h.worksOn

theorem asks_syncModules {h : Handle} :
    (syncModules topic h).run.Asks (Request.WorksOn .modules h.id) := by
  rw [syncModules]
  refine Action.asks_bind (Action.asks_lift (Program.asks_request trivial)) fun result => ?_
  cases result with
  | ok modules => exact Action.asks_bind (Action.asks_store ⟨rfl, rfl⟩) fun _ => asks_commit h .ready
  | error e =>
      -- The handle with the reason of the failure has the id of the handle.
      have hcommit : (commit topic (withFailure h e) .locked).run.Asks
          (Request.WorksOn .modules h.id) := asks_commit (withFailure h e) .locked
      exact Action.asks_bind hcommit fun _ => Program.asks_done _

/-! ### Parts of other operations -/

section

variable {α : Type} {P : Request → Prop}

theorem asks_draw (hchoose : ∀ last, P (.choose last)) {items : List α} : (Program.draw items).Asks P := by
  cases items with
  | nil => exact Program.asks_done _
  | cons item rest => exact (Program.asks_request (hchoose _)).bind fun _ => Program.asks_done _

theorem asks_screen (hnow : P .now) {endpoints : Endpoints} {seen : List HandleId}
    {requested : List RequestedHandle} : (screen endpoints seen requested).Asks P := by
  induction requested generalizing seen with
  | nil => exact Program.asks_done _
  | cons r rest ih =>
      rw [screen]
      cases HandleId.parse r.id with
      | error flaw => exact ih.bind fun _ => Program.asks_done _
      | ok id =>
          dsimp only
          split
          · exact ih.bind fun _ => Program.asks_done _
          · exact (Program.asks_request hnow).bind fun _ => ih.bind fun _ => Program.asks_done _

theorem asks_accept (hnow : P .now) {handles : List Handle} : (accept handles).Asks P := by
  induction handles with
  | nil => exact Program.asks_done _
  | cons h rest ih =>
      rw [accept]
      split
      · exact (Program.asks_request hnow).bind fun _ => ih.bind fun _ => Program.asks_done _
      · exact ih.bind fun _ => Program.asks_done _

theorem asks_announceNew (hannounce : ∀ id, (announce topic id none .advised).Asks P)
    {present : List HandleId} {handles : List Handle} : (announceNew topic present handles).Asks P := by
  induction handles with
  | nil => exact Program.asks_done _
  | cons h rest ih =>
      rw [announceNew]
      split
      · exact ih.bind fun _ => Program.asks_done _
      · exact (hannounce h.id).bind fun _ => ih.bind fun _ => Program.asks_done _

theorem asks_firstReady (hchoose : ∀ last, P (.choose last)) (hget : ∀ id, P (.store (.get id)))
    {bound : Nat} {ids : List HandleId} : (firstReady bound ids).run.Asks P := by
  induction bound generalizing ids with
  | zero => exact Program.asks_done _
  | succ bound ih =>
      rw [firstReady]
      refine Action.asks_bind (Action.asks_lift (asks_draw hchoose)) fun drawn => ?_
      cases drawn with
      | none => exact Program.asks_done _
      | some pair =>
          refine Action.asks_bind (Action.asks_lift (Program.asks_request (hget _))) fun found => ?_
          cases found with
          | ok h =>
              dsimp only
              split
              · exact Program.asks_done _
              · exact ih
          | error e => cases e <;> first | exact ih | exact Program.asks_done _

/-- A selection looks at handles and draws one of them. -/
theorem asks_pick (hchoose : ∀ last, P (.choose last)) (hget : ∀ id, P (.store (.get id)))
    (hstate : ∀ state, P (.store (.byLifecycle state))) (hsync : ∀ state, P (.store (.bySyncState state)))
    {visited : List HandleId} : (pick kind visited).run.Asks P := by
  cases kind with
  | data => exact Action.asks_bind (Action.asks_store (hsync _)) fun _ => asks_firstReady hchoose hget
  | modules =>
      refine Action.asks_bind (Action.asks_store (hstate _)) fun handles => ?_
      exact Action.asks_bind (Action.asks_lift (asks_draw hchoose)) fun _ => Program.asks_done _

theorem asks_dueForRetry (hselect : ∀ category, P (.store (.byLockCategory category))) {now : Instant}
    {base : Interval} : (dueForRetry now base).run.Asks P := by
  refine Action.asks_bind (Action.asks_store (hselect _)) fun failed => ?_
  exact Action.asks_bind (Action.asks_store (hselect _)) fun _ => Program.asks_done _

theorem asks_readviseAt {m : Member} {now : Instant} (hmoves : ∀ id r, Request.Moves id r → P r)
    (hselect : ∀ category, P (.store (.byLockCategory category))) : (readviseAt m now).Asks P := by
  rw [readviseAt]
  refine (asks_dueForRetry hselect).bind fun due => ?_
  cases due with
  | error e => exact Program.asks_done _
  | ok handles => exact (asks_applyBatch hmoves).bind fun _ => Program.asks_done _

/-- An attempt puts the marker of its handle, works on the handle and takes the marker off. -/
theorem asks_attempt {m : Member} {h : Handle} (hmark : P (.mark kind h.id m.name m.markerLife))
    (hunmark : P (.unmark kind h.id)) (hworks : ∀ r, Request.WorksOn kind h.id r → P r) :
    (attempt m kind h).Asks P := by
  have hmarked : ∀ work : Action Unit, work.run.Asks P → (whileMarked m kind h.id work).Asks P := fun _ hwork =>
    keeps_whileMarked (Program.asks_request hmark) (fun _ _ => hwork) fun _ _ => Program.asks_request hunmark
  cases kind with
  | data => exact hmarked _ (asks_syncData.mono hworks)
  | modules => exact hmarked _ (asks_syncModules.mono hworks)

theorem asks_visitAll {choice : List HandleId → Action (Option Handle)}
    {visit : Handle → Program (Except InventoryError Unit)} (hchoice : ∀ visited, (choice visited).run.Asks P)
    (hvisit : ∀ h, (visit h).Asks P) {bound : Nat} {visited : List HandleId} {report : CycleReport} :
    (visitAll choice visit bound visited report).Asks P :=
  keeps_visitAll (fun visited _ _ => hchoice visited) (fun h _ _ => hvisit h) trivial

end

end Inventory

/-! ## Deletions -/

/-- Whether a request may be part of the deletion of handles. -/
def Request.Deletes (ids : List HandleId) : Request → Prop
  | .store (.delete i) => i ∈ ids
  | .store (.deleteAll more) => ∀ i ∈ more, i ∈ ids
  | .unmark _ i => i ∈ ids
  | _ => False

theorem Request.Deletes.mono {ids more : List HandleId} {r : Request} (h : r.Deletes ids)
    (hsub : ∀ i ∈ ids, i ∈ more) : r.Deletes more := by
  cases r with
  | store call =>
      cases call with
      | delete i => exact hsub i h
      | deleteAll those => exact fun i hi => hsub i (h i hi)
      | _ => exact h.elim
  | unmark kind i => exact hsub i h
  | _ => exact h.elim

namespace Inventory

variable {ids : List HandleId}

/-- Only the markers of a handle that is gone are taken off. -/
theorem asks_deleted {id : HandleId} (h : id ∈ ids) : (deleted id).Asks (Request.Deletes ids) := by
  rw [deleted, clearMarkers]
  refine ((Program.asks_request h).bind fun _ => Program.asks_request h).bind fun _ => ?_
  exact Program.asks_done _

theorem asks_deleteOne {id : HandleId} (h : id ∈ ids) :
    (deleteOne id).Asks (Request.Deletes ids) := by
  rw [deleteOne]
  refine (Program.asks_request h).bind fun answer => ?_
  cases answer with
  | ok _ => exact asks_deleted h
  | error e => exact Program.asks_done _

theorem asks_deleteChunk : (deleteChunk ids).Asks (Request.Deletes ids) := by
  have hids : Request.Deletes ids (.store (.deleteAll ids)) := fun _ hi => hi
  rw [deleteChunk]
  refine (Program.asks_request hids).bind fun answer => ?_
  cases answer with
  | ok _ => exact Program.Asks.mapM fun _ hmem => asks_deleted hmem
  | error e => exact Program.Asks.mapM fun _ hmem => asks_deleteOne hmem

theorem asks_deleteChunks {lists : List (List HandleId)} :
    (deleteChunks lists).Asks (Request.Deletes lists.flatten) := by
  induction lists with
  | nil => exact Program.asks_done _
  | cons chunk rest ih =>
      rw [deleteChunks, List.flatten_cons]
      have hchunk : (deleteChunk chunk).Asks (Request.Deletes (chunk ++ rest.flatten)) :=
        asks_deleteChunk.mono fun _ hr => hr.mono fun _ hi => List.mem_append_left _ hi
      refine hchunk.bind fun here => ?_
      refine Program.Asks.bind (ih.mono fun _ hr => hr.mono fun _ hi => List.mem_append_right _ hi)
        fun more => ?_
      exact Program.asks_done _

/-! ## Registrations -/

section

variable {topic : String} {P : Request → Prop}

theorem asks_register (hnow : P .now) (hinsert : ∀ handles, P (.store (.insert handles)))
    (hannounce : ∀ id, (announce topic id none .advised).Asks P) {handles : List Handle} :
    (register topic handles).Asks P := by
  rw [register]
  refine (asks_accept hnow).bind fun result => ?_
  refine (Program.asks_request (hinsert _)).bind fun answer => ?_
  cases answer with
  | ok _ => exact (asks_announceNew hannounce).bind fun _ => Program.asks_done _
  | error e =>
      cases e with
      | alreadyExists present => exact (asks_announceNew hannounce).bind fun _ => Program.asks_done _
      | _ => exact Program.asks_done _

theorem asks_create (hnow : P .now) (hinsert : ∀ handles, P (.store (.insert handles)))
    (hannounce : ∀ id, (announce topic id none .advised).Asks P) {endpoints : Endpoints}
    {requested : List RequestedHandle} : (create topic endpoints requested).run.Asks P := by
  rw [create]
  cases endpoints.flaw? with
  | some flaw => exact Program.asks_done _
  | none =>
      refine Action.asks_lift ((asks_screen hnow).bind fun candidates => ?_)
      exact (asks_register hnow hinsert hannounce).bind fun _ => Program.asks_done _

theorem asks_updateOne (hget : ∀ id, P (.store (.get id))) (hsave : ∀ h, P (.store (.save h)))
    {r : RequestedHandle} : (updateOne r).Asks P := by
  rw [updateOne]
  cases HandleId.parse r.id with
  | error flaw => exact Program.asks_done _
  | ok id =>
      refine (Program.asks_request (hget id)).bind fun found => ?_
      cases found with
      | ok h =>
          refine (Program.asks_request (hsave _)).bind fun saved => ?_
          cases saved <;> exact Program.asks_done _
      | error e => cases e <;> exact Program.asks_done _

theorem asks_update (hget : ∀ id, P (.store (.get id))) (hsave : ∀ h, P (.store (.save h)))
    {requested : List RequestedHandle} : (update requested).Asks P :=
  Program.Asks.mapM fun _ _ => asks_updateOne hget hsave

/-- A removal moves handles and deletes the ones that it was asked for. -/
theorem asks_remove (hmoves : ∀ id r, Request.Moves id r → P r)
    (hmany : ∀ ids, P (.store (.getMany ids))) {rawIds : List String}
    (hdeletes : ∀ r, Request.Deletes (rawIds.map HandleId.mk) r → P r) :
    (remove topic rawIds).Asks P := by
  rw [remove]
  refine (asks_markDeleting hmoves (hmany _)).bind fun marked => ?_
  cases marked with
  | error e => exact Program.asks_done _
  | ok deleting =>
      refine Program.Asks.bind (asks_deleteChunks.mono fun r hr => ?_) fun deletions => ?_
      · rw [flatten_chunks] at hr
        exact hdeletes r hr
      · exact (asks_applyBatch hmoves).bind fun _ => Program.asks_done _

/-- What the parts of a registration ask for the whole of it asks for. -/
theorem asks_process {r : Registration} (hremove : (remove topic r.removed).Asks P)
    (hcreate : (create topic r.endpoints r.created).run.Asks P) (hupdate : (update r.updated).Asks P) :
    (process topic r).run.Asks P := by
  rw [process]
  cases r.endpoints.flaw? with
  | some flaw => exact Program.asks_done _
  | none =>
      refine keeps_choice (Program.asks_done _) (Action.asks_lift hremove) fun removed _ _ => ?_
      refine keeps_choice (Program.asks_done _) hcreate fun created _ _ => ?_
      refine keeps_choice (Program.asks_done _) (Action.asks_lift hupdate) fun updated _ _ => ?_
      exact Program.asks_done _

end

end Inventory

/-! ## Markers that are spared -/

/-- Whether a request has nothing to do with the markers of a handle. -/
def Request.Spares (id : HandleId) : Request → Prop
  | .mark _ i _ _ | .unmark _ i => i ≠ id
  | _ => True

/-- Work on a handle spares all markers. -/
theorem Request.WorksOn.spares {kind : SyncKind} {id other : HandleId} {r : Request}
    (h : r.WorksOn kind id) : r.Spares other := by
  cases r with
  | mark kind i owner life => exact h.elim
  | unmark kind i => exact h.elim
  | _ => trivial

theorem Request.Moves.spares {id other : HandleId} {r : Request} (h : r.Moves id) : r.Spares other :=
  (h.worksOn : r.WorksOn .data id).spares

/-- A deletion takes off markers of the handles that are deleted only. -/
theorem Request.Deletes.spares {ids : List HandleId} {id : HandleId} {r : Request} (h : r.Deletes ids)
    (hid : id ∉ ids) : r.Spares id := by
  cases r with
  | mark kind i owner life => exact h.elim
  | unmark kind i =>
      rintro rfl
      exact hid h
  | _ => trivial

namespace Inventory

variable {id : HandleId} {topic : String}

theorem spares_announce {other : HandleId} {old : Option Lifecycle} {new : Lifecycle} :
    (announce topic other old new).Asks (Request.Spares id) :=
  moves_announce.mono fun _ h => h.spares

/-! ### Registrations -/

theorem spares_create {endpoints : Endpoints} {requested : List RequestedHandle} :
    (create topic endpoints requested).run.Asks (Request.Spares id) :=
  asks_create trivial (fun _ => trivial) fun _ => spares_announce

theorem spares_update {requested : List RequestedHandle} :
    (update requested).Asks (Request.Spares id) :=
  asks_update (fun _ => trivial) fun _ => trivial

/-! ### Removals -/

theorem spares_remove {rawIds : List String} (h : id.text ∉ rawIds) :
    (remove topic rawIds).Asks (Request.Spares id) := by
  have hids : id ∉ rawIds.map HandleId.mk := by
    intro hmem
    rcases List.mem_map.1 hmem with ⟨raw, hraw, rfl⟩
    exact h hraw
  exact asks_remove (fun _ _ hr => hr.spares) (fun _ => trivial) fun _ hr => hr.spares hids

theorem spares_process {r : Registration} (h : id.text ∉ r.removed) :
    (process topic r).run.Asks (Request.Spares id) :=
  asks_process (spares_remove h) spares_create spares_update

/-! ### Selection -/

theorem spares_pick {kind : SyncKind} {visited : List HandleId} :
    (pick kind visited).run.Asks (Request.Spares id) :=
  asks_pick (fun _ => trivial) (fun _ => trivial) (fun _ => trivial) fun _ => trivial

theorem spares_readvise {m : Member} : (readvise m).Asks (Request.Spares id) :=
  (Program.asks_request trivial).bind fun _ => asks_readviseAt (fun _ _ hr => hr.spares) fun _ => trivial

end Inventory
end CmInventory
