import CmInventory.Proofs.Inventory.Removal
import CmInventory.Proofs.Inventory.SwitchedOff

/-!
# What members ask for that remove and create handles

A removal first moves handles to deleting, then deletes them, and at last announces those that are gone. A
creation stores new handles and then announces them. Both are judged by their records alone, whatever they
are replied, so that the judgements hold whatever other members do in between.

A removal moves and announces a handle as deleting only as long as it deleted none, and announces as deleted
only what it deleted (`RemovalMay`). When it is done it announced all that it moved, and if it deleted a
handle it announced that, unless something in its record kept it from finding the handle or from moving it
(`RemovalDone`). A creation announces only what it stored as new (`CreationMay`).
-/

namespace CmInventory

open Inventory

/-! ## Exchanges -/

namespace Exchange

/-- A handle was deleted. -/
def Deletes (id : HandleId) : Exchange → Prop
  | ⟨.store (.delete i), .ok _⟩ => i = id
  | ⟨.store (.deleteAll ids), .ok _⟩ => id ∈ ids
  | _ => False

/-- A handle was stored as new. -/
def Creates (id : HandleId) : Exchange → Prop
  | ⟨.store (.insert handles), .ok _⟩ => id ∈ newIds [] handles
  | ⟨.store (.insert handles), .error (.alreadyExists present)⟩ => id ∈ newIds present handles
  | _ => False

/-- The status of a handle was read, and the handle was in the given state. -/
def Reads (id : HandleId) (state : Lifecycle) (x : Exchange) : Prop :=
  ∃ s : HandleStatus, x = ⟨.store (.status id), .ok s⟩ ∧ s.lifecycle = state

/-- A move of a handle into a state was announced. -/
def Tells (id : HandleId) (state : Lifecycle) (x : Exchange) : Prop :=
  ∃ p e, x.request = .publish p ∧ p.event = .lifecycle e ∧ e.handleId = id ∧ e.newState = state

/-- Something that keeps a removal from moving a handle to deleting. -/
def Misses (id : HandleId) : Exchange → Prop
  | ⟨.store (.getMany _), .error _⟩ => True
  | ⟨.store (.getMany ids), .ok found⟩ => id ∈ ids ∧ id ∉ found.map (·.id)
  | ⟨.store (.status i), .error _⟩ => i = id
  | ⟨.store (.status i), .ok s⟩ => i = id ∧ s.lifecycle = .deleted
  | ⟨.store (.saveStatusIf i _ _), .error _⟩ => i = id
  | ⟨.store (.saveStatusIf i _ _), .ok written⟩ => i = id ∧ written = false
  | _ => False

variable {id : HandleId} {x : Exchange}

theorem Tells.state_unique {s s' : Lifecycle} (h : x.Tells id s) (h' : x.Tells id s') : s = s' := by
  rcases h with ⟨p, e, hp, he, -, rfl⟩
  rcases h' with ⟨p', e', hp', he', -, rfl⟩
  cases hp.symm.trans hp'
  cases he.symm.trans he'
  rfl

/-- What is part of a deletion is neither a write of a status nor an announcement. -/
theorem of_deletes {ids : List HandleId} (h : x.request.Deletes ids) :
    ¬ x.WritesStatus id ∧ ∀ state, ¬ x.Tells id state := by
  constructor
  · rintro ⟨expected, status, rfl⟩
    exact h
  · rintro state ⟨p, e, hp, -⟩
    rw [hp] at h
    exact h

theorem Deletes.mem {ids : List HandleId} (hx : x.Deletes id) (h : x.request.Deletes ids) : id ∈ ids := by
  rcases x with ⟨r, reply⟩
  cases r with
  | store call =>
      cases call with
      | delete i =>
          cases reply with
          | ok _ => exact (show i = id from hx) ▸ h
          | error e => exact hx.elim
      | deleteAll more =>
          cases reply with
          | ok _ => exact h id hx
          | error e => exact hx.elim
      | _ => exact hx.elim
  | _ => exact hx.elim

end Exchange

/-- Nothing was deleted so far. -/
def Undeleted (past : List Exchange) : Prop :=
  ∀ x ∈ past, ∀ id, ¬ x.Deletes id

/-- A handle was read in a state, and its status was not written since. -/
def ReadIn (id : HandleId) (state : Lifecycle) (past : List Exchange) : Prop :=
  Since (Exchange.Reads id state) (Exchange.WritesStatus id) past

/-- A handle was moved, and that it is deleting was not announced since. -/
def Unannounced (id : HandleId) (past : List Exchange) : Prop :=
  Since (Exchange.WritesStatus id) (Exchange.Tells id .deleting) past

/-- What a removal may ask for after what it asked before. -/
def RemovalMay : Request → List Exchange → Prop
  | .store (.getMany _), past | .store (.status _), past => Undeleted past
  | .store (.saveStatusIf i expected status), past =>
      Undeleted past ∧ status.lifecycle = .deleting ∧ ReadIn i expected past
  | .store (.delete _), _ | .store (.deleteAll _), _ => True
  | .store _, _ => False
  | .publish p, past => ∃ e, p.event = .lifecycle e ∧
      ((e.newState = .deleting ∧ Undeleted past ∧ ∃ x ∈ past, x.WritesStatus e.handleId) ∨
        (e.newState = .deleted ∧ ∃ x ∈ past, x.Deletes e.handleId))
  | _, _ => True

/-- What a creation may ask for after what it asked before. -/
def CreationMay : Request → List Exchange → Prop
  | .store (.insert handles), _ => (handles.map (·.id)).Nodup ∧ ∀ h ∈ handles, h.lifecycle = .advised
  | .store _, _ => False
  | .publish p, past => ∃ e, p.event = .lifecycle e ∧ e.newState = .advised ∧
      ∃ x ∈ past, x.Creates e.handleId
  | _, _ => True

/-- What a removal leaves behind in its record when it is done. -/
structure RemovalDone (id : HandleId) (past : List Exchange) : Prop where
  announced : ¬ Unannounced id past
  told : (∃ x ∈ past, x.Deletes id) →
    (∃ x ∈ past, x.Tells id .deleted) ∨ ∃ x ∈ past, x.Misses id

section

variable {id : HandleId} {past more : List Exchange} {topic : String}

theorem Undeleted.append (h : Undeleted past) (hmore : ∀ x ∈ more, ∀ i, ¬ x.Deletes i) :
    Undeleted (past ++ more) := by
  intro x hx i
  rcases List.mem_append.1 hx with hx | hx
  · exact h x hx i
  · exact hmore x hx i

theorem Undeleted.snoc (h : Undeleted past) {x : Exchange} (hx : ∀ i, ¬ x.Deletes i) :
    Undeleted (past ++ [x]) :=
  h.append fun y hy => by rwa [List.mem_singleton.1 hy]

theorem not_unannounced_append (h : ¬ Unannounced id past)
    (hmore : ∀ x ∈ more, ¬ x.WritesStatus id) : ¬ Unannounced id (past ++ more) := by
  induction more using List.reverseRecOn with
  | nil => rwa [List.append_nil]
  | append_singleton more x ih =>
      rw [← List.append_assoc, Unannounced, since_snoc]
      rintro (hwrites | ⟨hearlier, -⟩)
      · exact hmore x (by simp) hwrites
      · exact ih (fun y hy => hmore y (by simp [hy])) hearlier

/-! ## Announcements -/

/-- The exchanges of an announcement. -/
def announcement (topic : String) (id : HandleId) (old : Option Lifecycle) (new : Lifecycle)
    (eventId : EventId) (now : Instant) : List Exchange :=
  [⟨.newEventId, eventId⟩, ⟨.now, now⟩,
    ⟨.publish ⟨topic, id.text, .lifecycle ⟨eventId, id, old, new, now⟩⟩, ()⟩]

theorem recorded_announce {may : Request → List Exchange → Prop} {old : Option Lifecycle}
    {new : Lifecycle} {Q : Unit → List Exchange → Prop} (hid : ∀ past, may .newEventId past)
    (hnow : ∀ past, may .now past)
    (hpublish : ∀ eventId now,
      may (.publish ⟨topic, id.text, .lifecycle ⟨eventId, id, old, new, now⟩⟩)
        (past ++ [⟨.newEventId, eventId⟩] ++ [⟨.now, now⟩]))
    (hQ : ∀ eventId now, Q () (past ++ announcement topic id old new eventId now)) :
    (announce topic id old new).Ensures (.recorded may) Q past := by
  refine ensures_announce_iff.2 (recorded_request (hid _) fun eventId => ?_)
  refine recorded_request (hnow _) fun now => ?_
  refine recorded_request (hpublish eventId now) fun _ => ?_
  simpa [announcement] using hQ eventId now

theorem tells_announcement {old : Option Lifecycle} {new : Lifecycle} {eventId : EventId}
    {now : Instant} : ∃ x ∈ announcement topic id old new eventId now, x.Tells id new :=
  ⟨⟨.publish _, ()⟩, List.mem_cons_of_mem _ (List.mem_cons_of_mem _ (List.mem_cons_self ..)),
    _, ⟨eventId, id, old, new, now⟩, rfl, rfl, rfl, rfl⟩

/-- An announcement neither deletes nor moves. -/
theorem quiet_announcement {old : Option Lifecycle} {new : Lifecycle} {eventId : EventId} {now : Instant}
    {x : Exchange} (hx : x ∈ announcement topic id old new eventId now) (i : HandleId) :
    ¬ x.Deletes i ∧ ¬ x.WritesStatus i := by
  simp only [announcement, List.mem_cons, List.not_mem_nil, or_false] at hx
  rcases hx with rfl | rfl | rfl <;> exact ⟨fun h => h, by simp [Exchange.WritesStatus]⟩

/-! ## Moves to deleting -/

/-- Nothing was deleted so far, and what was moved was announced. -/
structure Abreast (id : HandleId) (past : List Exchange) : Prop where
  undeleted : Undeleted past
  announced : ¬ Unannounced id past

/-- An exchange that is neither a deletion nor a move. -/
theorem Abreast.snoc (h : Abreast id past) {x : Exchange} (hdeletes : ∀ i, ¬ x.Deletes i)
    (hwrites : ¬ x.WritesStatus id) : Abreast id (past ++ [x]) :=
  ⟨h.undeleted.snoc hdeletes,
    not_unannounced_append h.announced fun y hy => by rwa [List.mem_singleton.1 hy]⟩

/-- Once a handle was moved to deleting, the move is announced. -/
theorem removes_announcement (id : HandleId) {other : HandleId} {old : Option Lifecycle}
    {Q : Unit → List Exchange → Prop} (hundeleted : Undeleted past)
    (hmoved : ∃ x ∈ past, x.WritesStatus other)
    (hothers : other ≠ id → ¬ Unannounced id past)
    (hQ : ∀ more, Abreast id (past ++ more) → Q () (past ++ more)) :
    (announce topic other old .deleting).Ensures (.recorded RemovalMay) Q past := by
  refine recorded_announce (fun _ => trivial) (fun _ => trivial) ?_ ?_
  · intro eventId now
    refine ⟨_, rfl, Or.inl ⟨rfl, ?_, ?_⟩⟩
    · have hfirst : Undeleted (past ++ [⟨.newEventId, eventId⟩]) := hundeleted.snoc fun _ h => h
      exact hfirst.snoc fun _ h => h
    · rcases hmoved with ⟨x, hx, hwrites⟩
      exact ⟨x, by simp [hx], hwrites⟩
  · intro eventId now
    refine hQ _ ⟨hundeleted.append fun x hx i => (quiet_announcement hx i).1, ?_⟩
    by_cases hid : other = id
    · -- The announcement that is due comes last in the record.
      subst hid
      rw [announcement, show ∀ a b c : Exchange, past ++ [a, b, c] = past ++ [a, b] ++ [c] by simp,
        Unannounced, since_snoc]
      rintro (hwrites | ⟨-, huntold⟩)
      · exact absurd hwrites (by simp [Exchange.WritesStatus])
      · exact huntold ⟨_, _, rfl, rfl, rfl, rfl⟩
    · exact not_unannounced_append (hothers hid) fun x hx => (quiet_announcement hx id).2

/-- What an attempt to move a handle to deleting leaves behind in the record: a move that has yet to be
announced, or nothing, for which there is a reason in the record if it failed. -/
def MoveLeaves (id other : HandleId) (past : List Exchange) :
    Except InventoryError (Option Lifecycle) → List Exchange → Prop
  | .ok (some _), past' => past ⊆ past' ∧ Undeleted past' ∧ (∃ x ∈ past', x.WritesStatus other) ∧
      (other ≠ id → ¬ Unannounced id past')
  | .ok none, past' => past ⊆ past' ∧ Abreast id past'
  | .error _, past' => past ⊆ past' ∧ Abreast id past' ∧ (other = id → ∃ x ∈ past', x.Misses id)

/-- Nothing came of an attempt because of its last exchange. -/
theorem leaves_of_misses {other : HandleId} {before : List Exchange} {x : Exchange}
    (hkept : past ⊆ before) (h : Abreast id (before ++ [x])) (hx : other = id → x.Misses id) :
    past ⊆ before ++ [x] ∧ Abreast id (before ++ [x]) ∧
      (other = id → ∃ y ∈ before ++ [x], y.Misses id) :=
  ⟨List.Subset.trans hkept (List.subset_append_left ..), h,
    fun hid => ⟨x, List.mem_append_right _ (List.mem_singleton_self _), hx hid⟩⟩

namespace Inventory

/-- A status is written over the one that was read, unless something else was written meanwhile. -/
theorem removes_saveFrom {other : HandleId} {old : Lifecycle} {status : HandleStatus}
    (h : Abreast id past) (hread : ReadIn other old past) (hstatus : status.lifecycle = .deleting) :
    (saveFrom other old status).run.Ensures (.recorded RemovalMay)
      (fun result => MoveLeaves id other past (result.map fun _ => some old)) past := by
  refine ensures_saveFrom_iff.2 (recorded_request ⟨h.undeleted, hstatus, hread⟩ fun written => ?_)
  -- Unless the handle itself was moved there is nothing to announce of it.
  have hunmoved : (other = id → written ≠ .ok true) →
      Abreast id (past ++ [⟨.store (.saveStatusIf other old status), written⟩]) := by
    intro hne
    refine h.snoc (fun _ h => h) ?_
    rintro ⟨expected, status', heq⟩
    cases heq
    exact hne rfl rfl
  rcases written with e | written
  · exact leaves_of_misses (List.Subset.refl _) (hunmoved (by simp)) fun hid => hid
  · cases written with
    | false => exact leaves_of_misses (List.Subset.refl _) (hunmoved (by simp)) fun hid => ⟨hid, rfl⟩
    | true =>
        exact ⟨List.subset_append_left .., h.undeleted.snoc fun _ h => h,
          ⟨_, List.mem_append_right _ (List.mem_singleton_self _), _, _, rfl⟩,
          fun hne => (hunmoved fun hid => absurd hid hne).announced⟩

theorem removes_move {snapshot : Handle} (h : Abreast id past) :
    (move snapshot .deleting).run.Ensures (.recorded RemovalMay) (MoveLeaves id snapshot.id past) past := by
  refine (ensures_move_iff (by decide)).2 (recorded_request h.undeleted fun reply => ?_)
  have hread : Abreast id (past ++ [⟨.store (.status snapshot.id), reply⟩]) :=
    h.snoc (fun _ h => h) (by simp [Exchange.WritesStatus])
  cases reply with
  | error e => exact leaves_of_misses (List.Subset.refl _) hread fun hid => hid
  | ok s =>
      refine ⟨fun _ => ⟨List.subset_append_left .., hread⟩, ?refused, ?unexplained, ?writes⟩
      case refused =>
        intro _ hmove
        have hdeleted : s.lifecycle = .deleted := by
          by_contra halive
          exact hmove (canMoveTo_deleting halive)
        exact leaves_of_misses (List.Subset.refl _) hread fun hid => ⟨hid, hdeleted⟩
      case unexplained =>
        -- To be deleting a handle needs no reason.
        intro _ _ e hreason
        cases hreason
      case writes =>
        intro _ _ reason _
        refine recorded_request trivial fun now => ?_
        have hclock := hread.snoc (x := ⟨.now, now⟩) (fun _ h => h) (by simp [Exchange.WritesStatus])
        have hsince : ReadIn snapshot.id s.lifecycle
            (past ++ [⟨.store (.status snapshot.id), .ok s⟩] ++ [⟨.now, now⟩]) :=
          since_snoc.2 (Or.inr ⟨since_snoc.2 (Or.inl ⟨s, rfl, rfl⟩), by simp [Exchange.WritesStatus]⟩)
        have hsub : past ⊆ past ++ [⟨.store (.status snapshot.id), .ok s⟩] ++ [⟨.now, now⟩] := by
          simp
        refine Program.Ensures.mono (removes_saveFrom hclock hsince rfl) fun result past' hleaves => ?_
        rcases result with e | _
        · exact ⟨List.Subset.trans hsub hleaves.1, hleaves.2⟩
        · exact ⟨List.Subset.trans hsub hleaves.1, hleaves.2⟩

/-- An entry of a batch announces what it moved. -/
theorem removes_applyEntry {snapshot : Handle} (h : Abreast id past) :
    (applyEntry topic snapshot .deleting).Ensures (.recorded RemovalMay)
      (fun result past' => past ⊆ past' ∧ Abreast id past' ∧
        (snapshot.id = id → result.reached id = true ∨ ∃ x ∈ past', x.Misses id)) past := by
  refine ensures_applyEntry_of (removes_move h) ?failed ?stays ?moved
  case failed => exact fun e past₁ hleaves => ⟨hleaves.1, hleaves.2.1, fun hid => Or.inr (hleaves.2.2 hid)⟩
  case stays =>
    exact fun past₁ hleaves =>
      ⟨hleaves.1, hleaves.2, fun hid => Or.inl (by simp [BatchResult.reached, hid])⟩
  case moved =>
    rintro old past₁ ⟨hkept, hundeleted, hmoved, hothers⟩
    refine removes_announcement id hundeleted hmoved hothers fun more hmore => ?_
    exact ⟨List.Subset.trans hkept (List.subset_append_left ..), hmore,
      fun hid => Or.inl (by simp [BatchResult.reached, hid])⟩

/-- A batch that moves handles to deleting. -/
theorem removes_applyBatch {snapshots : List Handle} (h : Abreast id past) :
    (applyBatch topic (snapshots.map fun h => (h, .deleting))).Ensures (.recorded RemovalMay)
      (fun result past' => past ⊆ past' ∧ Abreast id past' ∧
        (id ∈ snapshots.map (·.id) →
          result.reached id = true ∨ ∃ x ∈ past', x.Misses id)) past := by
  induction snapshots generalizing past with
  | nil => exact ⟨List.Subset.refl _, h, by simp⟩
  | cons g rest ih =>
      simp only [List.map_cons, applyBatch]
      refine (removes_applyEntry h).bind ?_
      rintro here past₁ ⟨hkept, habreast, hreached⟩
      refine (ih habreast).bind ?_
      rintro more past₂ ⟨hkept', habreast', hreached'⟩
      refine ⟨List.Subset.trans hkept hkept', habreast', fun hid => ?_⟩
      rw [reached_append, Bool.or_eq_true]
      rcases List.mem_cons.1 hid with hown | hlater
      · rcases hreached hown.symm with hreached | ⟨x, hx, hmisses⟩
        · exact Or.inl (Or.inl hreached)
        · exact Or.inr ⟨x, hkept' hx, hmisses⟩
      · exact (hreached' hlater).imp_left Or.inr

/-- What a removal knows once it moved its handles to deleting. -/
def Found (id : HandleId) (ids : List HandleId) :
    Except StoreError (Dictionary Handle) → List Exchange → Prop
  | .error _, past => Abreast id past
  | .ok snapshots, past => Abreast id past ∧
      (∀ key g, snapshots.find? key = some g → g.id.text = key ∧ g.lifecycle = .deleting) ∧
      (id ∈ ids → (∃ g, snapshots.find? id.text = some g) ∨ ∃ x ∈ past, x.Misses id)

theorem removes_markDeleting (id : HandleId) {ids : List HandleId} :
    (markDeleting topic ids).Ensures (.recorded RemovalMay) (Found id ids) [] := by
  rw [markDeleting, Program.ensures_bind]
  refine recorded_request (fun _ h => absurd h (by simp)) fun reply => ?_
  have hfirst : Abreast id [⟨.store (.getMany ids), reply⟩] :=
    Abreast.snoc ⟨fun _ h => absurd h (by simp), not_since_nil⟩ (fun _ h => h)
      (by simp [Exchange.WritesStatus])
  cases reply with
  | error e => exact hfirst
  | ok snapshots =>
      refine (removes_applyBatch hfirst).bind ?_
      rintro result past ⟨hkept, habreast, hreached⟩
      refine ⟨habreast, ?_, fun hmem => ?_⟩
      · intro key g hfind
        rcases List.mem_map.1 (mem_of_find?_ofList hfind) with ⟨k, -, heq⟩
        rcases Prod.mk.inj heq with ⟨rfl, rfl⟩
        exact ⟨rfl, rfl⟩
      -- A handle of which no snapshot is kept was not found at first, or could not be moved.
      · by_cases hfound : id ∈ snapshots.map (·.id)
        · rcases hreached hfound with hreached | hmisses
          · rcases List.mem_map.1 hfound with ⟨g, hg, rfl⟩
            have hkeptg : g ∈ snapshots.filter fun h => result.reached h.id :=
              List.mem_filter.2 ⟨hg, hreached⟩
            rcases find?_ofList_of_mem (List.mem_map_of_mem
              (f := fun h : Handle => (h.id.text, asDeleting h)) hkeptg) with ⟨k, hfind, -⟩
            exact Or.inl ⟨k, hfind⟩
          · exact Or.inr hmisses
        · exact Or.inr ⟨_, hkept (List.mem_singleton_self _), hmem, hfound⟩

end Inventory

/-! ## Deletions -/

/-- What deletions add to a record: only what is part of a deletion, and the handles that were deleted are
those that are counted as done. -/
def DeletesIn (ids : List HandleId) (past : List Exchange) (deletions : List Deletion)
    (past' : List Exchange) : Prop :=
  ∃ more, past' = past ++ more ∧ (∀ x ∈ more, x.request.Deletes ids) ∧
    ∀ i, i ∈ doneIds deletions ↔ ∃ x ∈ more, x.Deletes i

theorem DeletesIn.refl : DeletesIn [] past [] past :=
  ⟨[], by simp, by simp, by simp [doneIds]⟩

theorem DeletesIn.trans {ids ids' : List HandleId} {ds es : List Deletion} {past' past'' : List Exchange}
    (h : DeletesIn ids past ds past') (h' : DeletesIn ids' past' es past'') :
    DeletesIn (ids ++ ids') past (ds ++ es) past'' := by
  rcases h with ⟨more, rfl, hdeletes, hdone⟩
  rcases h' with ⟨more', rfl, hdeletes', hdone'⟩
  refine ⟨more ++ more', List.append_assoc .., ?_, ?_⟩
  · intro x hx
    rcases List.mem_append.1 hx with hx | hx
    · exact (hdeletes x hx).mono fun _ hi => List.mem_append_left _ hi
    · exact (hdeletes' x hx).mono fun _ hi => List.mem_append_right _ hi
  · intro i
    rw [doneIds_append, List.mem_append, hdone i, hdone' i]
    simp only [List.mem_append, or_and_right, exists_or]

/-- A call that failed deleted nothing. -/
theorem DeletesIn.of_failed {ids : List HandleId} {x : Exchange} (hx : x.request.Deletes ids)
    (hnone : ∀ i, ¬ x.Deletes i) {ds : List Deletion} {past' : List Exchange}
    (h : DeletesIn ids (past ++ [x]) ds past') : DeletesIn ids past ds past' := by
  rcases h with ⟨more, rfl, hdeletes, hdone⟩
  refine ⟨x :: more, by simp, ?_, fun i => ?_⟩
  · intro y hy
    rcases List.mem_cons.1 hy with rfl | hy
    · exact hx
    · exact hdeletes y hy
  · rw [hdone i]
    simp [hnone i]

namespace Inventory

/-- To note a deletion markers are taken off, nothing else. -/
theorem removes_deleted {i : HandleId} :
    (deleted i).Ensures (.recorded RemovalMay) (fun d past' => d = ⟨i, .ok ()⟩ ∧
      past' = past ++ [⟨.unmark .data i, ()⟩, ⟨.unmark .modules i, ()⟩]) past := by
  rw [deleted, clearMarkers, Program.ensures_bind, Program.ensures_bind]
  refine recorded_request trivial fun _ => recorded_request trivial fun _ => ⟨rfl, ?_⟩
  rw [List.append_assoc]
  rfl

theorem removes_deleteOne {i : HandleId} :
    (deleteOne i).Ensures (.recorded RemovalMay) (fun d => DeletesIn [i] past [d]) past := by
  have hi : i ∈ [i] := List.mem_singleton_self i
  rw [deleteOne, Program.ensures_bind]
  refine recorded_request trivial fun reply => ?_
  cases reply with
  | error e =>
      refine ⟨[⟨.store (.delete i), .error e⟩], rfl, ?_, ?_⟩
      · intro x hx
        rw [List.mem_singleton.1 hx]
        exact hi
      · simp [doneIds, Deletion.isDone, Exchange.Deletes]
  | ok _ =>
      refine removes_deleted.mono ?_
      rintro d past' ⟨rfl, rfl⟩
      refine ⟨[⟨.store (.delete i), .ok ()⟩, ⟨.unmark .data i, ()⟩, ⟨.unmark .modules i, ()⟩],
        by simp, ?_, ?_⟩
      · simp [Request.Deletes]
      · intro j
        change j ∈ [i] ↔ _
        simp [Exchange.Deletes, eq_comm (a := j) (b := i)]

theorem removes_deleteChunk {ids : List HandleId} :
    (deleteChunk ids).Ensures (.recorded RemovalMay) (fun ds => DeletesIn ids past ds) past := by
  have hall : Request.Deletes ids (.store (.deleteAll ids)) := fun _ hi => hi
  rw [deleteChunk, Program.ensures_bind]
  refine recorded_request trivial fun reply => ?_
  cases reply with
  | error e =>
      -- The handles are deleted one by one, and each deletion counts for itself.
      refine Program.Ensures.mono (Program.ensures_mapM
        (I := fun done ds => DeletesIn done (past ++ [⟨.store (.deleteAll ids), .error e⟩]) ds) ?_ .refl)
        fun ds past' h => .of_failed (x := ⟨.store (.deleteAll ids), .error e⟩) hall (fun _ h => h) h
      intro done ds past' i h
      exact removes_deleteOne.mono fun d past'' hd => h.trans hd
  | ok _ =>
      -- All are gone at once, and what follows only takes markers off.
      refine Program.Ensures.mono (Program.ensures_mapM
        (I := fun done ds past' => ds = done.map (Deletion.mk · (.ok ())) ∧
          ∃ more, past' = past ++ [⟨.store (.deleteAll ids), .ok ()⟩] ++ more ∧
            ∀ x ∈ more, x.request.Deletes done ∧ ∀ i, ¬ x.Deletes i)
        ?_ ⟨rfl, [], by simp, by simp⟩) ?_
      · rintro done ds _ i ⟨rfl, more, rfl, hmore⟩
        refine removes_deleted.mono ?_
        rintro d _ ⟨rfl, rfl⟩
        refine ⟨by simp, _, List.append_assoc .., fun x hx => ?_⟩
        rcases List.mem_append.1 hx with hx | hx
        · exact ⟨(hmore x hx).1.mono fun _ hi => List.mem_append_left _ hi, (hmore x hx).2⟩
        · have hi : i ∈ done ++ [i] := List.mem_append_right _ (List.mem_singleton_self i)
          simp only [List.mem_cons, List.not_mem_nil, or_false] at hx
          rcases hx with rfl | rfl <;> exact ⟨hi, fun _ h => h⟩
      · rintro ds _ ⟨rfl, more, rfl, hmore⟩
        refine ⟨⟨.store (.deleteAll ids), .ok ()⟩ :: more, by simp, ?_, fun i => ?_⟩
        · intro x hx
          rcases List.mem_cons.1 hx with rfl | hx
          · exact hall
          · exact (hmore x hx).1
        · rw [doneIds_done]
          constructor
          · intro hi
            exact ⟨_, List.mem_cons_self, hi⟩
          · rintro ⟨x, hx, hdeletes⟩
            rcases List.mem_cons.1 hx with rfl | hx
            · exact hdeletes
            · exact absurd hdeletes ((hmore x hx).2 i)

theorem removes_deleteChunks {lists : List (List HandleId)} :
    (deleteChunks lists).Ensures (.recorded RemovalMay)
      (fun ds => DeletesIn lists.flatten past ds) past := by
  induction lists generalizing past with
  | nil => exact .refl
  | cons chunk rest ih =>
      rw [deleteChunks, List.flatten_cons]
      refine removes_deleteChunk.bind fun here past₁ hhere => ?_
      exact ih.bind fun more past₂ hmore => hhere.trans hmore

end Inventory

/-! ## Removals -/

namespace Inventory

/-- The last announcements of a removal: of all handles that it deleted and had found. -/
theorem removes_applyBatch_gone (id : HandleId) {gone : List Handle}
    (hlife : ∀ g ∈ gone, g.lifecycle = .deleting) (hgone : ∀ g ∈ gone, ∃ x ∈ past, x.Deletes g.id) :
    (applyBatch topic (gone.map fun h => (h, .deleted))).Ensures (.recorded RemovalMay)
      (fun _ past' => ∃ more, past' = past ++ more ∧
        (∀ x ∈ more, ∀ i, ¬ x.Deletes i ∧ ¬ x.WritesStatus i) ∧
          (id ∈ gone.map (·.id) → ∃ x ∈ more, x.Tells id .deleted)) past := by
  induction gone generalizing past with
  | nil => exact ⟨[], by simp, by simp, by simp⟩
  | cons g rest ih =>
      simp only [List.map_cons, applyBatch, applyEntry_gone (hlife g (by simp))]
      rw [Program.ensures_bind, Program.ensures_bind]
      have hdeleted : ∀ more, ∃ x ∈ past ++ more, x.Deletes g.id := by
        intro more
        rcases hgone g (by simp) with ⟨x, hx, hdeletes⟩
        exact ⟨x, List.mem_append_left _ hx, hdeletes⟩
      refine recorded_announce (fun _ => trivial) (fun _ => trivial) ?_ ?_
      · intro eventId now
        refine ⟨_, rfl, Or.inr ⟨rfl, ?_⟩⟩
        rw [List.append_assoc]
        exact hdeleted _
      intro eventId now
      refine Program.Ensures.bind (ih (fun h hmem => hlife h (by simp [hmem])) ?_) ?_
      · intro h hmem
        rcases hgone h (by simp [hmem]) with ⟨x, hx, hdeletes⟩
        exact ⟨x, List.mem_append_left _ hx, hdeletes⟩
      rintro result _ ⟨more, rfl, hquiet, htold⟩
      refine ⟨_, List.append_assoc .., ?_, fun hid => ?_⟩
      · intro x hx i
        rcases List.mem_append.1 hx with hx | hx
        · exact quiet_announcement hx i
        · exact hquiet x hx i
      · rcases List.mem_cons.1 hid with rfl | hid
        · have hown : ∃ x ∈ announcement topic g.id (some .deleting) .deleted eventId now,
              x.Tells g.id .deleted := tells_announcement
          rcases hown with ⟨x, hx, htells⟩
          exact ⟨x, List.mem_append_left _ hx, htells⟩
        · rcases htold hid with ⟨x, hx, htells⟩
          exact ⟨x, List.mem_append_right _ hx, htells⟩

theorem removes_remove {rawIds : List String} :
    (remove topic rawIds).Ensures (.recorded RemovalMay) (fun _ => RemovalDone id) [] := by
  rw [remove]
  refine (removes_markDeleting id).bind fun marked past hfound => ?_
  cases marked with
  | error e =>
      refine ⟨hfound.announced, ?_⟩
      rintro ⟨x, hx, hdeletes⟩
      exact absurd hdeletes (hfound.undeleted x hx id)
  | ok snapshots =>
      rcases hfound with ⟨habreast, hsnapshots, hfind⟩
      refine removes_deleteChunks.bind ?_
      rintro deletions _ ⟨more, rfl, hdeletes, hdone⟩
      rw [flatten_chunks] at hdeletes
      refine (removes_applyBatch_gone id ?_ ?_).bind ?_
      · intro g hg
        rcases List.mem_filterMap.1 hg with ⟨d, -, hd⟩
        exact (hsnapshots _ g hd).2
      · intro g hg
        rcases List.mem_filterMap.1 hg with ⟨d, hmem, hd⟩
        have hid : g.id = d.id := HandleId.text_inj.1 (hsnapshots _ g hd).1
        rcases (hdone g.id).1 (hid ▸ List.mem_map_of_mem hmem) with ⟨x, hx, hx'⟩
        exact ⟨x, List.mem_append_right _ hx, hx'⟩
      rintro result _ ⟨last, rfl, hquiet, htold⟩
      refine ⟨?_, ?_⟩
      · refine not_unannounced_append (not_unannounced_append habreast.announced ?_) ?_
        · exact fun x hx => (Exchange.of_deletes (hdeletes x hx)).1
        · exact fun x hx => (hquiet x hx id).2
      rintro ⟨x, hx, hx'⟩
      -- The handle was deleted by one of the deletions, so it was asked for.
      have hx : x ∈ more := by
        rcases List.mem_append.1 hx with hx | hx
        · exact (List.mem_append.1 hx).resolve_left fun h => habreast.undeleted x h id hx'
        · exact absurd hx' (hquiet x hx id).1
      rcases hfind (hx'.mem (hdeletes x hx)) with ⟨g, hg⟩ | ⟨y, hy, hmisses⟩
      · have hgid : g.id = id := HandleId.text_inj.1 (hsnapshots _ g hg).1
        rcases List.mem_map.1 ((hdone id).2 ⟨x, hx, hx'⟩) with ⟨d, hd, hdid⟩
        have hlast : g ∈ (deletions.filter (·.isDone)).filterMap fun d => snapshots.find? d.id.text :=
          List.mem_filterMap.2 ⟨d, hd, by rw [hdid, hg]⟩
        rcases htold (List.mem_map.2 ⟨g, hlast, hgid⟩) with ⟨y, hy, hy'⟩
        exact Or.inl ⟨y, List.mem_append_right _ hy, hy'⟩
      · exact Or.inr ⟨y, by simp [hy], hmisses⟩

end Inventory

/-! ## Creations -/

/-- A program that only reads the clock gives whatever it is told what it gives in every world. -/
theorem Program.Ensures.recorded {α : Type} {p : Program α} {Q : α → Prop}
    {may : Request → List Exchange → Prop} (hasks : p.Asks (· = .now)) (hmay : ∀ past, may .now past)
    (h : ∀ w, p.Ensures .alone (fun a _ => Q a) w) : p.Ensures (.recorded may) (fun a _ => Q a) past := by
  -- After a record the world is one in which as many requests were made.
  refine (h { World.empty with turn := past.length }).within
    (fun past : List Exchange => { World.empty with turn := past.length }) hasks ?_ ?_
  · rintro r past rfl
    exact hmay past
  · rintro r past now _ rfl rfl
    refine ⟨{ World.undisturbed with clock := fun _ => now }, .zero, ?_, ?_⟩
    · intro n call e hfails
      cases hfails
    · rw [List.length_append]
      rfl

namespace Inventory

theorem creates_announceNew {present : List HandleId} {handles : List Handle}
    (h : ∀ g ∈ handles, g.id ∉ present → ∃ x ∈ past, x.Creates g.id) :
    (announceNew topic present handles).Ensures (.recorded CreationMay) (fun _ _ => True) past := by
  induction handles generalizing past with
  | nil => trivial
  | cons g rest ih =>
      rw [announceNew]
      split
      · exact (ih fun k hk => h k (by simp [hk])).bind fun _ _ _ => trivial
      rename_i hnew
      rcases h g (by simp) (by simpa using hnew) with ⟨x, hx, hcreates⟩
      rw [Program.ensures_bind]
      refine recorded_announce (fun _ => trivial) (fun _ => trivial) ?_ ?_
      · exact fun eventId now => ⟨_, rfl, rfl, x, by simp [hx], hcreates⟩
      · intro eventId now
        refine (ih fun k hk hout => ?_).bind fun _ _ _ => trivial
        rcases h k (by simp [hk]) hout with ⟨y, hy, hcreates'⟩
        exact ⟨y, List.mem_append_left _ hy, hcreates'⟩

/-- What is announced are the handles that the store did not name as present. -/
theorem creates_register {handles : List Handle} (hnodup : (handles.map (·.id)).Nodup) :
    (register topic handles).Ensures (.recorded CreationMay) (fun _ _ => True) past := by
  have hnew : ∀ (present : List HandleId) (admitted : List Handle), ∀ g ∈ admitted, g.id ∉ present →
      g.id ∈ newIds present admitted := by
    intro present admitted g hg hout
    exact List.mem_filter.2 ⟨List.mem_map_of_mem hg, by simpa using hout⟩
  rw [register]
  refine Program.Ensures.bind (Program.Ensures.recorded (asks_accept (P := (· = .now)) rfl)
    (fun _ => trivial) fun w => ensures_accept.mono fun _ _ h => h.2) ?_
  rintro ⟨admitted, rejected⟩ past₁ ⟨hsub, hall⟩
  rw [Program.ensures_bind]
  refine recorded_request ⟨hnodup.sublist hsub, fun g hg => (hall g hg).1⟩ fun reply => ?_
  cases reply with
  | ok _ =>
      refine (creates_announceNew fun g hg hout => ?_).bind fun _ _ _ => ?_
      · exact ⟨_, List.mem_append_right _ (List.mem_singleton_self _), hnew [] admitted g hg hout⟩
      · trivial
  | error e =>
      cases e with
      | alreadyExists present =>
          refine (creates_announceNew fun g hg hout => ?_).bind fun _ _ _ => ?_
          · exact ⟨_, List.mem_append_right _ (List.mem_singleton_self _),
              hnew present admitted g hg hout⟩
          · trivial
      | _ => trivial

theorem creates_create {endpoints : Endpoints} {requested : List RequestedHandle} :
    (create topic endpoints requested).run.Ensures (.recorded CreationMay) (fun _ _ => True) past := by
  rw [create]
  cases endpoints.flaw? with
  | some flaw => trivial
  | none =>
      rw [Action.run_lift, Program.ensures_bind]
      refine Program.Ensures.bind (Program.Ensures.recorded (asks_screen (P := (· = .now)) rfl)
        (fun _ => trivial) fun w => ensures_screen.mono fun _ _ h => h.2.1) ?_
      intro candidates past₁ hnodup
      exact (creates_register hnodup).bind fun _ _ _ => trivial

end Inventory

end
end CmInventory
