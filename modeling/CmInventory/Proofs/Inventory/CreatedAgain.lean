import CmInventory.Proofs.Inventory.ComingAndGoing

/-!
# Handles that are created while they are removed

One member removes a handle and another one creates a handle of the same id. A removal takes the record
first and announces later that it is gone, while a creation announces the new handle as soon as it is
stored. So the announcements need not come in the order of the changes that they tell of, and the events of
the handle may end with its deletion although it is stored.

A turn of the two members changes the state of a handle in one of three ways (`StateTurn`), and what is
told of it in one of three ways (`ToldTurn`). Up to its first deletion the record of the removal tells all
about the handle (`Attended`). From then on the last change says what is stored, and the last announcement
what is told (`removed_and_created_iff`).
-/

namespace CmInventory

open Inventory

/-! ## Turns -/

/-- Whether the record of a handle came in a turn. -/
def Turn.Creates (id : HandleId) (t : Turn World) : Prop :=
  t.before.store.lifecycle? id = none ∧ t.after.store.lifecycle? id ≠ none

/-- Whether a move of a handle into a state was announced in a turn. -/
def Turn.Tells (id : HandleId) (state : Lifecycle) (t : Turn World) : Prop :=
  t.exchange.Tells id state

/-- What a turn of one of the two members makes of the state of a handle. -/
inductive StateTurn (id : HandleId) (t : Turn World) : Prop
  | deleted (member : t.member = 0) (deletes : t.exchange.Deletes id)
      (before : t.before.store.lifecycle? id ≠ none) (after : t.after.store.lifecycle? id = none)
  | created (member : t.member = 1) (creates : t.exchange.Creates id)
      (before : t.before.store.lifecycle? id = none)
      (after : t.after.store.lifecycle? id = some .advised)
  | moved (member : t.member = 0) (writes : t.exchange.WritesStatus id)
      (before : t.before.store.lifecycle? id ≠ none)
      (after : t.after.store.lifecycle? id = some .deleting)
  | same (deletes : ¬ t.exchange.Deletes id) (creates : ¬ t.exchange.Creates id)
      (writes : ¬ t.exchange.WritesStatus id)
      (after : t.after.store.lifecycle? id = t.before.store.lifecycle? id)

/-- What a turn of one of the two members, after the given ones, makes of what is told of a handle. -/
inductive ToldTurn (id : HandleId) (past : List (Turn World)) (t : Turn World) : Prop
  | deleting (member : t.member = 0) (moved : ∃ x ∈ recordOf 0 past, x.WritesStatus id)
      (undeleted : Undeleted (recordOf 0 past)) (tells : t.Tells id .deleting)
      (after : toldState (movesOf id t.after.published) = some .deleting)
  | deleted (member : t.member = 0) (deletes : ∃ x ∈ recordOf 0 past, x.Deletes id)
      (tells : t.Tells id .deleted) (after : toldState (movesOf id t.after.published) = none)
  | advised (member : t.member = 1) (creates : ∃ x ∈ recordOf 1 past, x.Creates id)
      (tells : t.Tells id .advised) (after : toldState (movesOf id t.after.published) = some .advised)
  | silent (untold : ∀ state, ¬ t.Tells id state)
      (after : toldState (movesOf id t.after.published) = toldState (movesOf id t.before.published))

section

variable {id : HandleId} {fails : StoreCall → Prop} {i : Nat} {r : Request} {reply : r.Reply} {w w' : World}
  {past : List Exchange}

/-- A batch is deleted, or nothing is. -/
theorem gone_or_same {ids : List HandleId} {reply : Except StoreError Unit} {failed : Prop}
    (hs : w.store.Sound)
    (h : w'.published = w.published ∧ ((∃ e, failed ∧ reply = .error e ∧ w'.store = w.store) ∨
      (reply, w'.store) = w.store.settle (w.store.deleteAll ids))) :
    (reply = .ok () ∧ Gone ids w w') ∨ (∃ e, reply = .error e) ∧ w'.store = w.store := by
  rcases h with ⟨hpublished, ⟨e, -, rfl, hstore⟩ | hsettled⟩
  · exact Or.inr ⟨⟨e, rfl⟩, hstore⟩
  cases hdelete : w.store.deleteAll ids with
  | error e =>
      rw [hdelete] at hsettled
      rcases Prod.mk.inj hsettled with ⟨rfl, hstore⟩
      exact Or.inr ⟨⟨e, rfl⟩, hstore⟩
  | ok s =>
      rw [hdelete] at hsettled
      rcases Prod.mk.inj hsettled with ⟨rfl, hstore⟩
      exact Or.inl ⟨rfl, gone_of_deleteAll hs hdelete hstore hpublished⟩

/-- An answer that leaves the store as it is. -/
theorem StateTurn.of_store (hstore : w'.store = w.store) (hr : ∀ call, r ≠ .store call) :
    StateTurn id ⟨i, r, reply, w, w'⟩ := by
  cases r with
  | store call => exact absurd rfl (hr call)
  | _ =>
      exact .same (fun h => h) (fun h => h) (by simp [Turn.exchange, Exchange.WritesStatus])
        (congrArg (·.lifecycle? id) hstore)

theorem StateTurn.of_gone (ids : List HandleId) (reply : Except StoreError Unit) {t : Turn World}
    (ht : t.member = 0) (hdeletes : t.exchange.Deletes id ↔ reply = .ok () ∧ id ∈ ids)
    (hquiet : ¬ t.exchange.Creates id ∧ ¬ t.exchange.WritesStatus id)
    (h : (reply = .ok () ∧ Gone ids t.before t.after) ∨
      (∃ e, reply = .error e) ∧ t.after.store = t.before.store) : StateTurn id t := by
  rcases h with ⟨rfl, hgone⟩ | ⟨⟨e, rfl⟩, hstore⟩
  · by_cases hid : id ∈ ids
    · exact .deleted ht (hdeletes.2 ⟨rfl, hid⟩) (hgone.stored id hid) (by rw [hgone.states, if_pos hid])
    · exact .same (fun h => hid (hdeletes.1 h).2) hquiet.1 hquiet.2 (by rw [hgone.states, if_neg hid])
  · exact .same (fun h => absurd (hdeletes.1 h).1 (by simp)) hquiet.1 hquiet.2 (by rw [hstore])

theorem RemovalMay.stateTurn (hs : w.store.Sound) (hmay : RemovalMay r past)
    (hans : World.Answers fails r w reply w') : StateTurn id ⟨0, r, reply, w, w'⟩ := by
  cases r with
  | store call =>
      have hread : (w.store.perform call).2 = w.store → w'.store = w.store := by
        intro hread
        rcases World.Answers.store hans with ⟨-, ⟨e, -, -, hstore⟩ | hperform⟩
        · exact hstore
        · exact (Prod.ext_iff.1 hperform).2.trans hread
      cases call with
      | getMany ids =>
          exact .same (fun h => h) (fun h => h) (by simp [Turn.exchange, Exchange.WritesStatus])
            (congrArg (·.lifecycle? id) (hread rfl))
      | status i =>
          exact .same (fun h => h) (fun h => h) (by simp [Turn.exchange, Exchange.WritesStatus])
            (congrArg (·.lifecycle? id) (hread rfl))
      | saveStatusIf j expected status =>
          by_cases hwritten : Exchange.WritesStatus id ⟨.store (.saveStatusIf j expected status), reply⟩
          · rcases hwritten with ⟨expected', status', heq⟩
            cases heq
            rcases hans.record?_of_written hs with ⟨g, hg, hafter⟩
            refine .moved rfl ⟨_, _, rfl⟩ ?_ ?_
            · simp [Store.lifecycle?, hg]
            · change w'.store.lifecycle? id = _
              rw [Store.lifecycle?, hafter, ← hmay.2.1]
              rfl
          · refine .same (fun h => h) (fun h => h) hwritten ?_
            have hrecord := hans.record?_of_unwritten hs (by trivial) hwritten
            exact congrArg (Option.map Handle.lifecycle) hrecord
      | delete j =>
          refine .of_gone [j] reply rfl ?_ ⟨fun h => h, by simp [Turn.exchange, Exchange.WritesStatus]⟩ ?_
          · cases reply <;> simp [Turn.exchange, Exchange.Deletes, eq_comm (a := id) (b := j)]
          · have hcall := World.Answers.store hans
            rw [Store.perform, ← deleteAll_singleton] at hcall
            exact gone_or_same hs hcall
      | deleteAll ids =>
          refine .of_gone ids reply rfl ?_ ⟨fun h => h, by simp [Turn.exchange, Exchange.WritesStatus]⟩ ?_
          · cases reply <;> simp [Turn.exchange, Exchange.Deletes]
          · exact gone_or_same hs (World.Answers.store hans)
      | _ => exact hmay.elim
  | publish p => exact .of_store (World.Answers.publish hans).1 (by simp)
  | _ => exact .of_store (World.Answers.quiet (by trivial) hans).1 (by simp)

theorem CreationMay.stateTurn (hs : w.store.Sound) (hmay : CreationMay r past)
    (hans : World.Answers StoreCall.Deletes r w reply w') : StateTurn id ⟨1, r, reply, w, w'⟩ := by
  cases r with
  | store call =>
      cases call with
      | insert handles =>
          rcases hmay with ⟨hnodup, hadvised⟩
          rcases World.Answers.store hans with ⟨-, ⟨e, hfails, -⟩ | hperform⟩
          · exact hfails.elim
          have hstore : w'.store = (w.store.insert handles).2 :=
            (Prod.ext_iff.1 hperform).2.trans (Store.perform_insert _ _)
          have hstates := lifecycle?_insert hs hnodup hadvised id
          rw [← hstore] at hstates
          -- The store names those that were there, so that the reply tells what was new.
          have hnew : Exchange.Creates id ⟨.store (.insert handles), reply⟩ ↔
              id ∈ newIds (w.store.insert handles).1 handles := by
            rw [Store.perform] at hperform
            split at hperform
            · rename_i hinsert
              rcases Prod.mk.inj hperform with ⟨rfl, -⟩
              rw [hinsert]
              exact Iff.rfl
            · rename_i hinsert
              rcases Prod.mk.inj hperform with ⟨rfl, -⟩
              rw [hinsert]
              exact Iff.rfl
          by_cases hcreates : Exchange.Creates id ⟨.store (.insert handles), reply⟩
          · refine .created rfl hcreates ?_ (hstates.trans (if_pos (hnew.1 hcreates)))
            have hnone := ((mem_newIds_insert hs hnodup).1 (hnew.1 hcreates)).2
            exact congrArg (Option.map Handle.lifecycle) hnone
          · exact .same (fun h => h) hcreates (by simp [Turn.exchange, Exchange.WritesStatus])
              (hstates.trans (if_neg fun h => hcreates (hnew.2 h)))
      | _ => exact hmay.elim
  | publish p => exact .of_store (World.Answers.publish hans).1 (by simp)
  | _ => exact .of_store (World.Answers.quiet (by trivial) hans).1 (by simp)

/-! ### Announcements -/

theorem toldState_publish {events : List Published} {topic key : String} {e : LifecycleEvent} :
    toldState (movesOf id (events ++ [⟨topic, key, .lifecycle e⟩])) =
      if e.handleId = id then e.newState.told else toldState (movesOf id events) := by
  rw [movesOf_append, movesOf_lifecycle]
  split
  · rw [toldState_snoc]
  · rw [List.append_nil]

variable {before : List (Turn World)}

/-- A request that publishes nothing. -/
theorem ToldTurn.of_published (hr : ∀ p, r ≠ .publish p) (hpublished : w'.published = w.published) :
    ToldTurn id before ⟨i, r, reply, w, w'⟩ := by
  refine .silent ?_ (by rw [hpublished])
  rintro state ⟨p, -, hp, -⟩
  exact hr p hp

theorem ToldTurn.of_other {topic key : String} {e : LifecycleEvent} {u : Unit}
    (hans : World.Answers fails (.publish ⟨topic, key, .lifecycle e⟩) w u w') (hne : e.handleId ≠ id) :
    ToldTurn id before ⟨i, .publish ⟨topic, key, .lifecycle e⟩, u, w, w'⟩ := by
  refine .silent ?_ ?_
  · rintro state ⟨p, e', hp, he', hid, -⟩
    cases hp
    cases he'
    exact hne hid
  · rw [(World.Answers.publish hans).2, toldState_publish, if_neg hne]

/-- An announcement of the handle itself. -/
theorem told_of_publish {topic key : String} {e : LifecycleEvent} {u : Unit}
    (hans : World.Answers fails (.publish ⟨topic, key, .lifecycle e⟩) w u w') (hid : e.handleId = id) :
    toldState (movesOf id w'.published) = e.newState.told := by
  rw [(World.Answers.publish hans).2, toldState_publish, if_pos hid]

theorem RemovalMay.toldTurn (hmay : RemovalMay r (recordOf 0 before))
    (hans : World.Answers fails r w reply w') : ToldTurn id before ⟨0, r, reply, w, w'⟩ := by
  cases r with
  | store call => exact .of_published (by simp) (World.Answers.store hans).1
  | publish p =>
      rcases p with ⟨topic, key, event⟩
      rcases hmay with ⟨e, rfl, hmay⟩
      by_cases hid : e.handleId = id
      · have htold := told_of_publish hans hid
        rw [hid] at hmay
        rcases hmay with ⟨hnew, hundeleted, hmoved⟩ | ⟨hnew, hdeletes⟩
        · exact .deleting rfl hmoved hundeleted ⟨_, e, rfl, rfl, hid, hnew⟩ (by rw [htold, hnew]; rfl)
        · exact .deleted rfl hdeletes ⟨_, e, rfl, rfl, hid, hnew⟩ (by rw [htold, hnew]; rfl)
      · exact .of_other hans hid
  | _ => exact .of_published (by simp) (World.Answers.quiet (by trivial) hans).2

theorem CreationMay.toldTurn (hmay : CreationMay r (recordOf 1 before))
    (hans : World.Answers fails r w reply w') : ToldTurn id before ⟨1, r, reply, w, w'⟩ := by
  cases r with
  | store call => exact .of_published (by simp) (World.Answers.store hans).1
  | publish p =>
      rcases p with ⟨topic, key, event⟩
      rcases hmay with ⟨e, rfl, hnew, hcreates⟩
      by_cases hid : e.handleId = id
      · have htold := told_of_publish hans hid
        rw [hid] at hcreates
        exact .advised rfl hcreates ⟨_, e, rfl, rfl, hid, hnew⟩ (by rw [htold, hnew]; rfl)
      · exact .of_other hans hid
  | _ => exact .of_published (by simp) (World.Answers.quiet (by trivial) hans).2

/-! ### Turns and records -/

theorem StateTurn.deletes_iff {t : Turn World} (h : StateTurn id t) :
    t.Deletes id ↔ t.member = 0 ∧ t.exchange.Deletes id := by
  cases h with
  | deleted member deletes before after =>
      exact ⟨fun _ => ⟨member, deletes⟩, fun _ => ⟨before, after⟩⟩
  | created member creates before after =>
      exact ⟨fun h => absurd before h.1, fun h => absurd (h.1.symm.trans member) (by decide)⟩
  | moved member writes before after =>
      refine ⟨fun h => absurd (after.symm.trans h.2) (by simp), fun h => ?_⟩
      rcases writes with ⟨expected, status, hexchange⟩
      rw [hexchange] at h
      exact h.2.elim
  | same deletes creates writes after =>
      exact ⟨fun h => absurd (after.symm.trans h.2) h.1, fun h => absurd h.2 deletes⟩

theorem StateTurn.creates_iff {t : Turn World} (h : StateTurn id t) :
    t.Creates id ↔ t.member = 1 ∧ t.exchange.Creates id := by
  cases h with
  | deleted member deletes before after =>
      exact ⟨fun h => absurd h.1 before, fun h => absurd (h.1.symm.trans member) (by decide)⟩
  | created member creates before after =>
      exact ⟨fun _ => ⟨member, creates⟩, fun _ => ⟨before, by simp [after]⟩⟩
  | moved member writes before after =>
      exact ⟨fun h => absurd h.1 before, fun h => absurd (h.1.symm.trans member) (by decide)⟩
  | same deletes creates writes after =>
      exact ⟨fun h => absurd (after.trans h.1) h.2, fun h => absurd h.2 creates⟩

/-- In the record of the removal stands what it deleted. -/
theorem exists_deletes_iff {turns : List (Turn World)} (h : ∀ t ∈ turns, StateTurn id t) :
    (∃ x ∈ recordOf 0 turns, x.Deletes id) ↔ ∃ t ∈ turns, t.Deletes id := by
  constructor
  · rintro ⟨x, hx, hdeletes⟩
    rcases mem_recordOf.1 hx with ⟨t, ht, hmember, rfl⟩
    exact ⟨t, ht, (h t ht).deletes_iff.2 ⟨hmember, hdeletes⟩⟩
  · rintro ⟨t, ht, hdeletes⟩
    rcases (h t ht).deletes_iff.1 hdeletes with ⟨hmember, hdeletes⟩
    exact ⟨t.exchange, mem_recordOf.2 ⟨t, ht, hmember, rfl⟩, hdeletes⟩

/-- In the record of the creation stands what it stored. -/
theorem exists_creates_iff {turns : List (Turn World)} (h : ∀ t ∈ turns, StateTurn id t) :
    (∃ x ∈ recordOf 1 turns, x.Creates id) ↔ ∃ t ∈ turns, t.Creates id := by
  constructor
  · rintro ⟨x, hx, hcreates⟩
    rcases mem_recordOf.1 hx with ⟨t, ht, hmember, rfl⟩
    exact ⟨t, ht, (h t ht).creates_iff.2 ⟨hmember, hcreates⟩⟩
  · rintro ⟨t, ht, hcreates⟩
    rcases (h t ht).creates_iff.1 hcreates with ⟨hmember, hcreates⟩
    exact ⟨t.exchange, mem_recordOf.2 ⟨t, ht, hmember, rfl⟩, hcreates⟩

end

/-! ## Both members together -/

/-- A member that removes handles, and one that creates handles. -/
def removalAndCreation (topic : String) (rawIds : List String) (topic' : String) (endpoints : Endpoints)
    (requested : List RequestedHandle) : List (Program Unit) :=
  [(Demand.remove topic rawIds).program, (Demand.create topic' endpoints requested).program]

/-- A handle is stored after some turns, and the record of the removal tells what became of it: the state
that was read is the stored one, a handle that was moved is deleting, and what was announced is told. -/
structure Attended (id : HandleId) (state : Lifecycle) (turns : List (Turn World)) (w : World) : Prop where
  stored : w.store.lifecycle? id = some state
  alive : state ≠ .deleted
  read : ∀ s, ReadIn id s (recordOf 0 turns) → s = state
  moved : (∃ x ∈ recordOf 0 turns, x.WritesStatus id) → state = .deleting
  told : ¬ Unannounced id (recordOf 0 turns) → toldState (movesOf id w.published) = some state

/-- A removal that misses a handle did not delete anything yet. -/
theorem RemovalMay.undeleted_of_misses {id : HandleId} {x : Exchange} {past : List Exchange}
    (hmay : RemovalMay x.request past) (hmisses : x.Misses id) : Undeleted past := by
  rcases x with ⟨r, reply⟩
  cases r with
  | store call =>
      cases call with
      | getMany ids => exact hmay
      | status i => exact hmay
      | saveStatusIf i expected status => exact hmay.1
      | _ => exact hmisses.elim
  | _ => exact hmisses.elim

/-- A handle that is attended is found and moved. -/
theorem Attended.not_misses {id : HandleId} {state : Lifecycle} {past : List (Turn World)} {w w' : World}
    {r : Request} {reply : r.Reply} (h : Attended id state past w) (hs : w.store.Sound)
    (hmay : RemovalMay r (recordOf 0 past)) (hans : World.Answers StoreCall.Deletes r w reply w') :
    ¬ Exchange.Misses id ⟨r, reply⟩ := by
  intro hmisses
  rcases Option.map_eq_some_iff.1 h.stored with ⟨g, hg, rfl⟩
  cases r with
  | store call =>
      have hperform : ¬ call.Deletes → reply = (w.store.perform call).1 := fun hcall =>
        (Prod.ext_iff.1 ((World.Answers.store hans).2.resolve_left fun ⟨_, hfails, _⟩ => hcall hfails)).1
      cases call with
      | getMany ids =>
          obtain rfl : reply = .ok (ids.filterMap w.store.record?) :=
            (hperform fun h => h).trans (hs.getMany_eq ids)
          have hfound : g ∈ ids.filterMap w.store.record? := List.mem_filterMap.2 ⟨id, hmisses.1, hg⟩
          exact hmisses.2 (List.mem_map.2 ⟨g, hfound, hs.id_of_record? hg⟩)
      | status j =>
          have hj : j = id := by
            cases reply with
            | error e => exact hmisses
            | ok s => exact hmisses.1
          subst hj
          obtain rfl : reply = .ok g.status :=
            (hperform fun h => h).trans (congrArg Prod.fst (hs.perform_status hg))
          exact h.alive hmisses.2
      | saveStatusIf j expected status =>
          have hj : j = id := by
            cases reply with
            | error e => exact hmisses
            | ok written => exact hmisses.1
          subst hj
          -- The state that is expected is the one that was read last, and the handle is still in it.
          have hexpected : g.lifecycle = expected := (h.read expected hmay.2.2).symm
          obtain rfl : reply = .ok true :=
            (hperform fun h => h).trans (congrArg Prod.fst (hs.perform_saveStatusIf hg hexpected status))
          cases hmisses.2
      | _ => exact hmisses.elim
  | _ => exact hmisses.elim

/-- A turn that does not delete the handle. -/
theorem Attended.turn {id : HandleId} {state : Lifecycle} {past : List (Turn World)} {t : Turn World}
    (h : Attended id state past t.before) (hstate : StateTurn id t) (htold : ToldTurn id past t)
    (hreads : ∀ s, t.exchange.Reads id s → t.before.store.lifecycle? id = some s)
    (hdeletes : ¬ t.Deletes id) (huntold : ¬ t.Tells id .advised ∧ ¬ t.Tells id .deleted) :
    ∃ state', Attended id state' (past ++ [t]) t.after := by
  cases hstate with
  | deleted _ _ before after => exact absurd ⟨before, after⟩ hdeletes
  | created _ _ before _ => exact absurd (h.stored.symm.trans before) (by simp)
  | moved member writes _ after =>
      -- The move is not announced yet, and the state that was read before does not count any more.
      have hrecord : recordOf 0 (past ++ [t]) = recordOf 0 past ++ [t.exchange] := by
        rw [recordOf_snoc, if_pos member]
      refine ⟨.deleting, after, by decide, ?_, fun _ => rfl, fun hannounced => ?_⟩
      · intro s hread
        rw [hrecord, ReadIn, since_snoc] at hread
        rcases hread with ⟨status, hexchange, -⟩ | ⟨-, hunwritten⟩
        · rcases writes with ⟨expected, status', hexchange'⟩
          cases hexchange.symm.trans hexchange'
        · exact absurd writes hunwritten
      · rw [hrecord, Unannounced, since_snoc] at hannounced
        exact absurd (Or.inl writes) hannounced
  | same _ _ writes after =>
      refine ⟨state, after.trans h.stored, h.alive, ?_, ?_, ?_⟩
      · intro s hread
        rw [recordOf_snoc] at hread
        split at hread
        · rcases since_snoc.1 hread with hreads' | ⟨hearlier, -⟩
          · exact Option.some.inj ((hreads s hreads').symm.trans h.stored)
          · exact h.read s hearlier
        · exact h.read s hread
      · rintro ⟨x, hx, hwrites⟩
        rcases mem_recordOf.1 hx with ⟨u, hu, hmember, rfl⟩
        rcases List.mem_append.1 hu with hu | hu
        · exact h.moved ⟨_, mem_recordOf.2 ⟨u, hu, hmember, rfl⟩, hwrites⟩
        · rw [List.mem_singleton.1 hu] at hwrites
          exact absurd hwrites writes
      · intro hannounced
        cases htold with
        | deleting _ moved _ _ told => rw [told, h.moved moved]
        | deleted _ _ tells _ => exact absurd tells huntold.2
        | advised _ _ tells _ => exact absurd tells huntold.1
        | silent untold told =>
            rw [told]
            refine h.told fun hearlier => hannounced ?_
            rw [recordOf_snoc]
            split
            · exact since_snoc.2 (Or.inr ⟨hearlier, untold _⟩)
            · exact hearlier

section

variable {id : HandleId} {topic topic' : String} {rawIds : List String} {endpoints : Endpoints}
  {requested : List RequestedHandle} {w₀ w : World} {turns : List (Turn World)}
  {qs : List (Program Unit)} (hs : w₀.store.Sound)
  (hrun : Interleaved (World.Answers StoreCall.Deletes)
    (removalAndCreation topic rawIds topic' endpoints requested) w₀ turns qs w)

include hs hrun

/-- Every turn is one of the removal or one of the creation, and the removal comes to its end. -/
theorem Interleaved.removal_or_creation (id : HandleId) :
    (∀ before t after, turns = before ++ t :: after →
      t.before.store.Sound ∧ World.Answers StoreCall.Deletes t.request t.before t.reply t.after ∧
        ((t.member = 0 ∧ RemovalMay t.request (recordOf 0 before)) ∨
          (t.member = 1 ∧ CreationMay t.request (recordOf 1 before)))) ∧
      ∃ p q, qs = [p, q] ∧
        p.Ensures (.recorded RemovalMay) (fun _ => RemovalDone id) (recordOf 0 turns) := by
  have hremoval : ((Demand.remove topic rawIds).program).Ensures (.recorded RemovalMay)
      (fun _ => RemovalDone id) [] := removes_remove.bind fun _ _ h => h
  have hcreation : ((Demand.create topic' endpoints requested).program).Ensures (.recorded CreationMay)
      (fun _ _ => True) [] := creates_create.bind fun _ _ _ => trivial
  rcases hrun.asked_pair hremoval hcreation with ⟨hturns, p, q, hqs, hp, -⟩
  refine ⟨fun before t after heq => ?_, p, q, hqs, hp⟩
  have hinvariant := (hrun.invariant (I := fun v => v.store.Sound) hs
    fun r v reply v' hv hans => World.Answers.sound hans hv).2 t (by simp [heq])
  exact ⟨hinvariant.1, hinvariant.2.2, hturns before t after heq⟩

theorem Interleaved.turn_cases (id : HandleId) {before after : List (Turn World)} {t : Turn World}
    (heq : turns = before ++ t :: after) : StateTurn id t ∧ ToldTurn id before t := by
  rcases (hrun.removal_or_creation hs id).1 before t after heq with
    ⟨hsound, hans, ⟨hmember, hmay⟩ | ⟨hmember, hmay⟩⟩
  · rcases t with ⟨i, r, reply, v, v'⟩
    obtain rfl : i = 0 := hmember
    exact ⟨hmay.stateTurn hsound hans, hmay.toldTurn hans⟩
  · rcases t with ⟨i, r, reply, v, v'⟩
    obtain rfl : i = 1 := hmember
    exact ⟨hmay.stateTurn hsound hans, hmay.toldTurn hans⟩

theorem Interleaved.stateTurn_mem {t : Turn World} (ht : t ∈ turns) : StateTurn id t := by
  rcases List.append_of_mem ht with ⟨before, after, heq⟩
  exact (hrun.turn_cases hs _ heq).1

omit hs in
/-- Only a handle that was deleted is created again. -/
theorem Interleaved.deletes_of_creates (hstored : w₀.store.lifecycle? id ≠ none)
    (hcreates : ∃ t ∈ turns, t.Creates id) : ∃ t ∈ turns, t.Deletes id := by
  rcases hcreates with ⟨t, ht, hcreates⟩
  rcases List.append_of_mem ht with ⟨before, after, heq⟩
  rcases (hrun.upto heq).1 with ⟨qs', hupto⟩
  rcases hupto.exists_deletes hstored hcreates.1 with ⟨u, hu, hdeletes⟩
  exact ⟨u, by simp [heq, hu], hdeletes⟩

/-- A handle that was not deleted is not created, and neither is announced. -/
theorem Interleaved.untold (hstored : w₀.store.lifecycle? id ≠ none)
    (hnone : ∀ t ∈ turns, ¬ t.Deletes id) {t : Turn World} (ht : t ∈ turns) :
    ¬ t.Creates id ∧ ¬ t.Tells id .advised ∧ ¬ t.Tells id .deleted := by
  have huncreated : ¬ ∃ u ∈ turns, u.Creates id := by
    intro hcreates
    rcases hrun.deletes_of_creates hstored hcreates with ⟨u, hu, hdeletes⟩
    exact hnone u hu hdeletes
  rcases List.append_of_mem ht with ⟨before, after, heq⟩
  have hturns : ∀ u ∈ before, StateTurn id u := fun u hu => hrun.stateTurn_mem hs (by simp [heq, hu])
  refine ⟨fun h => huncreated ⟨t, ht, h⟩, ?_⟩
  cases (hrun.turn_cases hs _ heq).2 with
  | deleting _ _ _ tells _ =>
      refine ⟨fun h => ?_, fun h => ?_⟩
      · cases Exchange.Tells.state_unique h tells
      · cases Exchange.Tells.state_unique h tells
  | deleted _ deletes _ _ =>
      rcases (exists_deletes_iff hturns).1 deletes with ⟨u, hu, hdeletes⟩
      exact absurd hdeletes (hnone u (by simp [heq, hu]))
  | advised _ creates _ _ =>
      rcases (exists_creates_iff hturns).1 creates with ⟨u, hu, hcreates⟩
      exact absurd ⟨u, by simp [heq, hu], hcreates⟩ huncreated
  | silent untold _ => exact ⟨untold _, untold _⟩

/-- As long as a handle was not deleted it is stored, and the record of the removal tells of it. -/
theorem Interleaved.attended {state : Lifecycle} (hstored : w₀.store.lifecycle? id = some state)
    (htold : toldState (movesOf id w₀.published) = some state) (hnone : ∀ t ∈ turns, ¬ t.Deletes id) :
    ∃ state, Attended id state turns w := by
  refine hrun.alongside (P := fun past v => (∀ t ∈ past, ¬ t.Deletes id) →
    ∃ state, Attended id state past v) ?_ ?_ hnone
  · exact fun _ => ⟨state, hstored, (toldState_eq_some.1 htold).2, fun _ h => absurd h not_since_nil,
      by simp [recordOf, turnsOf], fun _ => htold⟩
  intro before t after heq hans hbefore hundeleted
  rcases hbefore fun u hu => hundeleted u (List.mem_append_left _ hu) with ⟨state, h⟩
  rcases hrun.through heq with ⟨qs', hthrough⟩
  rcases hrun.turn_cases hs id heq with ⟨hstate, htoldTurn⟩
  have ht : t ∈ before ++ [t] := by simp
  refine h.turn hstate htoldTurn ?_ (hundeleted t ht)
    (hthrough.untold hs (by simp [hstored]) hundeleted ht).2
  rintro s ⟨status, hexchange, rfl⟩
  have hsound := ((hrun.removal_or_creation hs id).1 before t after heq).1
  rcases t with ⟨i, r, reply, v, v'⟩
  cases hexchange
  rcases World.Answers.record?_of_status hsound hans with ⟨g, hg, rfl⟩
  exact congrArg (Option.map Handle.lifecycle) hg

/-- A status is written only as long as nothing was deleted. -/
theorem Interleaved.undeleted_of_writes {before after : List (Turn World)} {t : Turn World}
    (heq : turns = before ++ t :: after) (hmember : t.member = 0) (hwrites : t.exchange.WritesStatus id) :
    Undeleted (recordOf 0 before) := by
  rcases (hrun.removal_or_creation hs id).1 before t after heq with ⟨-, -, ⟨-, hmay⟩ | ⟨hone, -⟩⟩
  · rcases hwrites with ⟨expected, status, hexchange⟩
    rw [show t.request = _ from congrArg Exchange.request hexchange] at hmay
    exact hmay.1
  · exact absurd (hmember.symm.trans hone) (by decide)

/-- Before something was deleted the handle was not deleted. -/
theorem Interleaved.not_deletes {before after : List (Turn World)} {t : Turn World}
    (heq : turns = before ++ t :: after) (hundeleted : Undeleted (recordOf 0 before)) :
    ∀ u ∈ before, ¬ u.Deletes id := by
  intro u hu hdeletes
  have hturns : ∀ u ∈ before, StateTurn id u := fun u hu => hrun.stateTurn_mem hs (by simp [heq, hu])
  rcases (exists_deletes_iff hturns).2 ⟨u, hu, hdeletes⟩ with ⟨x, hx, hx'⟩
  exact hundeleted x hx id hx'

/-- Nothing kept the removal from moving a handle that was stored at the start. -/
theorem Interleaved.not_misses {state : Lifecycle} (hstored : w₀.store.lifecycle? id = some state)
    (htold : toldState (movesOf id w₀.published) = some state) {x : Exchange}
    (hx : x ∈ recordOf 0 turns) : ¬ x.Misses id := by
  rcases mem_recordOf.1 hx with ⟨t, ht, hmember, rfl⟩
  rcases List.append_of_mem ht with ⟨before, after, heq⟩
  rcases (hrun.removal_or_creation hs id).1 before t after heq with
    ⟨hsound, hans, ⟨-, hmay⟩ | ⟨hone, -⟩⟩
  · intro hmisses
    rcases (hrun.upto heq).1 with ⟨qs', hupto⟩
    -- As long as nothing was deleted the handle is attended, and so it is not missed.
    have hundeleted := hmay.undeleted_of_misses hmisses
    rcases hupto.attended hs hstored htold (hrun.not_deletes hs heq hundeleted) with ⟨state', h⟩
    exact h.not_misses hsound hmay hans hmisses
  · exact absurd (hmember.symm.trans hone) (by decide)

/-! ## Stored and told -/

/-- A handle that was created and not deleted since is advised. -/
theorem Interleaved.advised_of_since (hstored : w₀.store.lifecycle? id ≠ none)
    (hsince : Since (Turn.Creates id) (Turn.Deletes id) turns) :
    w.store.lifecycle? id = some .advised := by
  refine hrun.alongside (P := fun past v => Since (Turn.Creates id) (Turn.Deletes id) past →
    v.store.lifecycle? id = some .advised) (fun h => absurd h not_since_nil) ?_ hsince
  intro before t after heq hans hbefore hsince
  rw [since_snoc] at hsince
  cases (hrun.turn_cases hs id heq).1 with
  | deleted _ _ hthere hgone =>
      rcases hsince with hcreates | ⟨-, hnot⟩
      · exact absurd hcreates.1 hthere
      · exact absurd ⟨hthere, hgone⟩ hnot
  | created _ _ _ hcame => exact hcame
  | moved hmember hwrites hthere _ =>
      -- It was deleted before it was created, and then nothing is moved any more.
      rcases hsince with hcreates | ⟨⟨earlier, u, later, rfl, hcreates, -⟩, -⟩
      · exact absurd hcreates.1 hthere
      · rcases (hrun.upto heq).1 with ⟨qs', hupto⟩
        rcases hupto.deletes_of_creates hstored ⟨u, by simp, hcreates⟩ with ⟨x, hx, hdeletes⟩
        have hundeleted := hrun.undeleted_of_writes hs heq hmember hwrites
        exact absurd hdeletes (hrun.not_deletes hs heq hundeleted x hx)
  | same _ _ _ hsame =>
      rw [hsame]
      rcases hsince with hcreates | ⟨hearlier, -⟩
      · exact absurd (hsame.trans hcreates.1) hcreates.2
      · exact hbefore hearlier

omit hs in
theorem Interleaved.gone_of_since (hsince : Since (Turn.Deletes id) (Turn.Creates id) turns) :
    w.store.lifecycle? id = none := by
  refine hrun.since (I := fun v => v.store.lifecycle? id = none) hsince (fun t _ _ h => h.2) ?_
  intro t _ _ hnot hgone
  by_contra hcame
  exact hnot ⟨hgone, hcame⟩

/-- Of the announcements that a handle is advised or deleted the last one counts. -/
theorem Interleaved.told_of_since (hstored : w₀.store.lifecycle? id ≠ none) {new other : Lifecycle}
    (hpair : (new = .advised ∧ other = .deleted) ∨ (new = .deleted ∧ other = .advised))
    (hsince : Since (Turn.Tells id new) (Turn.Tells id other) turns) :
    toldState (movesOf id w.published) = new.told := by
  refine hrun.alongside (P := fun past v => Since (Turn.Tells id new) (Turn.Tells id other) past →
    toldState (movesOf id v.published) = new.told) (fun h => absurd h not_since_nil) ?_ hsince
  intro before t after heq hans hbefore hsince
  rw [since_snoc] at hsince
  cases (hrun.turn_cases hs id heq).2 with
  | deleting _ _ hundeleted htells _ =>
      -- Before the first deletion neither is announced.
      exfalso
      rcases hsince with hnew | ⟨⟨earlier, u, later, rfl, hnew, -⟩, -⟩
      · have hstate := Exchange.Tells.state_unique hnew htells
        rcases hpair with ⟨rfl, -⟩ | ⟨rfl, -⟩ <;> cases hstate
      · rcases (hrun.upto heq).1 with ⟨qs', hupto⟩
        rcases hupto.untold hs hstored (hrun.not_deletes hs heq hundeleted) (t := u) (by simp) with
          ⟨-, hnone, hnone'⟩
        rcases hpair with ⟨rfl, -⟩ | ⟨rfl, -⟩
        · exact hnone hnew
        · exact hnone' hnew
  | deleted _ _ htells htold =>
      rcases hpair with ⟨rfl, rfl⟩ | ⟨rfl, rfl⟩
      · rcases hsince with hnew | ⟨-, hnot⟩
        · cases Exchange.Tells.state_unique hnew htells
        · exact absurd htells hnot
      · exact htold
  | advised _ _ htells htold =>
      rcases hpair with ⟨rfl, rfl⟩ | ⟨rfl, rfl⟩
      · exact htold
      · rcases hsince with hnew | ⟨-, hnot⟩
        · cases Exchange.Tells.state_unique hnew htells
        · exact absurd htells hnot
  | silent huntold htold =>
      rw [htold]
      exact hbefore (hsince.resolve_left (huntold new)).1

/-- A handle is announced as advised only after it was deleted. -/
theorem Interleaved.deletes_of_advised (hstored : w₀.store.lifecycle? id ≠ none)
    {before after : List (Turn World)} {t : Turn World} (heq : turns = before ++ t :: after)
    (hadvised : t.Tells id .advised) : ∃ u ∈ before, u.Deletes id := by
  rcases (hrun.upto heq).1 with ⟨qs', hupto⟩
  have hbefore : ∀ u ∈ before, StateTurn id u := fun u hu => hrun.stateTurn_mem hs (by simp [heq, hu])
  cases (hrun.turn_cases hs id heq).2 with
  | deleting _ _ _ tells _ => cases Exchange.Tells.state_unique hadvised tells
  | deleted _ _ tells _ => cases Exchange.Tells.state_unique hadvised tells
  | advised _ creates _ _ => exact hupto.deletes_of_creates hstored ((exists_creates_iff hbefore).1 creates)
  | silent untold _ => exact absurd hadvised (untold _)

/-- When a removal is done it told of what it deleted. -/
theorem Interleaved.tells_of_deletes {state : Lifecycle} (hstored : w₀.store.lifecycle? id = some state)
    (htold : toldState (movesOf id w₀.published) = some state) (hdone : RemovalDone id (recordOf 0 turns))
    (hdeletes : ∃ t ∈ turns, t.Deletes id) : ∃ t ∈ turns, t.Tells id .deleted := by
  have hturns : ∀ t ∈ turns, StateTurn id t := fun t ht => hrun.stateTurn_mem hs ht
  rcases hdone.told ((exists_deletes_iff hturns).2 hdeletes) with ⟨x, hx, htells⟩ | ⟨x, hx, hmisses⟩
  · rcases mem_recordOf.1 hx with ⟨t, ht, -, rfl⟩
    exact ⟨t, ht, htells⟩
  · exact absurd hmisses (hrun.not_misses hs hstored htold hx)

/-- Once a handle was deleted, and told to be, the last change says what is stored and the last announcement
what is told. -/
theorem Interleaved.agree_iff (hstored : w₀.store.lifecycle? id ≠ none)
    (hdeletes : ∃ t ∈ turns, t.Deletes id) (htells : ∃ t ∈ turns, t.Tells id .deleted) :
    toldState (movesOf id w.published) = w.store.lifecycle? id ↔
      (Since (Turn.Creates id) (Turn.Deletes id) turns ↔
        Since (Turn.Tells id .advised) (Turn.Tells id .deleted) turns) := by
  have hgone : ¬ Since (Turn.Creates id) (Turn.Deletes id) turns → w.store.lifecycle? id = none :=
    fun hnot => hrun.gone_of_since ((since_or_since hdeletes).resolve_left hnot)
  have hdeleted : ¬ Since (Turn.Tells id .advised) (Turn.Tells id .deleted) turns →
      toldState (movesOf id w.published) = none := fun hnot =>
    hrun.told_of_since hs hstored (Or.inr ⟨rfl, rfl⟩) ((since_or_since htells).resolve_left hnot)
  have hadvised : Since (Turn.Tells id .advised) (Turn.Tells id .deleted) turns →
      toldState (movesOf id w.published) = some .advised :=
    hrun.told_of_since hs hstored (Or.inl ⟨rfl, rfl⟩)
  -- The handle is advised and stored, or it is gone; what is told is the one or the other as well.
  by_cases hchange : Since (Turn.Creates id) (Turn.Deletes id) turns
  · rw [hrun.advised_of_since hs hstored hchange]
    refine ⟨fun heq => iff_of_true hchange ?_, fun horder => hadvised (horder.1 hchange)⟩
    by_contra hnot
    cases heq.symm.trans (hdeleted hnot)
  · rw [hgone hchange]
    refine ⟨fun heq => iff_of_false hchange fun htold => ?_,
      fun horder => hdeleted fun h => hchange (horder.2 h)⟩
    cases heq.symm.trans (hadvised htold)

end

/-- A handle that is stored and told is removed by one member and created by another one. When both are done
the events tell what is stored exactly if the last announcement that it is advised or deleted is of the same
kind as the last creation or deletion. The creation is announced only after the handle was deleted, but that
may be told before or after. -/
theorem removed_and_created_iff {id : HandleId} {topic topic' : String} {rawIds : List String}
    {endpoints : Endpoints} {requested : List RequestedHandle} {w₀ w : World} {turns : List (Turn World)}
    {state : Lifecycle} (hs : w₀.store.Sound) (hstored : w₀.store.lifecycle? id = some state)
    (htold : toldState (movesOf id w₀.published) = some state)
    (hrun : Interleaved (World.Answers StoreCall.Deletes)
      (removalAndCreation topic rawIds topic' endpoints requested) w₀ turns [.done (), .done ()] w) :
    (toldState (movesOf id w.published) = w.store.lifecycle? id ↔
      (Since (Turn.Creates id) (Turn.Deletes id) turns ↔
        Since (Turn.Tells id .advised) (Turn.Tells id .deleted) turns)) ∧
      ∀ past t rest, turns = past ++ t :: rest → t.Tells id .advised →
        (∃ u ∈ past, u.Deletes id) ∧
          ((∃ u ∈ past, u.Tells id .deleted) ∨ ∃ u ∈ rest, u.Tells id .deleted) := by
  have hthere : w₀.store.lifecycle? id ≠ none := by simp [hstored]
  rcases (hrun.removal_or_creation hs id).2 with ⟨p, q, hqs, hdone⟩
  cases hqs
  have hdone : RemovalDone id (recordOf 0 turns) := hdone
  have htells := hrun.tells_of_deletes hs hstored htold hdone
  refine ⟨?_, ?_⟩
  · by_cases hdeletes : ∃ t ∈ turns, t.Deletes id
    · exact hrun.agree_iff hs hthere hdeletes (htells hdeletes)
    -- Without a deletion nothing is created, and what was moved is told.
    · have hnone : ∀ t ∈ turns, ¬ t.Deletes id := fun t ht hdeletes' => hdeletes ⟨t, ht, hdeletes'⟩
      rcases hrun.attended hs hstored htold hnone with ⟨state', h⟩
      refine iff_of_true ((h.told hdone.announced).trans h.stored.symm) (iff_of_false ?_ ?_)
      · rintro ⟨past, t, rest, rfl, hcreates, -⟩
        exact (hrun.untold hs hthere hnone (t := t) (by simp)).1 hcreates
      · rintro ⟨past, t, rest, rfl, hadvised, -⟩
        exact (hrun.untold hs hthere hnone (t := t) (by simp)).2.1 hadvised
  · intro past t rest heq hadvised
    have hdeletes := hrun.deletes_of_advised hs hthere heq hadvised
    refine ⟨hdeletes, ?_⟩
    rcases hdeletes with ⟨u, hu, hdeletes⟩
    rcases htells ⟨u, by simp [heq, hu], hdeletes⟩ with ⟨v, hv, htold⟩
    rw [heq] at hv
    rcases List.mem_append.1 hv with hv | hv
    · exact Or.inl ⟨v, hv, htold⟩
    rcases List.mem_cons.1 hv with rfl | hv
    · cases Exchange.Tells.state_unique hadvised htold
    · exact Or.inr ⟨v, hv, htold⟩

/-! ## A handle that is told deleted after it was created -/

/-- A world in which a handle was moved to deleting before, and that was told. -/
def toldLeavingWorld : World :=
  { leavingWorld with
    published := [⟨"lcm", "a", .lifecycle ⟨default, ⟨"a"⟩, some .ready, .deleting, default⟩⟩] }

/-- The store once the handle is deleted. -/
def leftStore : Store :=
  (toldLeavingWorld.store.perform (.deleteAll [⟨"a"⟩])).2

def requestedAgain : RequestedHandle :=
  { (default : RequestedHandle) with id := "a" }

/-- A new handle of the same id. -/
def createdAgain : Handle := newHandle ⟨"a"⟩ ⟨"dmi", "", ""⟩ requestedAgain default

/-- The handle is deleted. Before that is told another one is created and announced, which is stored in the
end, although the last event tells that the handle is deleted. -/
theorem removed_and_created_untold :
    ∃ turns w,
      Interleaved (World.Answers StoreCall.Deletes)
        (removalAndCreation "lcm" ["a"] "lcm" ⟨"dmi", "", ""⟩ [requestedAgain]) toldLeavingWorld turns
        [.done (), .done ()] w ∧
      w.store.lifecycle? ⟨"a"⟩ = some .advised ∧ toldState (movesOf ⟨"a"⟩ w.published) = none ∧
      ¬ (Since (Turn.Creates ⟨"a"⟩) (Turn.Deletes ⟨"a"⟩) turns ↔
        Since (Turn.Tells ⟨"a"⟩ .advised) (Turn.Tells ⟨"a"⟩ .deleted) turns) := by
  have hs : toldLeavingWorld.store.Sound := Store.sound_empty.putHandle leavingHandle
  have hr : toldLeavingWorld.store.record? ⟨"a"⟩ = some leavingHandle :=
    (Store.record?_putHandle _ _ _).trans (if_pos rfl)
  have hmany : toldLeavingWorld.store.perform (.getMany [⟨"a"⟩]) =
      (.ok [leavingHandle], toldLeavingWorld.store) := by
    rw [Store.perform, hs.getMany_eq, List.filterMap_cons_some hr]
    rfl
  have hdelete : toldLeavingWorld.store.perform (.deleteAll [⟨"a"⟩]) = (.ok (), leftStore) := rfl
  have hinsert : leftStore.perform (.insert [createdAgain]) =
      (.ok (), leftStore.putHandle createdAgain) := rfl
  have answered := World.answers_undisturbed StoreCall.Deletes
  have h₀ := @Interleaved.start _ _ (World.Answers StoreCall.Deletes)
    (removalAndCreation "lcm" ["a"] "lcm" ⟨"dmi", "", ""⟩ [requestedAgain]) toldLeavingWorld
  have h₁ := h₀.snoc 0 rfl (World.answers_store _ _ hmany)
  have h₂ := h₁.snoc 0 rfl (World.answers_store _ _ (hs.perform_status hr))
  have hchunks : chunks deleteChunkSize (["a"].map HandleId.mk) = [[⟨"a"⟩]] := by simp [chunks]
  rw [hchunks] at h₂
  have h₃ := h₂.snoc 0 rfl (World.answers_store _ _ hdelete)
  -- The record is gone, and the creation comes in between.
  have h₄ := h₃.snoc 1 rfl (answered .now _)
  have h₅ := h₄.snoc 1 rfl (answered .now _)
  have h₆ := h₅.snoc 1 rfl (World.answers_store _ _ hinsert)
  have h₇ := h₆.snoc 1 rfl (answered _ _)
  have h₈ := h₇.snoc 1 rfl (answered _ _)
  have h₉ := h₈.snoc 1 rfl (answered _ _)
  -- Only now the removal tells of the handle that it deleted.
  have h₁₀ := h₉.snoc 0 rfl (answered _ _)
  have h₁₁ := h₁₀.snoc 0 rfl (answered _ _)
  have h₁₂ := h₁₁.snoc 0 rfl (answered _ _)
  have h₁₃ := h₁₂.snoc 0 rfl (answered _ _)
  have h₁₄ := h₁₃.snoc 0 rfl (answered _ _)
  have hstored : toldLeavingWorld.store.lifecycle? ⟨"a"⟩ = some .deleting := by
    rw [Store.lifecycle?, hr]
    rfl
  have hcreated : (leftStore.putHandle createdAgain).lifecycle? ⟨"a"⟩ = some .advised :=
    (Store.lifecycle?_putHandle _ createdAgain _).trans (if_pos rfl)
  have hiff := (removed_and_created_iff hs hstored rfl h₁₄).1
  refine ⟨_, _, h₁₄, hcreated, rfl, fun horder => ?_⟩
  have hagree := hiff.2 horder
  cases hagree.trans hcreated

end CmInventory
