import CmInventory.Inventory.Cycle
import CmInventory.Proofs.Inventory.Batches
import CmInventory.Proofs.Inventory.Exclusion
import CmInventory.Proofs.Json.AnyValue

/-!
# Attempts to synchronize data

An attempt asks the plugin once. The answer has to pass one check after the other: it is a success, its body is
not blank, and the body is JSON and holds an object that is not empty (`Offers`). What fails a check ends the
attempt before anything is written.

If the answer passes, two rows are written, both of the handle: its data are the first member of the object, as an
object of its own, and its record tells that they are in step (`Synced`). The data are kept as text; they are read
back as the member that was saved, as long as it has no floating-point numbers in it (`Json.HoldsFirst.decode_render`).
-/

namespace CmInventory

open Inventory

/-- A reply is a success with a body that holds an object, of which the first member has the given name and value. -/
structure Offers (reply : PluginReply) (name : String) (value : Json.Value) : Prop where
  success : 200 ≤ reply.status ∧ reply.status < 300
  present : Text.isBlank reply.body = false
  first : Json.HoldsFirst reply.body name value

/-- The data of a handle are what a plugin offered, and in step since the given time. Nothing else is written. -/
structure Synced (h : Handle) (name : String) (value : Json.Value) (now : Instant) (s s' : Store) : Prop where
  data : s'.getData h.id = .ok (some (.object [(name, value)]))
  record : s'.get h.id = .ok { h with
    status := { h.status with updatedAt := now, operational := ⟨.synchronized, some now⟩ } }
  otherData : ∀ id : HandleId, id ≠ h.id → s'.data.find? id.text = s.data.find? id.text
  otherRecords : ∀ id : HandleId, id ≠ h.id → s'.handles.find? id.text = s.handles.find? id.text
  rest : s' = { s with handles := s'.handles, data := s'.data }

/-- How an attempt ends that was given an answer of the plugin. It succeeds if the answer passes all checks, and
then the data of the handle are in step since a time that was read on the way; otherwise nothing is written. -/
structure AttemptEnds (c : Circumstances) (h : Handle) (answer : Except PluginError PluginReply) (w : World)
    (result : Except InventoryError Unit) (w' : World) : Prop where
  succeeds : result = .ok () ↔ ∃ reply name value, answer = .ok reply ∧ Offers reply name value
  synced : ∀ reply name value, answer = .ok reply → Offers reply name value →
    ∃ n, w.turn ≤ n ∧ n < w'.turn ∧ Synced h name value (c.clock n) w.store w'.store
  unchanged : result ≠ .ok () → w'.store = w.store
  rest : w.SameButStore w'

section

variable {c : Circumstances} {w : World} {h : Handle} {reply : PluginReply} {name : String}
  {value data : Json.Value}

/-- The data that a reply gives are the first member of the object in it. -/
theorem dataOfReply_eq_ok_iff : dataOfReply reply = .ok data ↔
    ∃ name value, Offers reply name value ∧ data = .object [(name, value)] := by
  constructor
  · intro h
    rw [dataOfReply] at h
    cases hbody : reply.successBody with
    | error e =>
        rw [hbody] at h
        cases h
    | ok body =>
        rcases PluginReply.successBody_eq_ok_iff.1 hbody with ⟨hlow, hhigh, hblank, rfl⟩
        rw [hbody] at h
        cases hdecode : Json.decode .value reply.body with
        | error fault => simp [hdecode, bind, Except.bind] at h
        | ok v =>
            cases hfirst : v.firstMember? with
            | none => simp [hdecode, hfirst, bind, Except.bind] at h
            | some first =>
                simp only [hdecode, hfirst, bind, Except.bind, Except.ok.injEq] at h
                rcases Json.Value.firstMember?_eq_some.1 hfirst with ⟨name, value, rest, rfl, rfl⟩
                have hholds : Json.HoldsFirst reply.body name value := Json.holdsFirst_iff.2 ⟨rest, hdecode⟩
                exact ⟨name, value, ⟨⟨hlow, hhigh⟩, hblank, hholds⟩, h.symm⟩
  · rintro ⟨name, value, hoffers, rfl⟩
    rcases Json.holdsFirst_iff.1 hoffers.first with ⟨rest, hdecode⟩
    have hbody : reply.successBody = .ok reply.body :=
      PluginReply.successBody_eq_ok_iff.2 ⟨hoffers.success.1, hoffers.success.2, hoffers.present, rfl⟩
    simp only [dataOfReply, hbody, hdecode, bind, Except.bind]
    rfl

/-- What an attempt does for a ready handle of which the data are wanted, where no call of the store fails. -/
theorem under_syncData {Q : Except InventoryError Unit → World → Prop}
    (hc : ∀ n call, c.storeFailure n call = none) (hget : w.store.get h.id = .ok h)
    (hready : h.lifecycle = .ready) (hwanted : h.status.dataSync = true)
    (hrefused : ∀ e, c.plugin w.turn (.read h rootResource .operational) = .error e →
      Q (.error (.plugin e)) w.nextTurn)
    (huseless : ∀ reply e, c.plugin w.turn (.read h rootResource .operational) = .ok reply →
      dataOfReply reply = .error e → Q (.error (.plugin e)) w.nextTurn)
    (hdone : ∀ reply data, c.plugin w.turn (.read h rootResource .operational) = .ok reply →
      dataOfReply reply = .ok data → Q (.ok ()) { w with
        store := (w.store.saveData h.id data).overwrite
          { h with status := h.status.markSynchronized (c.clock (w.turn + 3)) }
        turn := w.turn + 5 }) :
    (syncData h).run.Ensures (.under c) Q w := by
  rw [syncData, if_pos hwanted, Action.ensures_bind, Action.run_plugin, Program.ensures_bind]
  refine under_request ?_
  change Program.Ensures _ _ (Program.done ((c.plugin w.turn (.read h rootResource .operational)).mapError _)) _
  cases hanswer : c.plugin w.turn (.read h rootResource .operational) with
  | error e => exact hrefused e hanswer
  | ok reply =>
      change Program.Ensures _ _ (_ : Action Unit).run _
      rw [Action.ensures_bind, Action.run_ofExcept]
      cases hdata : dataOfReply reply with
      | error e => exact huseless reply e hanswer hdata
      | ok data =>
          change Program.Ensures _ _ (_ : Action Unit).run _
          rw [Action.ensures_bind, Action.run_store, Program.ensures_bind]
          refine under_performed hc rfl ?_
          -- The data are saved. The record is not touched by that, so it is found as it was.
          have hsaved : (w.store.saveData h.id data).get h.id = .ok h := hget
          refine ensures_markSynchronized_iff.2 (under_performed hc (Store.perform_status hsaved) ?_)
          refine ⟨fun hunready => absurd hready hunready, fun _ => under_request ?_⟩
          -- The status is written on the condition that the handle is still ready.
          refine ensures_saveFrom_iff.2 (under_performed hc (Store.perform_saveStatusIf hsaved hready _) ?_)
          exact hdone reply data hanswer hdata

/-- Data that are kept are read back if their text is. -/
theorem Store.getData_of_find? {s : Store} {id : HandleId} {text : String}
    (hfind : s.data.find? id.text = some text) (hread : Json.decode .value text = .ok data) :
    s.getData id = .ok (some data) := by
  rw [Store.getData, hfind]
  dsimp only
  rw [hread]
  rfl

/-- The store after an attempt that saved the first member. -/
theorem synced_of_saved {now : Instant} (hget : w.store.get h.id = .ok h)
    (hread : Json.decode .value (Json.Value.object [(name, value)]).render = .ok (.object [(name, value)])) :
    Synced h name value now w.store ((w.store.saveData h.id (.object [(name, value)])).overwrite
      { h with status := h.status.markSynchronized now }) := by
  -- Saving data leaves the records alone, so the row that is written over is there.
  have hrow : (w.store.saveData h.id (.object [(name, value)])).handles.contains h.id.text = true :=
    Store.contains_of_get hget
  have htables := Store.tables_overwrite (w.store.saveData h.id (.object [(name, value)]))
    { h with status := h.status.markSynchronized now }
  constructor
  · refine Store.getData_of_find? ?_ hread
    rw [htables]
    exact (Dictionary.find?_insert _ _ _ _).trans (if_pos rfl)
  · exact (Store.get_overwrite (h := { h with status := h.status.markSynchronized now }) hrow h.id).trans
      (if_pos rfl)
  · intro id hne
    rw [htables]
    exact (Dictionary.find?_insert _ _ _ _).trans (if_neg fun heq => hne (HandleId.text_inj.1 heq).symm)
  · intro id hne
    exact Store.row_overwrite (w.store.saveData h.id (.object [(name, value)])) (Ne.symm hne)
  · rw [htables]
    rfl

/-- An attempt that fails before it writes. -/
theorem AttemptEnds.of_failure {answer : Except PluginError PluginReply} {e : InventoryError}
    (hnone : ∀ reply name value, answer = .ok reply → ¬ Offers reply name value) :
    AttemptEnds c h answer w (.error e) w.nextTurn where
  succeeds := by
    refine iff_of_false (fun heq => by cases heq) ?_
    rintro ⟨reply, name, value, hreply, hoffers⟩
    exact hnone reply name value hreply hoffers
  synced := fun reply name value hreply hoffers => absurd hoffers (hnone reply name value hreply)
  unchanged := fun _ => rfl
  rest := ⟨⟨rfl, rfl, rfl, rfl⟩, rfl⟩

end

/-- An attempt for a ready handle of which the data are wanted, in a run in which no call of the store fails. It
succeeds exactly if the answer of the plugin passes all checks. Then the first member of the object in the body is
stored and in step; otherwise nothing is written. The numbers that the body stands for have to be integers of the
range in which integers are kept. -/
theorem first_member_synced {c : Circumstances} {w : World} {h : Handle}
    (hc : ∀ n call, c.storeFailure n call = none) (hget : w.store.get h.id = .ok h)
    (hready : h.lifecycle = .ready) (hwanted : h.status.dataSync = true)
    (hexact : ∀ reply v, c.plugin w.turn (.read h rootResource .operational) = .ok reply →
      Json.decode .value reply.body = .ok v → v.HasExactNumbers) :
    ∃ result w', (syncData h).run.run (World.reply c) w = (result, w') ∧
      AttemptEnds c h (c.plugin w.turn (.read h rootResource .operational)) w result w' := by
  suffices hrun : (syncData h).run.Ensures (.under c) (fun result w' =>
      AttemptEnds c h (c.plugin w.turn (.read h rootResource .operational)) w result w') w from
    ⟨_, _, rfl, hrun.under⟩
  refine under_syncData hc hget hready hwanted ?_ ?_ ?_
  · intro e hanswer
    refine .of_failure fun reply name value hreply => ?_
    rw [hanswer] at hreply
    cases hreply
  · intro reply e hanswer hdata
    refine .of_failure fun reply' name value hreply hoffers => ?_
    obtain rfl : reply = reply' := Except.ok.inj (hanswer.symm.trans hreply)
    rw [dataOfReply_eq_ok_iff.2 ⟨name, value, hoffers, rfl⟩] at hdata
    cases hdata
  · intro reply data hanswer hdata
    rcases dataOfReply_eq_ok_iff.1 hdata with ⟨name, value, hoffers, rfl⟩
    refine ⟨iff_of_true rfl ⟨reply, name, value, hanswer, hoffers⟩, ?_, fun hne => absurd rfl hne,
      ⟨⟨rfl, rfl, rfl, rfl⟩, rfl⟩⟩
    intro reply' name' value' hreply hoffers'
    obtain rfl : reply = reply' := Except.ok.inj (hanswer.symm.trans hreply)
    rw [dataOfReply_eq_ok_iff.2 ⟨name', value', hoffers', rfl⟩] at hdata
    cases hdata
    refine ⟨w.turn + 3, by omega, Nat.add_lt_add_left (by decide) _, ?_⟩
    exact synced_of_saved hget (hoffers.first.decode_render fun v hv => hexact reply v hanswer hv)

/-- Three members, two of one name. -/
def repeatedNameBody : Json.Value := .object [("x", .natural 1), ("y", .natural 2), ("x", .natural 3)]

/-- Circumstances in which plugins reply with them. -/
def repeatedName : Circumstances :=
  { World.undisturbed with plugin := fun _ call =>
      match call with
      | .read .. => .ok ⟨200, repeatedNameBody.render⟩
      | .modules _ => .error .emptyBody }

/-- The name that stands first is kept, with the value that stands last. -/
theorem first_member_synced_repeatedName :
    ∃ w', (syncData unsynchronizedHandle).run.run (World.reply repeatedName) unsynchronizedWorld = (.ok (), w') ∧
      w'.store.getData unsynchronizedHandle.id = .ok (some (.object [("x", .natural 3)])) := by
  have hnumbers : repeatedNameBody.HasExactNumbers := by
    simp [repeatedNameBody, Json.Value.HasExactNumbers, Json.Value.AllExactMembers, Json.Value.natural,
      Json.Number.IsExact, Json.Number.leastInteger, Json.Number.greatestInteger]
  have hdecode : Json.decode .value repeatedNameBody.render =
      .ok (.object [("x", .natural 3), ("y", .natural 2)]) := by
    refine Json.decode_value_eq_ok.2 ⟨_, Json.ofText_render hnumbers, ?_⟩
    simp [repeatedNameBody, Json.Value.natural, Json.Value.tree, Json.Value.memberTrees, Json.greatestNesting,
      Json.Decoder.valueAt, Json.Decoder.memberValues, Json.Value.putMember, Json.Decoder.atEnd, bind, Except.bind]
  have hoffers : Offers ⟨200, repeatedNameBody.render⟩ "x" (.natural 3) :=
    ⟨by decide, by decide +kernel, Json.holdsFirst_iff.2 ⟨_, hdecode⟩⟩
  have hget : unsynchronizedWorld.store.get unsynchronizedHandle.id = .ok unsynchronizedHandle :=
    HandleRow.handle_ofHandle _
  obtain ⟨result, w', hrun, hends⟩ := first_member_synced (c := repeatedName) (fun _ _ => rfl) hget rfl rfl (by
    intro reply v hreply hv
    obtain rfl : ⟨200, repeatedNameBody.render⟩ = reply := Except.ok.inj hreply
    obtain rfl := Except.ok.inj (hdecode.symm.trans hv)
    simp [Json.Value.HasExactNumbers, Json.Value.AllExactMembers, Json.Value.natural, Json.Number.IsExact,
      Json.Number.leastInteger, Json.Number.greatestInteger])
  obtain rfl : result = .ok () := hends.succeeds.2 ⟨_, _, _, rfl, hoffers⟩
  rcases hends.synced _ _ _ rfl hoffers with ⟨n, -, -, hsynced⟩
  exact ⟨w', hrun, hsynced.data⟩

end CmInventory
