import CmInventory.Proofs.Inventory.Announced
import CmInventory.Proofs.Inventory.Demands
import CmInventory.Proofs.Program.Logged
import CmInventory.Proofs.Program.Recorded
import CmInventory.Proofs.Store.Fetched

/-!
# Attempts that outlive their handle

A member that works on a handle fetches something from the plugin of the handle, saves it under the id of the
handle, and then changes the status of the handle. Meanwhile the handle may be removed, and another one may be
stored under its id. The save is done all the same, since it asks for no record; the change of the status is
done on any record that is in the state in which the status was read.

So an attempt leaves traces of a handle that was removed (`NoTrace`), and this module says exactly when:
`attempt_leaves_no_trace_iff`. What an attempt can do it does in a fixed order, which is judged on its own
record (`AttemptMay`): it saves once at most, what it fetched for its handle, and before it writes anything.
-/

namespace CmInventory

open Inventory

/-! ## What is kept in a run -/

/-- What is kept under an id after an exchange, if the exchange has to do with it. -/
def Exchange.leaves? (kind : SyncKind) (id : HandleId) : Exchange → Option (Option Fetched)
  | ⟨.store call, reply⟩ => if reply.isOk then call.leaves? kind id else none
  | _ => none

/-- Something was saved under an id. -/
def Exchange.Saves (kind : SyncKind) (id : HandleId) (e : Exchange) : Prop :=
  ∃ c, e.leaves? kind id = some (some c)

/-- What was kept under an id was dropped. -/
def Exchange.Drops (kind : SyncKind) (id : HandleId) (e : Exchange) : Prop :=
  e.leaves? kind id = some none

/-- Whether a deletion of a handle was done. -/
def Exchange.Removes (id : HandleId) : Exchange → Prop
  | ⟨.store (.delete i), .ok _⟩ => i = id
  | ⟨.store (.deleteAll ids), .ok _⟩ => id ∈ ids
  | _ => False

section

variable {α : Type} {kind : SyncKind} {id : HandleId} {fails : StoreCall → Prop}

theorem Exchange.Removes.drops {e : Exchange} (h : e.Removes id) : e.Drops kind id := by
  rcases e with ⟨r, reply⟩
  cases r with
  | store call =>
      cases call with
      | delete i =>
          cases reply with
          | ok _ => exact if_pos h
          | error e => exact h.elim
      | deleteAll ids =>
          cases reply with
          | ok _ => exact if_pos h
          | error e => exact h.elim
      | _ => exact h.elim
  | _ => exact h.elim

/-- What is kept changes only as the exchange leaves it. -/
theorem World.Answers.fetched? {r : Request} {reply : r.Reply} {w w' : World}
    (h : World.Answers fails r w reply w') :
    w'.store.fetched? kind id =
      (Exchange.leaves? kind id ⟨r, reply⟩).getD (w.store.fetched? kind id) := by
  cases r with
  | store call =>
      rcases World.Answers.store h with ⟨-, ⟨e, -, rfl, hstore⟩ | hperform⟩
      · rw [hstore]
        rfl
      · exact Store.fetched?_perform hperform
  | publish event => rw [(World.Answers.publish h).1]; rfl
  | _ => rw [(World.Answers.quiet (by trivial) h).1]; rfl

variable {ps qs : List (Program α)} {w₀ w : World} {turns past rest : List (Turn World)}
  {removal : Turn World}

/-- What a turn left is kept as long as no other turn leaves something else. -/
theorem Interleaved.fetched?_of_left {x : Option Fetched}
    (h : Interleaved (World.Answers fails) ps w₀ turns qs w)
    (hleft : Since (fun t => t.exchange.leaves? kind id = some x)
      (fun t => ∃ y, t.exchange.leaves? kind id = some y ∧ y ≠ x) turns) :
    w.store.fetched? kind id = x := by
  refine h.since (I := fun v => v.store.fetched? kind id = x) hleft ?_ ?_
  · intro t _ hans hleaves
    rw [World.Answers.fetched? hans]
    exact congrArg (Option.getD · _) hleaves
  · intro t _ hans hkeeps hbefore
    rw [World.Answers.fetched? hans]
    cases hleaves : t.exchange.leaves? kind id with
    | none => exact (congrArg (Option.getD · _) hleaves).trans hbefore
    | some y =>
        refine (congrArg (Option.getD · _) hleaves).trans ?_
        by_contra hne
        exact hkeeps ⟨y, hleaves, hne⟩

/-- After a removal something is kept exactly if something was saved since and not dropped again. -/
theorem Interleaved.fetched?_ne_none_iff
    (h : Interleaved (World.Answers fails) ps w₀ turns qs w) (hturns : turns = past ++ removal :: rest)
    (hremoval : removal.exchange.Removes id) :
    w.store.fetched? kind id ≠ none ↔
      Since (fun t => t.exchange.Saves kind id) (fun t => t.exchange.Drops kind id) rest := by
  have hdrops : removal.exchange.Drops kind id := hremoval.drops
  have hsaves : ¬ removal.exchange.Saves kind id := by
    rintro ⟨c, hc⟩
    rw [show removal.exchange.leaves? kind id = some none from hdrops] at hc
    cases hc
  have hsince : Since (fun t => t.exchange.Saves kind id) (fun t => t.exchange.Drops kind id)
      (past ++ removal :: rest) ↔ _ := since_append_cons hsaves hdrops
  rw [← hsince, ← hturns]
  constructor
  · intro hkept
    refine (since_or_since ⟨removal, by simp [hturns], hdrops⟩).resolve_right fun hdropped => hkept ?_
    refine h.fetched?_of_left (hdropped.mono (fun _ _ h => h) ?_)
    rintro t - ⟨y, hleaves, hne⟩
    exact ⟨y.get (Option.isSome_iff_ne_none.2 hne), by rw [Option.some_get, hleaves]⟩
  · intro hsaved
    refine h.since (I := fun v => v.store.fetched? kind id ≠ none) hsaved ?_ ?_
    · rintro t _ hans ⟨c, hleaves⟩
      rw [World.Answers.fetched? hans]
      rw [show Exchange.leaves? kind id ⟨t.request, t.reply⟩ = _ from hleaves]
      simp
    · intro t _ hans hkeeps hbefore
      rw [World.Answers.fetched? hans]
      cases hleaves : Exchange.leaves? kind id ⟨t.request, t.reply⟩ with
      | none => exact hbefore
      | some y =>
          rintro rfl
          exact hkeeps hleaves

end

/-! ## What attempts do -/

/-- Whether a request writes to the store what an attempt can write. -/
def Request.Writes : Request → Prop
  | .store (.saveData ..) | .store (.saveModules ..) | .store (.saveStatusIf ..) => True
  | _ => False

/-- What is saved by a request of an attempt was fetched from the plugin of its handle. -/
def Request.SavesFetched (kind : SyncKind) (h : Handle) (past : List Exchange) : Request → Prop
  | .store (.saveData i data) => kind = .data ∧ i = h.id ∧
      ∃ reply, dataOfReply reply = .ok data ∧ ⟨.plugin (.read h rootResource .operational), .ok reply⟩ ∈ past
  | .store (.saveModules i modules) =>
      kind = .modules ∧ i = h.id ∧ ⟨.plugin (.modules h), .ok modules⟩ ∈ past
  | _ => True

/-- Whether a request saves what was fetched. -/
def Request.IsSave : Request → Prop
  | .store (.saveData ..) | .store (.saveModules ..) => True
  | _ => False

/-- Whether a request has to do with the status of a handle, or with nothing that is stored. -/
def Request.OnStatus (id : HandleId) : Request → Prop
  | .store (.status i) | .store (.saveStatusIf i _ _) => i = id
  | .store _ | .pending _ => False
  | _ => True

/-- What an attempt may ask for after what it asked before: what is saved was fetched, and nothing was
written before it. -/
def AttemptMay (kind : SyncKind) (h : Handle) (r : Request) (past : List Exchange) : Prop :=
  (r.IsSave ∧ r.SavesFetched kind h past ∧ ∀ e ∈ past, ¬ e.request.Writes) ∨ r.OnStatus h.id

section

variable {α σ : Type} {kind : SyncKind} {h : Handle} {past : List Exchange}

theorem Request.WorksOn.onStatus {id : HandleId} {r : Request} (hd : r.WorksOn .data id)
    (hm : r.WorksOn .modules id) : r.OnStatus id := by
  cases r with
  | store call =>
      cases call with
      | saveData i data => exact absurd hm.1 (by decide)
      | saveModules i modules => exact absurd hd.1 (by decide)
      | status i => exact hd
      | saveStatusIf i expected status => exact hd
      | _ => exact hd.elim
  | pending call => exact hd.elim
  | _ => trivial

namespace Inventory

/-- What has to do with the status only an attempt may do at any time. -/
theorem ensures_onStatus {p : Program α} (hd : p.Asks (Request.WorksOn .data h.id))
    (hm : p.Asks (Request.WorksOn .modules h.id)) :
    p.Ensures (.recorded (AttemptMay kind h)) (fun _ _ => True) past := by
  induction p generalizing past with
  | done a => trivial
  | ask r next ih =>
      rcases Program.asks_ask.1 hd with ⟨hrd, hnextd⟩
      rcases Program.asks_ask.1 hm with ⟨hrm, hnextm⟩
      exact ⟨Or.inr (hrd.onStatus hrm), fun reply past' _ => ih reply (hnextd reply) (hnextm reply)⟩

/-- A request to the plugin writes nothing. -/
theorem not_writes_snoc_plugin {call : PluginCall} {reply : (Request.plugin call).Reply}
    (hpast : ∀ e ∈ past, ¬ e.request.Writes) :
    ∀ e ∈ past ++ [⟨.plugin call, reply⟩], ¬ e.request.Writes := by
  intro e he
  rcases List.mem_append.1 he with he | he
  · exact hpast e he
  · rw [List.mem_singleton.1 he]
    exact fun hwrites => hwrites

theorem ensures_syncData_recorded (hpast : ∀ e ∈ past, ¬ e.request.Writes) :
    (syncData h).run.Ensures (.recorded (AttemptMay .data h)) (fun _ _ => True) past := by
  rw [syncData]
  split
  · rw [Action.ensures_bind, Action.run_plugin, Program.ensures_bind]
    refine recorded_request (Or.inr trivial) fun reply => ?_
    cases reply with
    | error e => trivial
    | ok reply =>
        change Program.Ensures _ _ (_ : Action Unit).run _
        rw [Action.ensures_bind, Action.run_ofExcept]
        cases hdata : dataOfReply reply with
        | error e => trivial
        | ok data =>
            change Program.Ensures _ _ (_ : Action Unit).run _
            rw [Action.ensures_bind, Action.run_store, Program.ensures_bind]
            refine recorded_request (Or.inl ⟨trivial, ⟨rfl, rfl, reply, hdata, by simp⟩,
              not_writes_snoc_plugin hpast⟩) fun saved => ?_
            cases saved with
            | error e => trivial
            | ok _ => exact ensures_onStatus asks_markSynchronized asks_markSynchronized
  · trivial

theorem ensures_syncModules_recorded {topic : String} (hpast : ∀ e ∈ past, ¬ e.request.Writes) :
    (syncModules topic h).run.Ensures (.recorded (AttemptMay .modules h)) (fun _ _ => True) past := by
  rw [syncModules, Action.ensures_bind, Action.run_lift, Program.ensures_bind]
  refine recorded_request (Or.inr trivial) fun reply => ?_
  cases reply with
  | ok modules =>
      change Program.Ensures _ _ (_ : Action Unit).run _
      rw [Action.ensures_bind, Action.run_store, Program.ensures_bind]
      refine recorded_request (Or.inl ⟨trivial, ⟨rfl, rfl, by simp⟩,
        not_writes_snoc_plugin hpast⟩) fun saved => ?_
      cases saved with
      | error e => trivial
      | ok _ => exact ensures_onStatus (asks_commit h .ready) (asks_commit h .ready)
  | error e =>
      -- The handle with the reason of the failure has the id of the handle.
      refine Action.ensures_bind_of (ensures_onStatus ?_ ?_) (fun _ _ _ => trivial) fun _ _ _ => trivial
      · exact asks_commit (withFailure h e) .locked
      · exact asks_commit (withFailure h e) .locked

theorem ensures_attempt_recorded (m : Member) (kind : SyncKind) (h : Handle) :
    (attempt m kind h).Ensures (.recorded (AttemptMay kind h)) (fun _ _ => True) [] := by
  have hmarked : ∀ (k : SyncKind) (work : Action Unit),
      (∀ put, work.run.Ensures (.recorded (AttemptMay kind h)) (fun _ _ => True)
        [⟨.mark k h.id m.name m.markerLife, put⟩]) →
      (whileMarked m k h.id work).Ensures (.recorded (AttemptMay kind h)) (fun _ _ => True) [] := by
    intro k work hwork
    rw [whileMarked, Program.ensures_bind]
    refine recorded_request (Or.inr trivial) fun put => ?_
    cases put with
    | false => trivial
    | true =>
        refine (hwork true).bind fun result _ _ => ?_
        exact recorded_request (Or.inr trivial) fun _ => trivial
  cases kind with
  | data =>
      refine hmarked .data _ fun put => ensures_syncData_recorded ?_
      simp [Request.Writes]
  | modules =>
      refine hmarked .modules _ fun put => ensures_syncModules_recorded ?_
      simp [Request.Writes]

end Inventory

/-- What members may ask for if one of them is bound. -/
def bindMember (i : Nat) (may : Request → List Exchange → Prop) (j : Nat) :
    Request → List Exchange → Prop :=
  if j = i then may else fun _ _ => True

/-- In every turn a member that works on a handle asks for what an attempt may ask for. -/
theorem Interleaved.attempts {answers : (r : Request) → σ → r.Reply → σ → Prop}
    {ps qs : List (Program (Except InventoryError Unit))} {s s' : σ} {turns : List (Turn σ)} {i : Nat}
    {m : Member} (hrun : Interleaved answers ps s turns qs s') (hp : ps[i]? = some (attempt m kind h))
    {before after : List (Turn σ)} {t : Turn σ} (hturns : turns = before ++ t :: after)
    (ht : t.member = i) : AttemptMay kind h t.request (recordOf i before) := by
  have hbound : ∀ j (p : Program (Except InventoryError Unit)), ps[j]? = some p →
      p.Ensures (.recorded (bindMember i (AttemptMay kind h) j)) (fun _ _ => True) [] := by
    intro j p hj
    rw [bindMember]
    split
    · rename_i hi
      rw [hi, hp] at hj
      rw [← Option.some.inj hj]
      exact ensures_attempt_recorded m kind h
    · exact Program.ensures_trivial fun _ _ => trivial
  have hmay := (hrun.asked hbound).1 before t after hturns
  rwa [ht, bindMember, if_pos rfl] at hmay

/-- An attempt saves what it fetched before, and it has not written anything before. -/
theorem AttemptMay.of_isSave {r : Request} (hmay : AttemptMay kind h r past) (hr : r.IsSave) :
    r.SavesFetched kind h past ∧ ∀ e ∈ past, ¬ e.request.Writes := by
  rcases hmay with ⟨-, hsaves⟩ | hstatus
  · exact hsaves
  · cases r with
    | store call =>
        cases call with
        | saveData i data => exact hstatus.elim
        | saveModules i modules => exact hstatus.elim
        | _ => exact hr.elim
    | _ => exact hr.elim

/-! ## Changes of the status -/

variable {id : HandleId} {fails : StoreCall → Prop} {w w' : World}

/-- Only by a change of the status an attempt changes a record. -/
theorem World.Answers.record?_of_attempt {r : Request} {reply : r.Reply}
    (hans : World.Answers fails r w reply w') (hmay : AttemptMay kind h r past)
    (hother : ∀ i expected status, r ≠ .store (.saveStatusIf i expected status)) :
    w'.store.record? id = w.store.record? id := by
  cases r with
  | store call =>
      rcases World.Answers.store hans with ⟨-, ⟨e, -, -, hstore⟩ | hperform⟩
      · rw [hstore]
      have hstore : w'.store = (w.store.perform call).2 := (Prod.ext_iff.1 hperform).2
      rw [hstore]
      cases call with
      | saveStatusIf i expected status => exact absurd rfl (hother i expected status)
      | status i => rfl
      | saveData i data => rfl
      | saveModules i modules => rfl
      | _ => exact (hmay.elim And.left fun hstatus => hstatus).elim
  | publish event => rw [(World.Answers.publish hans).1]
  | _ => rw [(World.Answers.quiet (by trivial) hans).1]

/-- A call of the store failed. -/
def Exchange.Fails : Exchange → Prop
  | ⟨.store _, .error _⟩ => True
  | _ => False

/-- A change of the status leaves the record as it is if it fails, if the record is not in the state in
which the status was read, or if the status is the one that is there. -/
theorem World.Answers.record?_eq_iff (hs : w.store.Sound) {expected : Lifecycle} {status : HandleStatus}
    {reply : Except StoreError Bool}
    (hans : World.Answers fails (.store (.saveStatusIf id expected status)) w reply w') :
    w'.store.record? id = w.store.record? id ↔
      Exchange.Fails ⟨.store (.saveStatusIf id expected status), reply⟩ ∨
        w.store.lifecycle? id ≠ some expected ∨ w.store.status id = .ok status := by
  rcases World.Answers.store hans with ⟨-, ⟨e, -, rfl, hstore⟩ | hperform⟩
  · rw [hstore]
    exact ⟨fun _ => Or.inl trivial, fun _ => rfl⟩
  cases hr : w.store.record? id with
  | none =>
      rcases hs.saveStatusIf_cases hperform with ⟨g, hg, -⟩ | ⟨-, hstore⟩
      · rw [hr] at hg
        cases hg
      · rw [hstore, hr, Store.lifecycle?, hr]
        simp
  | some g =>
      by_cases hlife : g.lifecycle = expected
      · have hwrite : w.store.perform (.saveStatusIf id expected status) =
            (.ok true, w.store.putHandle { g with status := status }) := by
          simp only [Store.perform, hs.replaceStatus_eq, hr, hlife, if_true]
        rw [hwrite] at hperform
        rcases Prod.mk.inj hperform with ⟨rfl, hstore⟩
        have hafter : w'.store.record? id = some { g with status := status } := by
          rw [hstore, Store.record?_putHandle, if_pos (hs.id_of_record? hr)]
        rw [hafter, hs.status_eq, hr, Store.lifecycle?, hr]
        constructor
        · intro hsame
          refine Or.inr (Or.inr ?_)
          have hg := Option.some.inj hsame
          rw [← hg]
        · rintro (hfails | hne | hsame)
          · exact hfails.elim
          · exact absurd (congrArg some hlife) hne
          · have hsame : g.status = status := Except.ok.inj hsame
            rw [← hsame]
      · rcases hs.saveStatusIf_cases hperform with ⟨g', hg', hlife', -⟩ | ⟨-, hstore⟩
        · rw [hr] at hg'
          rw [← Option.some.inj hg'] at hlife'
          exact absurd hlife' hlife
        · rw [hstore, hr, Store.lifecycle?, hr]
          refine ⟨fun _ => Or.inr (Or.inl ?_), fun _ => rfl⟩
          exact fun heq => hlife (Option.some.inj heq)

end

/-! ## Traces -/

/-- An attempt of a member leaves no trace of a handle that was removed before the given turns. -/
structure NoTrace (i : Nat) (id : HandleId) (rest : List (Turn World)) (w : World) : Prop where
  /-- Nothing is kept for a handle that is not stored. -/
  orphaned : w.store.lifecycle? id = none → ∀ kind, w.store.fetched? kind id = none
  /-- Nothing that the attempt saved is kept from then on. -/
  shown : ∀ kind c, ¬ Since (fun t => t.member = i ∧ t.exchange.leaves? kind id = some (some c))
    (fun t => t.after.store.fetched? kind id ≠ some c) rest
  /-- The attempt does not change the record of another handle that was stored under the id. -/
  moved : ∀ t ∈ rest, t.member = i → t.after.store.record? id = t.before.store.record? id

/-- What was done about an attempt after its handle was removed. -/
structure Forestalled (i : Nat) (id : HandleId) (rest : List (Turn World)) (w : World) : Prop where
  /-- If no handle is stored in the end, all that was saved was dropped again. -/
  dropped : w.store.lifecycle? id = none → ∀ kind,
    ¬ Since (fun t => t.exchange.Saves kind id) (fun t => t.exchange.Drops kind id) rest
  /-- All that the attempt saved was dropped, or something else was saved in its place. -/
  replaced : ∀ kind c, ¬ Since (fun t => t.member = i ∧ t.exchange.leaves? kind id = some (some c))
    (fun t => ∃ y, t.exchange.leaves? kind id = some y ∧ y ≠ some c) rest
  /-- A change of the status by the attempt failed, found no record in the state in which the status was
  read, or was none. -/
  refused : ∀ t ∈ rest, t.member = i → ∀ expected status,
    t.request = .store (.saveStatusIf id expected status) →
      t.exchange.Fails ∨ t.before.store.lifecycle? id ≠ some expected ∨
        t.before.store.status id = .ok status

section

variable {ps qs : List (Program (Except InventoryError Unit))} {w₀ w : World}
  {turns past rest : List (Turn World)} {removal : Turn World} {i : Nat} {m : Member} {kind : SyncKind}
  {h : Handle} {fails : StoreCall → Prop}

/-- What a turn saved is kept from then on exactly if no later turn leaves something else. -/
theorem Interleaved.shown_iff (hrun : Interleaved (World.Answers fails) ps w₀ turns qs w)
    (hturns : turns = past ++ rest) (i : Nat) (kind : SyncKind) (id : HandleId) (x : Option Fetched) :
    Since (fun t => t.member = i ∧ t.exchange.leaves? kind id = some x)
        (fun t => t.after.store.fetched? kind id ≠ x) rest ↔
      Since (fun t => t.member = i ∧ t.exchange.leaves? kind id = some x)
        (fun t => ∃ y, t.exchange.leaves? kind id = some y ∧ y ≠ x) rest := by
  have hanswers : ∀ t ∈ turns, World.Answers fails t.request t.before t.reply t.after :=
    fun t ht => ((hrun.invariant (I := fun _ => True) trivial fun _ _ _ _ _ _ => trivial).2 t ht).2.2
  constructor
  · intro hsince
    refine hsince.mono (fun _ _ h => h) ?_
    rintro t ht ⟨y, hleaves, hne⟩
    rw [World.Answers.fetched? (hanswers t (by simp [hturns, ht]))]
    rw [show Exchange.leaves? kind id ⟨t.request, t.reply⟩ = some y from hleaves]
    exact hne
  · rintro ⟨before, t, after, rfl, ht, hkept⟩
    refine ⟨before, t, after, rfl, ht, ?_⟩
    intro u hu
    rw [not_not]
    rcases List.append_of_mem hu with ⟨earlier, later, rfl⟩
    have hsplit : turns = (past ++ before ++ t :: earlier) ++ u :: later := by simp [hturns]
    rcases hrun.through hsplit with ⟨qs', hrun⟩
    refine hrun.fetched?_of_left ⟨past ++ before, t, earlier ++ [u], by simp, ht.2, ?_⟩
    intro v hv
    refine hkept v ?_
    rcases List.mem_append.1 hv with hv | hv
    · simp [hv]
    · simp [List.mem_singleton.1 hv]

/-- An attempt leaves the record of its handle as it is exactly if each change of the status that it asks for
leaves it so. -/
theorem Interleaved.moved_iff (hs : w₀.store.Sound) (hp : ps[i]? = some (attempt m kind h))
    (hrun : Interleaved (World.Answers fails) ps w₀ turns qs w) (hturns : turns = past ++ rest) :
    (∀ t ∈ rest, t.member = i → t.after.store.record? h.id = t.before.store.record? h.id) ↔
      ∀ t ∈ rest, t.member = i → ∀ expected status,
        t.request = .store (.saveStatusIf h.id expected status) →
          t.exchange.Fails ∨ t.before.store.lifecycle? h.id ≠ some expected ∨
            t.before.store.status h.id = .ok status := by
  have hinvariant := (hrun.invariant (I := fun v => v.store.Sound) hs
    fun r v reply v' hv hans => World.Answers.sound hans hv).2
  refine forall₃_congr fun t ht hmember => ?_
  rcases List.append_of_mem ht with ⟨before, after, rfl⟩
  have hsplit : turns = (past ++ before) ++ t :: after := by simp [hturns]
  have hmay := hrun.attempts hp hsplit hmember
  rcases hinvariant t (by simp [hsplit]) with ⟨hsound, -, hans⟩
  rcases t with ⟨j, r, reply, v, v'⟩
  by_cases hchange : ∃ i expected status, r = .store (.saveStatusIf i expected status)
  · rcases hchange with ⟨i, expected, status, rfl⟩
    obtain rfl : i = h.id := hmay.elim (fun hsave => hsave.1.elim) fun hstatus => hstatus
    refine (World.Answers.record?_eq_iff hsound hans).trans ⟨?_, fun hall => hall _ _ rfl⟩
    rintro hrefused expected' status' heq
    cases heq
    exact hrefused
  · have hother : ∀ i expected status, r ≠ .store (.saveStatusIf i expected status) :=
      fun i expected status heq => hchange ⟨i, expected, status, heq⟩
    refine ⟨fun _ expected status heq => absurd heq (hother _ expected status), fun _ => ?_⟩
    exact World.Answers.record?_of_attempt hans hmay hother

/-- What an attempt saves it fetched before for its handle, and it wrote nothing before it saves. If its
handle is removed meanwhile, the attempt leaves no trace of it exactly if it was forestalled: what was saved
after the removal was dropped or replaced, and a change of the status found no record that it could change. -/
theorem attempt_leaves_no_trace_iff (hs : w₀.store.Sound) (hp : ps[i]? = some (attempt m kind h))
    (hrun : Interleaved (World.Answers fails) ps w₀ turns qs w) (hturns : turns = past ++ removal :: rest)
    (hremoval : removal.exchange.Removes h.id) :
    (∀ before t after, turns = before ++ t :: after → t.member = i → t.request.IsSave →
        t.request.SavesFetched kind h (recordOf i before) ∧
          ∀ u ∈ before, u.member = i → ¬ u.request.Writes) ∧
      (NoTrace i h.id rest w ↔ Forestalled i h.id rest w) := by
  have hrest : turns = (past ++ [removal]) ++ rest := by simp [hturns]
  have hshown : ∀ k c, Since _ _ rest ↔ Since _ _ rest :=
    fun k c => hrun.shown_iff hrest i k h.id (some c)
  refine ⟨?_, ?_, ?_⟩
  · intro before t after hsplit hmember hsave
    rcases (hrun.attempts hp hsplit hmember).of_isSave hsave with ⟨hfetched, hfirst⟩
    refine ⟨hfetched, ?_⟩
    intro u hu hi
    exact hfirst u.exchange (mem_recordOf.2 ⟨u, hu, hi, rfl⟩)
  · rintro ⟨horphaned, hshown', hmoved⟩
    refine ⟨?_, fun k c hsince => hshown' k c ((hshown k c).2 hsince),
      (hrun.moved_iff hs hp hrest).1 hmoved⟩
    intro hnone k hsince
    exact (hrun.fetched?_ne_none_iff hturns hremoval).2 hsince (horphaned hnone k)
  · rintro ⟨hdropped, hreplaced, hrefused⟩
    refine ⟨?_, fun k c hsince => hreplaced k c ((hshown k c).1 hsince),
      (hrun.moved_iff hs hp hrest).2 hrefused⟩
    intro hnone k
    by_contra hkept
    exact hdropped hnone k ((hrun.fetched?_ne_none_iff hturns hremoval).1 hkept)

end

/-! ## An attempt that is overtaken -/

/-- An advised handle. -/
def overtakenHandle : Handle :=
  { (default : Handle) with
    id := ⟨"a"⟩
    status := { (default : HandleStatus) with lifecycle := .advised } }

/-- A world with that handle in its store. -/
def overtakenWorld : World :=
  { World.empty with store := Store.empty.putHandle overtakenHandle }

/-- The modules that its plugin tells of. -/
def overtakenModules : List ModuleReference := [default]

/-- The member that removes it. -/
def overtaking : Program (Except InventoryError Unit) := do
  let _ ← remove "lcm" ["a"]
  return .ok ()

/-- A member works on the handle while the other one removes it. -/
def overtakenPrograms : List (Program (Except InventoryError Unit)) :=
  [attempt ⟨"x", .ofSeconds 300, .zero, "lcm"⟩ .modules overtakenHandle, overtaking]

/-- A plugin may tell of modules. -/
theorem World.answers_modules (fails : StoreCall → Prop) (h : Handle) (modules : List ModuleReference)
    (w : World) : World.Answers fails (.plugin (.modules h)) w (.ok modules) w.nextTurn := by
  refine ⟨{ World.undisturbed with plugin := fun _ call =>
    match call with
    | .modules _ => .ok modules
    | .read .. => .error .emptyBody }, .zero, ?_, rfl⟩
  intro n call e hfails
  cases hfails

/-- The handle is removed while its modules are fetched. They are saved all the same. -/
theorem attempt_leaves_modules :
    ∃ turns past removal rest qs w,
      Interleaved (World.Answers fun _ => False) overtakenPrograms overtakenWorld turns qs w ∧
      turns = past ++ removal :: rest ∧ removal.exchange.Removes ⟨"a"⟩ ∧
      w.store.lifecycle? ⟨"a"⟩ = none ∧ w.store.fetched? .modules ⟨"a"⟩ ≠ none ∧
      ¬ Forestalled 0 ⟨"a"⟩ rest w := by
  have answered := World.answers_undisturbed fun _ => False
  have hs : overtakenWorld.store.Sound := Store.sound_empty.putHandle overtakenHandle
  have hr : overtakenWorld.store.record? ⟨"a"⟩ = some overtakenHandle :=
    (Store.record?_putHandle _ _ _).trans (if_pos rfl)
  have hmany : overtakenWorld.store.perform (.getMany [⟨"a"⟩]) =
      (.ok [overtakenHandle], overtakenWorld.store) := by
    rw [Store.perform, hs.getMany_eq, List.filterMap_cons_some hr]
    rfl
  have hstatus : overtakenWorld.store.perform (.status ⟨"a"⟩) =
      (.ok overtakenHandle.status, overtakenWorld.store) := by
    rw [Store.perform, hs.status_eq, hr]
  have hwrite : ∀ status, overtakenWorld.store.perform (.saveStatusIf ⟨"a"⟩ .advised status) =
      (.ok true, overtakenWorld.store.putHandle { overtakenHandle with status := status }) := by
    intro status
    rw [Store.perform, hs.replaceStatus_eq, hr]
    rfl
  have h₀ := @Interleaved.start _ _ (World.Answers fun _ => False) overtakenPrograms overtakenWorld
  have h₁ := h₀.snoc 0 rfl (answered _ _)
  have h₂ := h₁.snoc 0 rfl (World.answers_modules _ _ overtakenModules _)
  -- The modules are fetched; the other member moves the handle to deleting and deletes it.
  have h₃ := h₂.snoc 1 rfl (World.answers_store _ _ hmany)
  have h₄ := h₃.snoc 1 rfl (World.answers_store _ _ hstatus)
  have h₅ := h₄.snoc 1 rfl (answered _ _)
  have h₆ := h₅.snoc 1 rfl (World.answers_store _ _ (hwrite _))
  have h₇ := h₆.snoc 1 rfl (answered _ _)
  have h₈ := h₇.snoc 1 rfl (answered _ _)
  have h₉ := h₈.snoc 1 rfl (answered _ _)
  have hchunks : chunks deleteChunkSize (["a"].map HandleId.mk) = [[⟨"a"⟩]] := by simp [chunks]
  rw [hchunks] at h₉
  have h₁₀ := h₉.snoc 1 rfl (answered _ _)
  have h₁₁ := h₁₀.snoc 1 rfl (answered _ _)
  have h₁₂ := h₁₁.snoc 1 rfl (answered _ _)
  have h₁₃ := h₁₂.snoc 1 rfl (answered _ _)
  have h₁₄ := h₁₃.snoc 1 rfl (answered _ _)
  have h₁₅ := h₁₄.snoc 1 rfl (answered _ _)
  -- The removal is over, and what was fetched is saved.
  have h₁₆ := h₁₅.snoc 0 rfl (answered _ _)
  have h₁₇ := h₁₆.snoc 0 rfl (answered _ _)
  have h₁₈ := h₁₇.snoc 0 rfl (answered _ _)
  have hkept : ∀ {x : Option Fetched}, x = some (.modules overtakenModules) → x ≠ none := by
    rintro _ rfl
    simp
  have hp : overtakenPrograms[0]? = some (attempt _ .modules overtakenHandle) := rfl
  have hmem : overtakenHandle.id ∈ [overtakenHandle.id] := List.mem_singleton_self _
  refine ⟨_, _, _, _, _, _, h₁₈, (List.take_append_drop 9 _).symm, hmem, rfl, hkept rfl, ?_⟩
  intro hforestalled
  have hnoTrace := (attempt_leaves_no_trace_iff hs hp h₁₈ (List.take_append_drop 9 _).symm hmem).2.2
    hforestalled
  exact hkept rfl (hnoTrace.orphaned rfl .modules)

end CmInventory
