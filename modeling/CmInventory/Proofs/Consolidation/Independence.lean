import CmInventory.Proofs.Consolidation.Calls
import CmInventory.Proofs.Coordination.Awaited
import CmInventory.Proofs.Program.Schedule
import CmInventory.Proofs.Store.Statuses

/-!
# Independence of subscriptions

A subscription is given by its client and its name. What is awaited for it is kept under its key, in which
the two are written one after the other. Calls about one subscription keep out of what concerns another one
just if the keys of the two differ (`independent_iff_key_ne`); subscriptions that differ may have one key.

All that a call asks for concerns the key of its subscription (`Consolidation.Call.concerns`). A request
that concerns a key changes nothing but what is kept and published under that key, and its reply depends on
nothing else. So two runs of which the second leaves out calls of one key stay alike but for that key
(`Members.AlikeBut.after`).
-/

namespace CmInventory

open Inventory

/-! ## What is kept and published under a key -/

/-- Whether an event is a report on the subscription of a client and a name. -/
def Published.reportsOn (s : String × String) (p : Published) : Bool :=
  match p.event with
  | .outcome r => (r.clientId, r.subscriptionName) = s
  | .lifecycle _ => false

namespace World

/-- The reports that were published on a subscription. -/
def reportsOn (w : World) (s : String × String) : List Published :=
  w.published.filter (Published.reportsOn s)

theorem reportsOn_publish (w : World) (p : Published) (s : String × String) :
    (w.publish p).reportsOn s = if p.reportsOn s then w.reportsOn s ++ [p] else w.reportsOn s := by
  rw [reportsOn, publish, List.filter_append]
  by_cases h : p.reportsOn s = true <;> simp [h, reportsOn]

/-- Worlds that may differ in what is kept and published under a key, and in nothing else about
subscriptions. -/
structure AlikeBut (key : String) (w w' : World) : Prop where
  held : ∀ k, k ≠ key → w.held? k = w'.held? k
  rows : ∀ clientId subscriptionName, subscriptionKey clientId subscriptionName ≠ key →
    w.store.statusRows clientId subscriptionName = w'.store.statusRows clientId subscriptionName
  reports : ∀ s : String × String, subscriptionKey s.1 s.2 ≠ key → w.reportsOn s = w'.reportsOn s

variable {key : String} {w w' w'' : World}

theorem AlikeBut.refl (key : String) (w : World) : AlikeBut key w w :=
  ⟨fun _ _ => rfl, fun _ _ _ => rfl, fun _ _ => rfl⟩

theorem AlikeBut.symm (h : AlikeBut key w w') : AlikeBut key w' w :=
  ⟨fun k hk => (h.held k hk).symm, fun c n hk => (h.rows c n hk).symm, fun s hk => (h.reports s hk).symm⟩

theorem AlikeBut.trans (h : AlikeBut key w w') (h' : AlikeBut key w' w'') : AlikeBut key w w'' :=
  ⟨fun k hk => (h.held k hk).trans (h'.held k hk), fun c n hk => (h.rows c n hk).trans (h'.rows c n hk),
    fun s hk => (h.reports s hk).trans (h'.reports s hk)⟩

/-- Worlds stay alike when both change under another key only, and alike there. -/
theorem AlikeBut.changed {other : String} {v v' : World} (h : AlikeBut key w w')
    (hframe : AlikeBut other w v) (hframe' : AlikeBut other w' v')
    (hheld : v.held? other = v'.held? other)
    (hrows : ∀ clientId subscriptionName, subscriptionKey clientId subscriptionName = other →
      v.store.statusRows clientId subscriptionName = v'.store.statusRows clientId subscriptionName)
    (hreports : ∀ s : String × String, subscriptionKey s.1 s.2 = other →
      v.reportsOn s = v'.reportsOn s) : AlikeBut key v v' := by
  refine ⟨?_, ?_, ?_⟩
  · intro k hk
    by_cases hother : k = other
    · rw [hother, hheld]
    · rw [← hframe.held k hother, h.held k hk, hframe'.held k hother]
  · intro c n hk
    by_cases hother : subscriptionKey c n = other
    · exact hrows c n hother
    · rw [← hframe.rows c n hother, h.rows c n hk, hframe'.rows c n hother]
  · intro s hk
    by_cases hother : subscriptionKey s.1 s.2 = other
    · exact hreports s hother
    · rw [← hframe.reports s hother, h.reports s hk, hframe'.reports s hother]

/-- A call is answered by what is held under its key, and leaves there what depends on that alone. -/
theorem callPending_congr {call : PendingCall} (hheld : w.held? call.key = w'.held? call.key)
    (htime : w.time = w'.time) :
    (w.callPending call).1 = (w'.callPending call).1 ∧
      (w.callPending call).2.held? call.key = (w'.callPending call).2.held? call.key := by
  have hawaited := awaited?_congr hheld htime
  cases call with
  | put key plugins life =>
      refine ⟨rfl, ?_⟩
      rw [PendingCall.key, held?_put, held?_put, htime]
  | strike key plugin life =>
      rcases w.strike_cases key plugin life with ⟨a, ha, hreply, hafter⟩ | ⟨ha, hreply, hafter⟩
      · rcases w'.strike_cases key plugin life with ⟨b, hb, hreply', hafter'⟩ | ⟨hb, -, -⟩
        · have hab : a = b := Option.some.inj (ha.symm.trans (hawaited.trans hb))
          rw [hreply, hreply', PendingCall.key, hafter, hafter', hab, htime]
          exact ⟨rfl, rfl⟩
        · cases ha.symm.trans (hawaited.trans hb)
      · rcases w'.strike_cases key plugin life with ⟨b, hb, -, -⟩ | ⟨-, hreply', hafter'⟩
        · cases ha.symm.trans (hawaited.trans hb)
        · rw [hreply, hreply', PendingCall.key, hafter, hafter']
          exact ⟨rfl, rfl⟩
  | get key =>
      refine ⟨hawaited, ?_⟩
      rw [PendingCall.key, held?_get, held?_get, Cache.live?_eq, Cache.live?_eq, htime]
      exact congrArg _ hheld
  | take key =>
      rcases w.take_cases key with ⟨hreply, hafter⟩
      rcases w'.take_cases key with ⟨hreply', hafter'⟩
      rw [hreply, hreply', PendingCall.key, hafter, hafter']
      exact ⟨hawaited, rfl⟩

end World

/-! ## What a request concerns -/

/-- What is asked for concerns subscriptions with the key, and nothing else. -/
def Request.Concerns (key : String) : Request → Prop
  | .pending call => call.key = key
  | .store (.saveAnswer a) => a.key = key
  | .store (.statuses clientId subscriptionName) => subscriptionKey clientId subscriptionName = key
  | .publish ⟨_, _, .outcome r⟩ => subscriptionKey r.clientId r.subscriptionName = key
  | _ => False

/-- The setting in which all requests concern a key, and any reply may come. -/
def Setting.concerning (key : String) : Setting Unit :=
  ⟨fun r _ => r.Concerns key, fun _ _ _ _ => True⟩

theorem concerning_request {key : String} {r : Request} {Q : r.Reply → Unit → Prop}
    (h : r.Concerns key) (hQ : ∀ reply s, Q reply s) :
    (Program.request r).Ensures (.concerning key) Q () :=
  ⟨h, fun reply s _ => hQ reply s⟩

theorem concerning_store {key : String} {call : StoreCall} {P : Unit → Prop}
    (h : (Request.store call).Concerns key) (hP : P ()) :
    (Action.store call).run.Ensures (.concerning key) (Action.Keeps P fun _ _ => True) () := by
  rw [Action.run_store, Program.ensures_bind]
  refine concerning_request h fun reply s => ?_
  rw [Program.ensures_done]
  cases reply with
  | error e => exact trivial
  | ok _ => exact hP

/-- All that a call asks for concerns the key of its subscription. -/
theorem Consolidation.Call.concerns (x : Call) :
    x.program.Ensures (.concerning x.key) (fun _ _ => True) () := by
  cases x with
  | forward settings clientId subscriptionName plugins =>
      rw [program, Inventory.forward, Program.ensures_bind]
      exact concerning_request rfl fun _ _ => trivial
  | answer settings a =>
      refine ensures_answer (fun _ _ => True) ?_ ?_ ?_ ?_ ?_
      · exact concerning_request rfl fun _ _ => trivial
      · exact fun _ _ _ _ => concerning_store rfl trivial
      · exact fun _ _ _ => trivial
      · exact fun _ _ _ _ => concerning_store rfl trivial
      · intro awaited s hempty _
        refine concerning_request rfl fun taken s' => ?_
        cases taken with
        | none => exact trivial
        | some _ => exact fun statuses => concerning_request rfl fun _ _ => trivial
  | timeOut settings a =>
      refine ensures_timeOut (fun _ => True) ?_ ?_ ?_
      · refine concerning_request rfl fun taken s => ?_
        cases taken <;> exact trivial
      · exact fun _ _ _ => concerning_store rfl trivial
      · exact fun statuses s _ => concerning_request rfl fun _ _ => trivial

/-! ## What a slot changes -/

namespace Slot

variable {key other : String} {r : Request} {w w' : World}

theorem reply_failed {slot : Slot} {e : StoreError} (h : slot.failure = some e) (call : StoreCall)
    (w : World) : World.reply slot.circumstances (.store call) w = (.error e, w.nextTurn) := by
  rw [World.reply, circumstances, h]

theorem reply_performed {slot : Slot} (h : slot.failure = none) (call : StoreCall) (w : World) :
    World.reply slot.circumstances (.store call) w = w.nextTurn.callStore call := by
  rw [World.reply, circumstances, h]

/-- A request that concerns a key changes nothing else. -/
theorem alikeBut_reply (slot : Slot) (h : r.Concerns key) (w : World) :
    World.AlikeBut key w (World.reply slot.circumstances r (slot.enter w)).2 := by
  cases r with
  | pending call =>
      have hrest := World.callPending_rest (slot.enter w).nextTurn call
      refine ⟨?_, ?_, ?_⟩
      · intro k hk
        have hcall : call.key ≠ k := fun hsame => hk (hsame.symm.trans h)
        exact (World.held?_callPending (w := (slot.enter w).nextTurn) hcall).symm
      · intro c n _
        exact congrArg (fun s : Store => s.statusRows c n) hrest.1.symm
      · intro s _
        exact congrArg (List.filter (Published.reportsOn s)) hrest.2.2.symm
  | store call =>
      cases hf : slot.failure with
      | some e =>
          rw [reply_failed hf]
          exact ⟨fun _ _ => rfl, fun _ _ _ => rfl, fun _ _ => rfl⟩
      | none =>
          rw [reply_performed hf]
          cases call with
          | saveAnswer a =>
              refine ⟨fun _ _ => rfl, ?_, fun _ _ => rfl⟩
              intro c n hk
              refine (Store.statusRows_saveAnswer w.store a c n).trans (if_neg ?_) |>.symm
              rintro ⟨rfl, rfl⟩
              exact hk h
          | statuses c n => exact ⟨fun _ _ => rfl, fun _ _ _ => rfl, fun _ _ => rfl⟩
          | _ => exact h.elim
  | publish p =>
      rcases p with ⟨topic, k, event⟩
      cases event with
      | lifecycle e => exact h.elim
      | outcome report =>
          refine ⟨fun _ _ => rfl, fun _ _ _ => rfl, ?_⟩
          intro s hs
          refine ((World.reportsOn_publish w _ s).trans (if_neg ?_)).symm
          intro hreport
          have hsame : (report.clientId, report.subscriptionName) = s := by
            simpa [Published.reportsOn] using hreport
          exact hs (hsame ▸ h)
  | _ => exact h.elim

/-- A request that concerns another key is answered alike in worlds that are alike but for a key. -/
theorem alikeBut_replies (slot : Slot) (h : r.Concerns other) (hne : other ≠ key)
    (hw : World.AlikeBut key w w') :
    (World.reply slot.circumstances r (slot.enter w)).1 =
        (World.reply slot.circumstances r (slot.enter w')).1 ∧
      World.AlikeBut key (World.reply slot.circumstances r (slot.enter w)).2
        (World.reply slot.circumstances r (slot.enter w')).2 := by
  have hheld : w.held? other = w'.held? other := hw.held other hne
  have hrows : ∀ c n, subscriptionKey c n = other → w.store.statusRows c n = w'.store.statusRows c n :=
    fun c n hk => hw.rows c n (hk ▸ hne)
  have hreports : ∀ s : String × String, subscriptionKey s.1 s.2 = other →
      w.reportsOn s = w'.reportsOn s := fun s hk => hw.reports s (hk ▸ hne)
  have hchanged := hw.changed (slot.alikeBut_reply h w) (slot.alikeBut_reply h w')
  cases r with
  | pending call =>
      have hcall : call.key = other := h
      subst hcall
      have hheld : (slot.enter w).nextTurn.held? call.key = (slot.enter w').nextTurn.held? call.key :=
        hheld
      have hcongr := World.callPending_congr hheld rfl
      have hrest := World.callPending_rest (slot.enter w).nextTurn call
      have hrest' := World.callPending_rest (slot.enter w').nextTurn call
      refine ⟨hcongr.1, hchanged hcongr.2 ?_ ?_⟩
      · intro c n hk
        exact (congrArg (fun s : Store => s.statusRows c n) hrest.1).trans
          ((hrows c n hk).trans (congrArg (fun s : Store => s.statusRows c n) hrest'.1.symm))
      · intro s hk
        exact (congrArg (List.filter (Published.reportsOn s)) hrest.2.2).trans
          ((hreports s hk).trans (congrArg (List.filter (Published.reportsOn s)) hrest'.2.2.symm))
  | store call =>
      cases hf : slot.failure with
      | some e =>
          rw [reply_failed hf, reply_failed hf] at hchanged ⊢
          exact ⟨rfl, hchanged hheld hrows hreports⟩
      | none =>
          rw [reply_performed hf, reply_performed hf] at hchanged ⊢
          cases call with
          | saveAnswer a =>
              refine ⟨rfl, hchanged hheld ?_ hreports⟩
              intro c n hk
              refine (Store.statusRows_saveAnswer w.store a c n).trans ?_
              rw [hrows c n hk]
              exact (Store.statusRows_saveAnswer w'.store a c n).symm
          | statuses c n =>
              refine ⟨?_, hchanged hheld hrows hreports⟩
              change w.store.statusesOf c n = w'.store.statusesOf c n
              rw [Store.statusesOf, Store.statusesOf, hrows c n h]
          | _ => exact h.elim
  | publish p =>
      refine ⟨rfl, hchanged hheld hrows ?_⟩
      intro s hk
      refine (World.reportsOn_publish w p s).trans ?_
      rw [hreports s hk]
      exact (World.reportsOn_publish w' p s).symm
  | _ => exact h.elim

end Slot

/-! ## Runs that leave out calls -/

namespace Members

/-- The members that are about to make these calls. -/
def making (calls : List Consolidation.Call) (w : World) : Members (Except InventoryError Bool) :=
  ⟨calls.map Consolidation.Call.program, w⟩

variable {calls : List Consolidation.Call} {m m' : Members (Except InventoryError Bool)} {key : String}

/-- What is left of each program asks only for what concerns the subscription of its call. -/
def Concern (m : Members (Except InventoryError Bool)) (calls : List Consolidation.Call) : Prop :=
  ∀ (i : Nat) (p : Program (Except InventoryError Bool)), m.programs[i]? = some p →
    ∃ x, calls[i]? = some x ∧ p.Ensures (.concerning x.key) (fun _ _ => True) ()

theorem concern_making (calls : List Consolidation.Call) (w : World) :
    (making calls w).Concern calls := by
  intro i p hp
  rw [making, List.getElem?_map] at hp
  rcases Option.map_eq_some_iff.1 hp with ⟨x, hx, rfl⟩
  exact ⟨x, hx, x.concerns⟩

theorem Concern.turn (h : m.Concern calls) (slot : Slot) : (m.turn slot).Concern calls := by
  rcases m.asked_or_idle slot with ⟨r, next, hasked⟩ | hidle
  · rw [turn_of_asked hasked]
    intro i p hp
    rw [List.getElem?_set] at hp
    by_cases hi : slot.member = i
    · subst hi
      rcases h slot.member _ hasked with ⟨x, hx, -, hnext⟩
      have hlt : slot.member < m.programs.length := (List.getElem?_eq_some_iff.1 hasked).1
      rw [if_pos rfl, if_pos hlt, Option.some.injEq] at hp
      rw [← hp]
      exact ⟨x, hx, hnext _ _ trivial⟩
    · rw [if_neg hi] at hp
      exact h i p hp
  · rwa [hidle]

/-- Members whose calls about other keys are as far, in worlds that are alike but for the key. -/
structure AlikeBut (calls : List Consolidation.Call) (key : String)
    (m m' : Members (Except InventoryError Bool)) : Prop where
  programs : ∀ (i : Nat) (x : Consolidation.Call), calls[i]? = some x → x.key ≠ key →
    m.programs[i]? = m'.programs[i]?
  world : m.world.AlikeBut key m'.world

theorem AlikeBut.symm (h : AlikeBut calls key m m') : AlikeBut calls key m' m :=
  ⟨fun i x hx hne => (h.programs i x hx hne).symm, h.world.symm⟩

theorem AlikeBut.trans {m'' : Members (Except InventoryError Bool)} (h : AlikeBut calls key m m')
    (h' : AlikeBut calls key m' m'') : AlikeBut calls key m m'' :=
  ⟨fun i x hx hne => (h.programs i x hx hne).trans (h'.programs i x hx hne), h.world.trans h'.world⟩

/-- A slot of a call about the key. -/
theorem Concern.alikeBut_turn (h : m.Concern calls) {slot : Slot} {x : Consolidation.Call}
    (hx : calls[slot.member]? = some x) (hkey : x.key = key) : AlikeBut calls key m (m.turn slot) := by
  rcases m.asked_or_idle slot with ⟨r, next, hasked⟩ | hidle
  · rcases h slot.member _ hasked with ⟨y, hy, hconcerns, -⟩
    rw [hx, Option.some.injEq] at hy
    subst hy
    rw [turn_of_asked hasked]
    refine ⟨?_, slot.alikeBut_reply (hkey ▸ hconcerns) m.world⟩
    intro i z hz hne
    have hi : slot.member ≠ i := by
      rintro rfl
      rw [hx, Option.some.injEq] at hz
      exact hne (hz ▸ hkey)
    rw [List.getElem?_set, if_neg hi]
  · rw [hidle]
    exact ⟨fun _ _ _ _ => rfl, .refl key m.world⟩

/-- A slot in two runs that are alike but for a key. -/
theorem AlikeBut.turn (h : AlikeBut calls key m m') (hm : m.Concern calls) (hm' : m'.Concern calls)
    (slot : Slot) : AlikeBut calls key (m.turn slot) (m'.turn slot) := by
  cases hx : calls[slot.member]? with
  | none =>
      -- There is no such member in either run.
      have hstays : ∀ n : Members (Except InventoryError Bool), n.Concern calls → n.turn slot = n := by
        intro n hn
        rcases n.asked_or_idle slot with ⟨r, next, hasked⟩ | hidle
        · rcases hn slot.member _ hasked with ⟨x, hx', -⟩
          rw [hx] at hx'
          cases hx'
        · exact hidle
      rw [hstays m hm, hstays m' hm']
      exact h
  | some x =>
      by_cases hkey : x.key = key
      · exact (hm.alikeBut_turn hx hkey).symm.trans (h.trans (hm'.alikeBut_turn hx hkey))
      · have hprogram := h.programs slot.member x hx hkey
        by_cases hasks : ∃ r next, m.programs[slot.member]? = some (.ask r next)
        · rcases hasks with ⟨r, next, hasked⟩
          have hasked' := hprogram.symm.trans hasked
          rcases hm slot.member _ hasked with ⟨y, hy, hconcerns, -⟩
          rw [hx, Option.some.injEq] at hy
          subst hy
          have hreplies := slot.alikeBut_replies hconcerns hkey h.world
          rw [turn_of_asked hasked, turn_of_asked hasked', hreplies.1]
          refine ⟨?_, hreplies.2⟩
          intro i z hz hne
          dsimp only
          rw [List.getElem?_set, List.getElem?_set]
          by_cases hi : slot.member = i
          · subst hi
            have hlt := (List.getElem?_eq_some_iff.1 hasked).1
            have hlt' := (List.getElem?_eq_some_iff.1 hasked').1
            rw [if_pos rfl, if_pos rfl, if_pos hlt, if_pos hlt']
          · rw [if_neg hi, if_neg hi]
            exact h.programs i z hz hne
        · rw [turn_idle fun r next hasked => hasks ⟨r, next, hasked⟩,
            turn_idle fun r next hasked => hasks ⟨r, next, hprogram.trans hasked⟩]
          exact h

theorem Concern.after (h : m.Concern calls) (slots : List Slot) : (m.after slots).Concern calls := by
  induction slots using List.reverseRecOn with
  | nil => exact h
  | append_singleton slots slot ih =>
      rw [after_snoc]
      exact ih.turn slot

/-- Two runs of which the second leaves out slots of calls about the key. -/
theorem Concern.alikeBut_filter (h : m.Concern calls) {keep : Slot → Bool}
    (hkeep : ∀ slot, keep slot = false → ∃ x, calls[slot.member]? = some x ∧ x.key = key)
    (slots : List Slot) : AlikeBut calls key (m.after slots) (m.after (slots.filter keep)) := by
  induction slots using List.reverseRecOn with
  | nil => exact ⟨fun _ _ _ _ => rfl, .refl key m.world⟩
  | append_singleton slots slot ih =>
      rw [List.filter_append, after_snoc]
      cases hslot : keep slot with
      | true =>
          rw [List.filter_cons_of_pos hslot, List.filter_nil, after_snoc]
          exact ih.turn (h.after slots) (h.after _) slot
      | false =>
          rcases hkeep slot hslot with ⟨x, hx, hkey⟩
          rw [List.filter_cons_of_neg (by simp [hslot]), List.filter_nil, List.append_nil]
          exact ((h.after slots).alikeBut_turn hx hkey).symm.trans ih

end Members

/-! ## Independence -/

/-- Whether a slot is one of a call about a subscription. -/
def Slot.isAbout (calls : List Consolidation.Call) (s : String × String) (slot : Slot) : Bool :=
  calls[slot.member]?.any fun x => x.subscription = s

/-- The slots but those of calls about a subscription. -/
def slotsWithout (calls : List Consolidation.Call) (s : String × String) (slots : List Slot) :
    List Slot :=
  slots.filter fun slot => !slot.isAbout calls s

/-- Calls about the second subscription never change what is awaited for the first one. -/
def KeepsAwaited (s s' : String × String) : Prop :=
  ∀ (calls : List Consolidation.Call) (w : World) (slots : List Slot) (slot : Slot),
    slot.isAbout calls s' = true →
      (((Members.making calls w).after slots).turn slot).world.held? (subscriptionKey s.1 s.2) =
        ((Members.making calls w).after slots).world.held? (subscriptionKey s.1 s.2)

/-- The reports on the first subscription are those of the run in which all calls about the second one
are left out. -/
def KeepsReports (s s' : String × String) : Prop :=
  ∀ (calls : List Consolidation.Call) (w : World) (slots : List Slot),
    ((Members.making calls w).after slots).world.reportsOn s =
      ((Members.making calls w).after (slotsWithout calls s' slots)).world.reportsOn s

theorem Slot.key_of_isAbout {calls : List Consolidation.Call} {s : String × String} {slot : Slot}
    (h : slot.isAbout calls s = true) :
    ∃ x, calls[slot.member]? = some x ∧ x.key = subscriptionKey s.1 s.2 := by
  rcases Option.any_eq_true _ _ |>.1 h with ⟨x, hx, hs⟩
  refine ⟨x, hx, ?_⟩
  rw [← of_decide_eq_true hs]
  rfl

theorem keepsAwaited_of_key_ne {s s' : String × String}
    (h : subscriptionKey s.1 s.2 ≠ subscriptionKey s'.1 s'.2) : KeepsAwaited s s' := by
  intro calls w slots slot habout
  rcases Slot.key_of_isAbout habout with ⟨x, hx, hkey⟩
  have hconcern := (Members.concern_making calls w).after slots
  exact ((hconcern.alikeBut_turn hx hkey).world.held _ h).symm

theorem keepsReports_of_key_ne {s s' : String × String}
    (h : subscriptionKey s.1 s.2 ≠ subscriptionKey s'.1 s'.2) : KeepsReports s s' := by
  intro calls w slots
  refine ((Members.concern_making calls w).alikeBut_filter ?_ slots).world.reports s h
  intro slot hkept
  exact Slot.key_of_isAbout (by simpa using hkept)

/-! ## Subscriptions with one key -/

/-- What a member without a store publishes when it ends the wait. -/
def storelessReport (a : PluginAnswer) : Published :=
  ⟨storelessSettings.topic, a.key,
    .outcome ⟨a.clientId, a.subscriptionName, subscriptionCreated, .classify a.statuses, a.statuses⟩⟩

theorem timeOut_storeless (a : PluginAnswer) :
    (Inventory.timeOut storelessSettings a).run =
      .ask (.pending (.take a.key)) fun (taken : Option NameSet) =>
        match taken with
        | none => .done (.ok false)
        | some _ => .ask (.publish (storelessReport a)) fun _ => .done (.ok true) := by
  refine congrArg (Program.ask _) (funext fun (taken : Option NameSet) => ?_)
  cases taken <;> rfl

/-- The end of the wait by a member without a store, in two slots. -/
theorem Members.published_timeOut {m : Members (Except InventoryError Bool)} {a : PluginAnswer}
    (slot : Slot) (h : m.programs[slot.member]? = some (Inventory.timeOut storelessSettings a).run) :
    (m.after [slot, slot]).world.published =
      m.world.published ++
        if ((slot.enter m.world).awaited? a.key).isSome then [storelessReport a] else [] := by
  have hlt : slot.member < m.programs.length := (List.getElem?_eq_some_iff.1 h).1
  rw [timeOut_storeless] at h
  have hfirst := turn_of_asked h
  have hreply : (World.reply slot.circumstances (.pending (.take a.key)) (slot.enter m.world)).1 =
      (slot.enter m.world).awaited? a.key := rfl
  rw [hreply] at hfirst
  rw [after, List.foldl_cons, List.foldl_cons, List.foldl_nil]
  cases hawaited : (slot.enter m.world).awaited? a.key with
  | none =>
      rw [hawaited] at hfirst
      have hidle : (m.turn slot).turn slot = m.turn slot := by
        refine turn_idle fun r next => ?_
        rw [hfirst, List.getElem?_set_self hlt]
        simp
      rw [hidle, hfirst]
      exact (List.append_nil _).symm
  | some plugins =>
      rw [hawaited] at hfirst
      have hasked : (m.turn slot).programs[slot.member]? =
          some (.ask (.publish (storelessReport a)) fun _ => .done (.ok true)) := by
        rw [hfirst]
        exact List.getElem?_set_self hlt
      rw [published_of_publish hasked, hfirst]
      rfl

/-- The second subscription is forwarded to no plugin; then the wait for the first one ends. -/
def forwardThenEnd (s s' : String × String) : List Consolidation.Call :=
  [.forward storelessSettings s'.1 s'.2 [], .timeOut storelessSettings (bareAnswer s)]

def forwardThenEndSlots : List Slot :=
  [⟨0, 0, none⟩, ⟨1, 0, none⟩, ⟨1, 0, none⟩]

/-- The members once the second subscription was forwarded. -/
def onceForwarded (s s' : String × String) : Members (Except InventoryError Bool) :=
  (Members.making (forwardThenEnd s s') .empty).turn ⟨0, 0, none⟩

theorem held?_onceForwarded (s s' : String × String) :
    (onceForwarded s s').world.held? (subscriptionKey s'.1 s'.2) =
      some (.startingAt 0 (.ofNames []) (some storelessSettings.config.pendingLife)) :=
  World.held?_put

theorem not_keepsAwaited_of_key_eq {s s' : String × String}
    (h : subscriptionKey s.1 s.2 = subscriptionKey s'.1 s'.2) : ¬ KeepsAwaited s s' := by
  intro hkeeps
  have hsame := hkeeps (forwardThenEnd s s') .empty [] ⟨0, 0, none⟩ (decide_eq_true rfl)
  rw [h] at hsame
  cases hsame.symm.trans (held?_onceForwarded s s')

/-- With the forwarding of the second subscription a report on the first one is published. -/
theorem reportsOn_forwardThenEnd {s s' : String × String}
    (h : subscriptionKey s.1 s.2 = subscriptionKey s'.1 s'.2) :
    ((Members.making (forwardThenEnd s s') .empty).after forwardThenEndSlots).world.reportsOn s =
      [storelessReport (bareAnswer s)] := by
  have hawaited := World.awaited?_of_held? (held?_onceForwarded s s') rfl
  rw [← h] at hawaited
  have hended := Members.published_timeOut (m := onceForwarded s s') (a := bareAnswer s) ⟨1, 0, none⟩ rfl
  have hsome : ((Slot.enter ⟨1, 0, none⟩ (onceForwarded s s').world).awaited?
      (bareAnswer s).key).isSome = true := congrArg Option.isSome hawaited
  rw [if_pos hsome] at hended
  refine (congrArg (List.filter (Published.reportsOn s)) hended).trans ?_
  exact List.filter_cons_of_pos (decide_eq_true rfl)

/-- Without it there is none. -/
theorem reportsOn_end (s s' : String × String) :
    ((Members.making (forwardThenEnd s s') .empty).after
      (slotsWithout (forwardThenEnd s s') s' forwardThenEndSlots)).world.reportsOn s = [] := by
  have hkept : slotsWithout (forwardThenEnd s s') s' forwardThenEndSlots =
      if s = s' then [] else [⟨1, 0, none⟩, ⟨1, 0, none⟩] := by
    by_cases hs : s = s' <;>
      simp [slotsWithout, forwardThenEndSlots, Slot.isAbout, forwardThenEnd,
        Consolidation.Call.subscription, bareAnswer, hs]
  rw [hkept]
  split
  · rfl
  · have hended := Members.published_timeOut (m := Members.making (forwardThenEnd s s') .empty)
      (a := bareAnswer s) ⟨1, 0, none⟩ rfl
    rw [World.reportsOn, hended]
    rfl

theorem not_keepsReports_of_key_eq {s s' : String × String}
    (h : subscriptionKey s.1 s.2 = subscriptionKey s'.1 s'.2) : ¬ KeepsReports s s' := by
  intro hkeeps
  have hsame := hkeeps (forwardThenEnd s s') .empty forwardThenEndSlots
  rw [reportsOn_forwardThenEnd h, reportsOn_end] at hsame
  cases hsame

/-- Calls about one subscription keep out of what is awaited for another one, and of the reports on it,
just if the keys of the two differ. -/
theorem independent_iff_key_ne (s s' : String × String) :
    (KeepsAwaited s s' ↔ subscriptionKey s.1 s.2 ≠ subscriptionKey s'.1 s'.2) ∧
      (KeepsReports s s' ↔ subscriptionKey s.1 s.2 ≠ subscriptionKey s'.1 s'.2) :=
  ⟨⟨fun hkeeps h => not_keepsAwaited_of_key_eq h hkeeps, keepsAwaited_of_key_ne⟩,
    ⟨fun hkeeps h => not_keepsReports_of_key_eq h hkeeps, keepsReports_of_key_ne⟩⟩

theorem dependent_of_split_name :
    ("a", "bc") ≠ ("ab", "c") ∧ ¬ KeepsAwaited ("a", "bc") ("ab", "c") ∧
      ¬ KeepsReports ("a", "bc") ("ab", "c") := by
  have hkey : subscriptionKey "a" "bc" = subscriptionKey "ab" "c" := rfl
  rcases independent_iff_key_ne ("a", "bc") ("ab", "c") with ⟨hawaited, hreports⟩
  exact ⟨by decide, fun h => hawaited.1 h hkey, fun h => hreports.1 h hkey⟩

end CmInventory
