import CmInventory.Proofs.Consolidation.Rules
import CmInventory.Proofs.Program.Recorded

/-!
# Calls of the consolidation

What members do for subscriptions, as data: they note that a subscription was forwarded, take in an answer,
or end the wait for answers. Each call is a program of its own; a member that makes several of them one
after the other, or at once, is as many programs as it makes calls, so that a list of calls stands for any
number of members.

A call is judged by its record (`Consolidation.Call.May`). What matters is that it publishes a report only
after it took the entry of the subscription, once for each entry, and that an answer publishes only after
it struck off the last plugin.
-/

namespace CmInventory

open Inventory

/-- A call of a member with the given settings. -/
inductive Consolidation.Call
  | forward (settings : Consolidation) (clientId subscriptionName : String) (plugins : List String)
  | answer (settings : Consolidation) (a : PluginAnswer)
  | timeOut (settings : Consolidation) (standIn : PluginAnswer)

namespace Consolidation.Call

/-- The client and the name of the subscription that a call is about. -/
def subscription : Call → String × String
  | .forward _ clientId subscriptionName _ => (clientId, subscriptionName)
  | .answer _ a | .timeOut _ a => (a.clientId, a.subscriptionName)

/-- The key of the subscription that a call is about. -/
def key (x : Call) : String :=
  subscriptionKey x.subscription.1 x.subscription.2

/-- The program of a call, which tells whether a report was published. -/
def program : Call → Program (Except InventoryError Bool)
  | .forward settings clientId subscriptionName plugins => do
      Inventory.forward settings clientId subscriptionName plugins
      return .ok false
  | .answer settings a => (Inventory.answer settings a).run
  | .timeOut settings a => (Inventory.timeOut settings a).run

end Consolidation.Call

/-- Settings of a member without a store. -/
def storelessSettings : Consolidation :=
  ⟨.standard, false, "outcomes"⟩

/-- An answer to a subscription that finds nothing to report. -/
def bareAnswer (s : String × String) : PluginAnswer :=
  ⟨s.1, s.2, "plugin", "subscriptionCreated", []⟩

/-! ## What is asked for -/

/-- Whether a request notes that a subscription with the key was forwarded. -/
def Request.forwards (key : String) : Request → Bool
  | .pending (.put k _ _) => k = key
  | _ => false

/-- Whether an event is a report under the key. -/
def Published.isReport (key : String) (p : Published) : Bool :=
  p.key = key && p.event.kind = .outcome

/-- Whether a request publishes a report under the key. -/
def Request.reportsOn (key : String) : Request → Bool
  | .publish p => p.isReport key
  | _ => false

theorem Request.publishes_of_reportsOn {key : String} {r : Request} (h : r.reportsOn key = true) :
    ∃ p, r = .publish p ∧ p.key = key := by
  cases r with
  | publish p =>
      rw [reportsOn, Published.isReport, Bool.and_eq_true, decide_eq_true_eq] at h
      exact ⟨p, rfl, h.1⟩
  | _ => cases h

namespace Exchange

/-- Whether an entry was taken out under the key. -/
def takes (key : String) : Exchange → Bool
  | ⟨.pending (.take k), reply⟩ => k = key && reply.isSome
  | _ => false

/-- Whether the last plugin was struck off under the key. -/
def empties (key : String) : Exchange → Bool
  | ⟨.pending (.strike k _ _), some left⟩ => k = key && left.isEmpty
  | _ => false

theorem strikes_of_empties {key : String} {e : Exchange} (h : e.empties key = true) :
    ∃ plugin life left, e = ⟨.pending (.strike key plugin life), some left⟩ ∧ left.isEmpty = true := by
  unfold empties at h
  split at h
  · rw [Bool.and_eq_true, decide_eq_true_eq] at h
    rcases h with ⟨rfl, hempty⟩
    exact ⟨_, _, _, rfl, hempty⟩
  · cases h

end Exchange

namespace Consolidation.Call

/-- What a call may ask for in the light of its record. -/
def May (x : Call) : Request → List Exchange → Prop
  | .pending (.put key plugins _), _ => ∃ settings clientId subscriptionName names,
      x = .forward settings clientId subscriptionName names ∧
        subscriptionKey clientId subscriptionName = key ∧ plugins = .ofNames names
  | .pending (.strike key plugin _), _ => ∃ settings a,
      x = .answer settings a ∧ a.key = key ∧ a.plugin = plugin
  | .publish p, past =>
      (past.countP fun e => e.request.reportsOn p.key) < past.countP (Exchange.takes p.key) ∧
        ((∃ settings a, x = .answer settings a) → ∃ e ∈ past, e.empties p.key = true)
  | _, _ => True

theorem may_report {settings : Consolidation} {a : PluginAnswer} {eventType : String}
    {statuses : List DeviceStatus} {x : Call} {past : List Exchange}
    (hreports : (past.countP fun e => e.request.reportsOn a.key) = 0)
    (htakes : ∃ e ∈ past, e.takes a.key = true)
    (hempties : (∃ settings a, x = .answer settings a) → ∃ e ∈ past, e.empties a.key = true) :
    (report settings a eventType statuses).Ensures (.recorded x.May) (fun _ _ => True) past := by
  refine recorded_request ⟨?_, hempties⟩ fun _ => trivial
  rw [hreports]
  exact List.countP_pos_iff.2 htakes

/-- The record of an answer once its plugin was struck off. -/
structure Struck (key : String) (left : Option NameSet) (past : List Exchange) : Prop where
  unreported : (past.countP fun e => e.request.reportsOn key) = 0
  emptied : ∀ awaited, left = some awaited → awaited.isEmpty = true →
    ∃ e ∈ past, e.empties key = true

/-- A call of the store changes nothing in what is known of a subscription. -/
theorem Struck.store {key : String} {left : Option NameSet} {past : List Exchange} {x : Call}
    {call : StoreCall} (h : Struck key left past) (hmay : x.May (.store call) past) :
    (Action.store call).run.Ensures (.recorded x.May)
      (Action.Keeps (Struck key left) fun _ _ => True) past := by
  rw [Action.run_store, Program.ensures_bind]
  refine recorded_request hmay fun reply => ?_
  rw [Program.ensures_done]
  cases reply with
  | error e => exact trivial
  | ok _ =>
      refine ⟨?_, ?_⟩
      · rw [List.countP_append, h.unreported]
        rfl
      · intro awaited hleft hempty
        rcases h.emptied awaited hleft hempty with ⟨e, he, hempties⟩
        exact ⟨e, List.mem_append_left _ he, hempties⟩

theorem may_program (x : Call) :
    x.program.Ensures (.recorded x.May) (fun _ _ => True) [] := by
  cases x with
  | forward settings clientId subscriptionName plugins =>
      rw [program, Inventory.forward, Program.ensures_bind]
      exact recorded_request ⟨_, _, _, _, rfl, rfl, rfl⟩ fun _ => trivial
  | answer settings a =>
      refine ensures_answer (Struck a.key) ?_ ?_ ?_ ?_ ?_
      · refine recorded_request ⟨_, _, rfl, rfl, rfl⟩ fun left => ⟨rfl, ?_⟩
        rintro awaited rfl hempty
        refine ⟨_, List.mem_singleton.2 rfl, ?_⟩
        simpa [Exchange.empties] using hempty
      · exact fun _ _ _ h => h.store trivial
      · exact fun _ _ _ => trivial
      · exact fun _ _ _ h => h.store trivial
      · intro awaited past hempty h
        refine recorded_request trivial fun taken => ?_
        cases taken with
        | none => exact trivial
        | some plugins =>
            intro statuses
            refine may_report ?_ ⟨_, List.mem_append_right _ (List.mem_singleton.2 rfl), ?_⟩ ?_
            · rw [List.countP_append, h.unreported]
              rfl
            · simp [Exchange.takes]
            · intro _
              rcases h.emptied awaited rfl hempty with ⟨e, he, hempties⟩
              exact ⟨e, List.mem_append_left _ he, hempties⟩
  | timeOut settings a =>
      -- The record says that the entry was taken, and that nothing was reported.
      refine ensures_timeOut (fun past =>
        (past.countP fun e => e.request.reportsOn a.key) = 0 ∧ ∃ e ∈ past, e.takes a.key = true)
        ?_ ?_ ?_
      · refine recorded_request trivial fun taken => ?_
        cases taken with
        | none => exact trivial
        | some plugins => exact ⟨rfl, _, List.mem_singleton.2 rfl, by simp [Exchange.takes]⟩
      · rintro _ past ⟨hreports, e, he, htakes⟩
        rw [Action.run_store, Program.ensures_bind]
        refine recorded_request trivial fun reply => ?_
        rw [Program.ensures_done]
        cases reply with
        | error e => exact trivial
        | ok _ =>
            refine ⟨?_, e, List.mem_append_left _ he, htakes⟩
            rw [List.countP_append, hreports]
            rfl
      · rintro statuses past ⟨hreports, htakes⟩
        refine may_report hreports htakes ?_
        rintro ⟨_, _, h⟩
        cases h

end Consolidation.Call
end CmInventory
