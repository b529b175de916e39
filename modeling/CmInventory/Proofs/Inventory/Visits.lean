import CmInventory.Proofs.Inventory.Picks
import CmInventory.Proofs.Inventory.Views
import CmInventory.Proofs.Program.Courses

/-!
# What a visit comes to

A visit to a handle depends on the record of the handle, on its marker and on what its plugin answers, and on
nothing else. `Fates.visit` says what it makes of the view of the handle and how the report counts it, and the
work of both kinds is shown to do just that (`visits_syncData`, `visits_syncModules`).
-/

namespace CmInventory

open Inventory

/-! ## Verdicts -/

/-- How a visit is counted. -/
inductive Verdict
  | synchronized
  | skipped
  | failed
  deriving DecidableEq

def Verdict.of : Except InventoryError Unit → Verdict
  | .ok () => .synchronized
  | .error (.alreadyProcessing _) | .error (.dataSyncDisabled _) => .skipped
  | .error _ => .failed

namespace CycleReport

variable {vs ws : List Verdict}

/-- The report of visits. -/
def ofVerdicts (vs : List Verdict) : CycleReport :=
  ⟨vs.count .synchronized, vs.count .skipped, vs.count .failed⟩

theorem record_ofVerdicts (result : Except InventoryError Unit) :
    (ofVerdicts vs).record result = ofVerdicts (.of result :: vs) := by
  rcases result with e | _
  · cases e <;> simp [ofVerdicts, record, Verdict.of]
  · simp [ofVerdicts, record, Verdict.of]

/-- Every visit is counted once. -/
theorem sum_ofVerdicts :
    (ofVerdicts vs).synchronized + (ofVerdicts vs).skipped + (ofVerdicts vs).failed = vs.length := by
  induction vs with
  | nil => rfl
  | cons v vs ih => cases v <;> simp [ofVerdicts] at ih ⊢ <;> omega

theorem ofVerdicts_perm (h : vs.Perm ws) : ofVerdicts vs = ofVerdicts ws := by
  rw [ofVerdicts, ofVerdicts, h.count_eq, h.count_eq, h.count_eq]

end CycleReport

/-! ## Visits -/

/-- The event of a move, without its id and its time. -/
def movedEvent (topic : String) (id : HandleId) (old new : Lifecycle) : Published :=
  ⟨topic, id.text, .lifecycle ⟨default, id, some old, new, default⟩⟩

/-- A view after its handle was moved. -/
def View.moved (topic : String) (h : Handle) (target : Lifecycle) (reason : Option LockReason) (v : View) :
    View :=
  { v with
    record := some { h with status := nextStatus h.status target reason default }
    events := v.events ++ [movedEvent topic h.id h.lifecycle target] }

namespace Fates

variable (f : Fates)

/-- The data that come of reading a handle. -/
def data (id : HandleId) : Except InventoryError Json.Value := do
  let reply ← (f.read id).mapError .plugin
  (dataOfReply reply).mapError .plugin

theorem data_of_error {id : HandleId} {e : PluginError} (h : f.read id = .error e) :
    f.data id = .error (.plugin e) := by
  rw [data, h]
  rfl

theorem data_of_reply {id : HandleId} {reply : PluginReply} (h : f.read id = .ok reply) :
    f.data id = (dataOfReply reply).mapError .plugin := by
  rw [data, h]
  rfl

/-- What a visit to a handle that nobody else works on makes of its view, and how it is counted. -/
def visit (topic : String) (h : Handle) (v : View) : SyncKind → Verdict × View
  | .data =>
      if h.status.dataSync then
        match f.data h.id with
        | .ok data =>
            (.synchronized,
              { v with
                record := some { h with status := h.status.markSynchronized default }
                data := some data.render })
        | .error _ => (.failed, v)
      else (.skipped, v)
  | .modules =>
      match f.modules h.id with
      | .ok modules =>
          (.synchronized, ({ v with modules := some (Store.arrange modules) }).moved topic h .ready none)
      | .error e =>
          let reason := h.status.failureReason .moduleSyncFailed e.message
          (.failed, v.moved topic h .locked (some reason))

end Fates

/-! ## Moves -/

theorem timeless_nextStatus (s : HandleStatus) (target : Lifecycle) (reason : Option LockReason)
    (now : Instant) : (nextStatus s target reason now).timeless = nextStatus s.timeless target reason default := by
  rw [nextStatus, nextStatus, HandleStatus.timeless]
  by_cases htarget : target = .ready
  · simp only [if_pos htarget]
    rfl
  · simp only [if_neg htarget]
    rfl

theorem timeless_moved (h : Handle) (target : Lifecycle) (reason : Option LockReason) (now : Instant) :
    Handle.timeless { h with status := nextStatus h.status target reason now } =
      { h.timeless with status := nextStatus h.timeless.status target reason default } := by
  rw [Handle.timeless]
  dsimp only
  rw [timeless_nextStatus]
  rfl

/-! ## All answers of the plugins -/

section

variable {w : World} {f : Fates} {ends : Nat} {α : Type} {p : Program α}

/-- What holds whatever the plugins answer holds if they answer as they are fated to. -/
theorem Program.Ensures.fated {Q : α → World → Prop} (h : p.Ensures .alone Q w) :
    p.Ensures (.fated f ends) Q w := by
  have hany : p.Asks fun _ => True := ensures_trivial fun _ _ => trivial
  refine Ensures.within (t := w) (fun w => w) hany h (fun _ _ _ => trivial) ?_
  rintro r v reply v' - ⟨⟨c, length, hfails, hreply⟩, -⟩
  exact ⟨c, length, fun n call e hc => (hfails n call e hc).elim, hreply⟩

theorem fated_request {r : Request} {Q : r.Reply → World → Prop}
    (h : ∀ reply w', f.Answers ends r w reply w' → Q reply w') :
    (Program.request r).Ensures (.fated f ends) Q w :=
  ⟨trivial, h⟩

/-- A call of the store is performed. -/
theorem fated_call {call : StoreCall} {Q : Except StoreError call.Answer → World → Prop}
    (h : ∀ reply w', w'.published = w.published → (reply, w'.store) = w.store.perform call → Q reply w') :
    (Program.store call).Ensures (.fated f ends) Q w := by
  refine fated_request fun reply w' hans => ?_
  rcases World.Answers.store hans.1 with ⟨hpub, ⟨e, hfails, -⟩ | hperform⟩
  · exact hfails.elim
  · exact h reply w' hpub hperform

end

namespace Inventory

variable {w : World} {topic : String} {f : Fates} {ends : Nat} {α : Type}

/-- What a move that can be made leaves of the views. -/
structure MovedView (topic : String) (h : Handle) (target : Lifecycle) (reason : Option LockReason)
    (w w' : World) : Prop where
  sound : w'.store.Sound
  own : (w'.view h.id).timeless = ((w.view h.id).timeless).moved topic h.timeless target reason
  others : ∀ id, h.id ≠ id → w'.view id = w.view id

/-- A move that can be made is made and announced. -/
theorem ensures_entry {snapshot h : Handle} {target : Lifecycle} {reason : Option LockReason}
    (hs : w.store.Sound) (hid : snapshot.id = h.id) (hr : w.store.record? h.id = some h)
    (ht : target ≠ .deleted) (hne : h.lifecycle ≠ target) (hcan : h.lifecycle.canMoveTo target = true)
    (hreason : nextReason snapshot h.status target = .ok reason) :
    (applyEntry topic snapshot target).Ensures .alone (fun result w' =>
      result = ⟨[h.id], [], []⟩ ∧ MovedView topic h target reason w w') w := by
  have honly : ∀ g, w.store.record? snapshot.id = some g → g = h := by
    intro g hg
    rw [hid, hr, Option.some.injEq] at hg
    exact hg.symm
  refine ensures_applyEntry_of (ensures_move hs ht) ?failed ?stays ?moved
  case failed =>
    -- There is a reason, if one is needed.
    intro e w₁ hmoved
    rcases (hmoved.2 h (hid ▸ hr)).2 hcan with ⟨e', hfails⟩
    rw [hreason] at hfails
    cases hfails
  case stays =>
    -- The handle is not there yet.
    intro w₁ hmoved
    rcases hmoved.2 with ⟨g, hg, hlife⟩
    exact absurd (honly g hg ▸ hlife) hne
  case moved =>
    rintro old w₁ ⟨hpub, g, reason', now, hg, hold, -, -, hreason', hstore⟩
    obtain rfl := honly g hg
    rw [hreason, Except.ok.injEq] at hreason'
    subst hreason'
    subst hold
    refine ensures_announced.mono ?_
    rintro _ w₂ ⟨hstore₂, eventId, timestamp, hpub₂⟩
    rw [hid] at hpub₂
    have hview : ∀ id, w₂.view id = if g.id = id then
        { w.view id with
          record := some { g with status := nextStatus g.status target reason now }
          events := (w.view id).events ++ [⟨topic, g.id.text, .lifecycle
            ⟨eventId, g.id, some g.lifecycle, target, timestamp⟩⟩] }
        else w.view id :=
      fun id => view_of_put (hstore₂.trans hstore) (hpub₂.trans (by rw [hpub])) (by simp [Published.handleId?])
    refine ⟨by rw [hid], ?_, ?_, ?_⟩
    · rw [hstore₂, hstore]
      exact hs.putHandle _
    · rw [hview, if_pos rfl, View.moved, View.timeless, View.timeless, List.map_append, Option.map_some,
        timeless_moved]
      rfl
    · intro id hother
      rw [hview, if_neg hother]

theorem ensures_commit_of_move {snapshot h : Handle} {target : Lifecycle} {reason : Option LockReason}
    (hs : w.store.Sound) (hid : snapshot.id = h.id) (hr : w.store.record? h.id = some h)
    (ht : target ≠ .deleted) (hne : h.lifecycle ≠ target) (hcan : h.lifecycle.canMoveTo target = true)
    (hreason : nextReason snapshot h.status target = .ok reason) :
    (commit topic snapshot target).run.Ensures .alone (fun result w' =>
      result = .ok () ∧ MovedView topic h target reason w w') w := by
  have hbatch : (applyBatch topic [(snapshot, target)]).Ensures .alone (fun result w' =>
      result.failed = [] ∧ MovedView topic h target reason w w') w := by
    rw [applyBatch]
    refine (ensures_entry hs hid hr ht hne hcan hreason).bind ?_
    rintro _ w₁ ⟨rfl, hmoved⟩
    exact ⟨rfl, hmoved⟩
  rw [commit, Action.ensures_bind, Action.run_lift]
  refine hbatch.bind ?_
  rintro result w₁ ⟨hnone, hmoved⟩
  rw [Program.ensures_done, Action.goes_ok, hnone]
  exact ⟨rfl, hmoved⟩

/-! ## Work -/

/-- The note that the data of a ready handle are in step. -/
theorem visits_markSynchronized {h : Handle} (hs : w.store.Sound) (hr : w.store.record? h.id = some h)
    (hready : h.lifecycle = .ready) :
    (markSynchronized h.id).run.Ensures (.fated f ends) (fun result w' => result = .ok () ∧
      (w'.view h.id).timeless = { (w.view h.id).timeless with
        record := some { h.timeless with status := h.timeless.status.markSynchronized default } }) w := by
  refine (ensures_markSynchronized hs).fated.mono ?_
  rintro (e | _) w' hnoted
  · exact absurd hready (hnoted.2 h hr)
  · rcases hnoted with ⟨hpub, g, now, hg, -, hstore⟩
    rw [hr, Option.some.injEq] at hg
    subst hg
    rw [view_of_write hstore hpub, if_pos rfl]
    exact ⟨rfl, rfl⟩

/-- Data that were read are saved before the note. -/
theorem visits_saveData {h : Handle} {data : Json.Value} (hs : w.store.Sound)
    (hr : w.store.record? h.id = some h) (hready : h.lifecycle = .ready) :
    (Action.store (.saveData h.id data) >>= fun _ => markSynchronized h.id).run.Ensures (.fated f ends)
      (fun result w' => result = .ok () ∧ (w'.view h.id).timeless = { (w.view h.id).timeless with
        record := some { h.timeless with status := h.timeless.status.markSynchronized default }
        data := some data.render }) w := by
  rw [Action.ensures_bind, Action.run_store, Program.ensures_bind]
  refine fated_call fun reply w₁ hpub hperform => ?_
  rcases Prod.mk.inj hperform with ⟨rfl, hstore⟩
  have hs₁ : w₁.store.Sound := hstore ▸ hs.perform (.saveData h.id data)
  have hr₁ : w₁.store.record? h.id = some h := hstore ▸ hr
  have hview : w₁.view h.id = { w.view h.id with data := some data.render } := by
    rw [World.view, World.view, hstore, hpub, Store.saveData]
    dsimp only
    rw [Dictionary.find?_insert, if_pos rfl]
    rfl
  rw [Program.ensures_done]
  change (markSynchronized h.id).run.Ensures _ _ w₁
  refine (visits_markSynchronized hs₁ hr₁ hready).mono ?_
  rintro result w' ⟨rfl, hafter⟩
  rw [hafter, hview]
  exact ⟨rfl, rfl⟩

/-- A visit to read data does what it is fated to do. -/
theorem visits_syncData {h : Handle} (hs : w.store.Sound) (hr : w.store.record? h.id = some h)
    (hready : h.lifecycle = .ready) :
    (syncData h).run.Ensures (.fated f ends) (fun result w' =>
      (Verdict.of result, (w'.view h.id).timeless) =
        f.visit topic h.timeless (w.view h.id).timeless .data) w := by
  rw [syncData]
  by_cases hwanted : h.status.dataSync = true
  · have hvisit : f.visit topic h.timeless (w.view h.id).timeless .data = _ := if_pos hwanted
    rw [hvisit, if_pos hwanted, Action.ensures_bind, Action.run_plugin, Program.ensures_bind]
    refine fated_request fun reply w₁ hans => ?_
    have hquiet : (Request.plugin (.read h rootResource .operational)).IsQuiet := trivial
    rcases World.Answers.quiet hquiet hans.1 with ⟨hstore, hpub⟩
    have hreply : f.read h.timeless.id = reply := Eq.symm hans.2.1
    rw [← view_congr hstore hpub]
    rw [← hstore] at hs hr
    cases reply with
    | error e =>
        rw [f.data_of_error hreply]
        rfl
    | ok reply =>
        rw [f.data_of_reply hreply]
        change Action.Goes _ _ _ (.ok reply) w₁
        rw [Action.goes_ok, Action.ensures_bind, Action.run_ofExcept]
        -- What the plugin read may still be no data.
        cases dataOfReply reply with
        | error e => rfl
        | ok data =>
            refine (visits_saveData hs hr hready).mono ?_
            rintro result w' ⟨rfl, hafter⟩
            rw [hafter]
            rfl
  · have hvisit : f.visit topic h.timeless (w.view h.id).timeless .data = _ := if_neg hwanted
    rw [if_neg hwanted, hvisit]
    rfl

/-- A visit to ask for modules does what it is fated to do. -/
theorem visits_syncModules {h : Handle} (hs : w.store.Sound) (hr : w.store.record? h.id = some h)
    (hadvised : h.lifecycle = .advised) :
    (syncModules topic h).run.Ensures (.fated f ends) (fun result w' =>
      (Verdict.of result, (w'.view h.id).timeless) =
        f.visit topic h.timeless (w.view h.id).timeless .modules) w := by
  rw [syncModules, Action.ensures_bind, Action.run_lift, Program.ensures_bind]
  refine fated_request fun reply w₁ hans => ?_
  have hquiet : (Request.plugin (.modules h)).IsQuiet := trivial
  rcases World.Answers.quiet hquiet hans.1 with ⟨hstore, hpub⟩
  have hreply : f.modules h.timeless.id = reply := Eq.symm hans.2.1
  rw [Fates.visit, hreply, ← view_congr hstore hpub]
  rw [← hstore] at hs hr
  change Action.Goes _ _ _ (.ok reply) w₁
  rw [Action.goes_ok]
  cases reply with
  | ok modules =>
      rw [Action.ensures_bind, Action.run_store, Program.ensures_bind]
      refine fated_call fun reply w₂ hpub₂ hperform => ?_
      rcases Prod.mk.inj hperform with ⟨rfl, hstore₂⟩
      have hs₂ : w₂.store.Sound := hstore₂ ▸ hs.perform (.saveModules h.id modules)
      have hr₂ : w₂.store.record? h.id = some h := hstore₂ ▸ hr
      have hview : w₂.view h.id = { w₁.view h.id with modules := some (Store.arrange modules) } := by
        rw [World.view, World.view, hstore₂, hpub₂, Store.saveModules]
        dsimp only
        rw [Dictionary.find?_insert, if_pos rfl]
        rfl
      -- The move leaves the modules that were saved as they are.
      change (commit topic h .ready).run.Ensures _ _ w₂
      have hcommit : (commit topic h .ready).run.Ensures .alone (fun result w' =>
          result = .ok () ∧ MovedView topic h .ready none w₂ w') w₂ :=
        ensures_commit_of_move hs₂ rfl hr₂ (by decide) (by rw [hadvised]; decide) (by rw [hadvised]; rfl) rfl
      refine hcommit.fated.mono ?_
      rintro result w' ⟨rfl, hmoved⟩
      rw [hmoved.own, hview]
      rfl
  | error e =>
      rw [Action.ensures_bind]
      have hcommit : (commit topic (withFailure h e) .locked).run.Ensures .alone (fun result w' =>
          result = .ok () ∧ MovedView topic h .locked
            (some (h.status.failureReason .moduleSyncFailed e.message)) w₁ w') w₁ :=
        ensures_commit_of_move hs rfl hr (by decide) (by rw [hadvised]; decide) (by rw [hadvised]; rfl) rfl
      refine hcommit.fated.mono ?_
      rintro result w' ⟨rfl, hmoved⟩
      change (Verdict.failed, (w'.view h.id).timeless) = _
      rw [hmoved.own]
      rfl

end Inventory
end CmInventory
