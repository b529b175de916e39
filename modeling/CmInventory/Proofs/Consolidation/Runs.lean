import CmInventory.Proofs.Consolidation.Calls
import CmInventory.Proofs.Consolidation.Rules
import CmInventory.Proofs.Coordination.Awaited
import CmInventory.Proofs.Store.Statuses

/-!
# The consolidation run alone

A member that answers one request after the other runs the operations of the consolidation by themselves.
How such a run ends is said once, with what the report is made of: `World.AnswerEnds` for an answer,
`World.WaitEnds` for the end of the wait. What it makes of the world is then said in terms of what was
awaited before it: `World.AnswerLeaves` and `World.TimedOut`. Neither operation takes time, and neither
touches what is held under other keys.
-/

namespace CmInventory

open Inventory

/-- Circumstances in which no call of the store fails for reasons of the store. -/
def Circumstances.Reliable (c : Circumstances) : Prop :=
  ∀ n call, c.storeFailure n call = none

theorem World.reliable_undisturbed : undisturbed.Reliable :=
  fun _ _ => rfl

/-- The report of the statuses of devices. -/
def PluginAnswer.report (a : PluginAnswer) (eventType : String) (statuses : List DeviceStatus) :
    OutcomeReport :=
  ⟨a.clientId, a.subscriptionName, eventType, .classify statuses, statuses⟩

namespace Consolidation

/-- The event that reports the statuses of devices. -/
def reported (c : Consolidation) (a : PluginAnswer) (eventType : String)
    (statuses : List DeviceStatus) : Published :=
  ⟨c.topic, a.key, .outcome (a.report eventType statuses)⟩

/-- What a report is made of: the statuses in the store, or those of the answer. -/
def Finds (c : Consolidation) (a : PluginAnswer) (s : Store) (statuses : List DeviceStatus) : Prop :=
  if c.isStored then s.statusesOf a.clientId a.subscriptionName = .ok statuses
  else statuses = a.statuses

theorem finds_stored {c : Consolidation} {a : PluginAnswer} {s : Store} {statuses : List DeviceStatus}
    (hstored : c.isStored = true) :
    c.Finds a s statuses ↔ s.statusesOf a.clientId a.subscriptionName = .ok statuses := by
  rw [Finds, if_pos hstored]

theorem finds_unstored {c : Consolidation} {a : PluginAnswer} {s : Store} {statuses : List DeviceStatus}
    (hstored : c.isStored = false) : c.Finds a s statuses ↔ statuses = a.statuses := by
  rw [Finds, if_neg (by simp [hstored])]

theorem isReport_reported (c : Consolidation) (a : PluginAnswer) (eventType : String)
    (statuses : List DeviceStatus) : (c.reported a eventType statuses).isReport a.key = true := by
  simp [reported, Published.isReport, Event.kind]

end Consolidation

namespace World

/-! ## Worlds that have kept something -/

/-- What is kept and published for subscriptions is as it was, but for statuses in the store. -/
structure Rests (w w' : World) : Prop where
  time : w'.time = w.time
  pending : w'.pending = w.pending
  published : w'.published = w.published
  readable : w.store.Readable → w'.store.Readable

/-- No time has passed, and what is held under other keys is as it was. -/
structure TouchedAt (key : String) (w w' : World) : Prop where
  time : w'.time = w.time
  held : ∀ k, k ≠ key → w'.held? k = w.held? k
  readable : w.store.Readable → w'.store.Readable

variable {key : String} {w w' w'' : World} {c : Circumstances}

theorem Rests.touchedAt (h : Rests w w') : TouchedAt key w w' := by
  refine ⟨h.time, ?_, h.readable⟩
  intro k _
  rw [held?, held?, h.pending]

theorem TouchedAt.refl (key : String) (w : World) : TouchedAt key w w :=
  ⟨rfl, fun _ _ => rfl, fun h => h⟩

theorem TouchedAt.trans (h : TouchedAt key w w') (h' : TouchedAt key w' w'') :
    TouchedAt key w w'' :=
  ⟨h'.time.trans h.time, fun k hk => (h'.held k hk).trans (h.held k hk),
    fun hr => h'.readable (h.readable hr)⟩

theorem touchedAt_pending (c : Circumstances) (call : PendingCall) (w : World) :
    TouchedAt call.key w (reply c (.pending call) w).2 := by
  rcases w.nextTurn.callPending_rest call with ⟨hstore, htime, -⟩
  refine ⟨htime, ?_, ?_⟩
  · intro k hk
    exact held?_callPending (w := w.nextTurn) fun hsame => hk hsame.symm
  · intro hr
    change (w.nextTurn.callPending call).2.store.Readable
    rwa [hstore]

/-- The calls of the store that the consolidation makes leave everything else as it is. -/
theorem rests_saveAnswer (c : Circumstances) (a : PluginAnswer) (w : World) :
    Rests w (reply c (.store (.saveAnswer a)) w).2 := by
  rw [reply]
  cases c.storeFailure w.turn (.saveAnswer a) with
  | some e => exact ⟨rfl, rfl, rfl, fun h => h⟩
  | none => exact ⟨rfl, rfl, rfl, fun h => h.saveAnswer a⟩

theorem rests_statuses (c : Circumstances) (clientId subscriptionName : String) (w : World) :
    Rests w (reply c (.store (.statuses clientId subscriptionName)) w).2 := by
  rw [reply]
  cases c.storeFailure w.turn (.statuses clientId subscriptionName) with
  | some e => exact ⟨rfl, rfl, rfl, fun h => h⟩
  | none => exact ⟨rfl, rfl, rfl, fun h => h⟩

theorem reply_statuses (hc : c.Reliable) (hr : w.store.Readable) (clientId subscriptionName : String) :
    ∃ statuses, (reply c (.store (.statuses clientId subscriptionName)) w).1 = .ok statuses := by
  rw [reply, hc]
  exact hr.statusesOf clientId subscriptionName

/-! ## What a run makes of the world -/

/-- A report was published under a key, and nothing else. -/
def Reports (key : String) (w w' : World) : Prop :=
  ∃ p : Published, p.isReport key = true ∧ w'.published = w.published ++ [p]

/-- The entry of a key was taken out. -/
structure Taken (key : String) (w w' : World) : Prop where
  touched : TouchedAt key w w'
  held : w'.held? key = none
  published : w'.published = w.published

theorem TouchedAt.taken (h : TouchedAt key w w') (hpublished : w'.published = w.published)
    (c : Circumstances) : Taken key w (reply c (.pending (.take key)) w').2 :=
  ⟨h.trans (touchedAt_pending c (.take key) w'), (w'.nextTurn.take_cases key).2,
    ((w'.nextTurn.callPending_rest (.take key)).2.2).trans hpublished⟩

theorem Taken.rests (h : Taken key w w') (h' : Rests w' w'') : Taken key w w'' := by
  refine ⟨h.touched.trans h'.touchedAt, ?_, h'.published.trans h.published⟩
  rw [held?, h'.pending]
  exact h.held

/-- What the end of the wait leaves: nothing is held, and if something was awaited a report was published,
unless the store failed. -/
structure TimedOut (c : Circumstances) (key : String) (w w' : World) : Prop where
  touched : TouchedAt key w w'
  held : w'.held? key = none
  published : (w'.published = w.published ∧
      (w.awaited? key = none ∨ ¬ (c.Reliable ∧ w.store.Readable))) ∨
    (w.awaited? key ≠ none ∧ Reports key w w')

/-- What an answer leaves under its key. -/
inductive AnswerLeaves (life : Interval) (key plugin : String) (w w' : World) : Prop
  | absent (before : w.awaited? key = none) (held : w'.held? key = none)
      (published : w'.published = w.published)
  | waiting {awaited : NameSet} (before : w.awaited? key = some awaited)
      (held : w'.held? key = some (.startingAt w.time (awaited.without plugin) (some life)))
      (published : w'.published = w.published)
  | complete {awaited : NameSet} (before : w.awaited? key = some awaited)
      (last : (awaited.without plugin).isEmpty = true) (held : w'.held? key = none)
      (reports : Reports key w w')
  /-- The entry expired as soon as the plugin was struck off. -/
  | expired (lifeless : life.nanos = 0) (held : w'.held? key = none)
      (published : w'.published = w.published)

/-- What is left of an answer once its plugin was struck off. -/
structure Struck (life : Interval) (key plugin : String) (w : World) (left : Option NameSet)
    (w' : World) : Prop where
  touched : TouchedAt key w w'
  published : w'.published = w.published
  held : (left = none ∧ w.awaited? key = none ∧ w'.held? key = none) ∨
    ∃ awaited, left = some (awaited.without plugin) ∧ w.awaited? key = some awaited ∧
      w'.held? key = some (.startingAt w.time (awaited.without plugin) (some life))

variable {life : Interval} {plugin : String} {left : Option NameSet}

theorem struck (c : Circumstances) (life : Interval) (key plugin : String) (w : World) :
    Struck life key plugin w (reply c (.pending (.strike key plugin life)) w).1
      (reply c (.pending (.strike key plugin life)) w).2 := by
  refine ⟨touchedAt_pending c (.strike key plugin life) w,
    (w.nextTurn.callPending_rest (.strike key plugin life)).2.2, ?_⟩
  rcases w.nextTurn.strike_cases key plugin life with
    ⟨awaited, hbefore, hreply, hafter⟩ | ⟨hbefore, hreply, hafter⟩
  · exact Or.inr ⟨awaited, hreply, hbefore, hafter⟩
  · exact Or.inl ⟨hreply, hbefore, hafter⟩

theorem Struck.rests (h : Struck life key plugin w left w') (h' : Rests w' w'') :
    Struck life key plugin w left w'' := by
  refine ⟨h.touched.trans h'.touchedAt, h'.published.trans h.published, ?_⟩
  rw [held?, h'.pending]
  exact h.held

/-- An answer that goes no further leaves what its strike left. -/
theorem Struck.leaves (h : Struck life key plugin w left w') :
    AnswerLeaves life key plugin w w' := by
  rcases h.held with ⟨-, hbefore, hheld⟩ | ⟨awaited, -, hbefore, hheld⟩
  · exact .absent hbefore hheld h.published
  · exact .waiting hbefore hheld h.published

/-- What was just struck is still awaited, if entries live at all. -/
theorem Struck.lifeless (h : Struck life key plugin w left w') (hleft : left ≠ none)
    (hgone : w'.awaited? key = none) : life.nanos = 0 := by
  rcases h.held with ⟨hnone, -⟩ | ⟨awaited, -, -, hheld⟩
  · exact absurd hnone hleft
  · by_contra hlife
    have hlive : (CacheEntry.startingAt w.time (awaited.without plugin) (some life)).isLive w'.time =
        true := by
      rw [h.touched.time]
      exact decide_eq_true (Nat.lt_add_of_pos_right (Nat.pos_of_ne_zero hlife))
    rw [awaited?_of_held? hheld hlive] at hgone
    cases hgone

/-- How an answer ends: with what its strike left, whether the store failed or the wait goes on, or with a
report and the entry taken. -/
inductive AnswerEnds (c : Circumstances) (settings : Consolidation) (a : PluginAnswer) (w : World) :
    Except InventoryError Bool → World → Prop
  | failed {e : InventoryError} {left : Option NameSet} {v : World}
      (struck : w.Struck settings.config.pendingLife a.key a.plugin left v)
      (stored : settings.isStored = true) (unreliable : ¬ (c.Reliable ∧ w.store.Readable)) :
      AnswerEnds c settings a w (.error e) v
  | waiting {left : Option NameSet} {v : World}
      (struck : w.Struck settings.config.pendingLife a.key a.plugin left v)
      (incomplete : ∀ awaited, left = some awaited → awaited.isEmpty = true →
        settings.config.notifications = false) :
      AnswerEnds c settings a w (.ok false) v
  | heldBack {left : Option NameSet} {statuses : List DeviceStatus} {v : World}
      (struck : w.Struck settings.config.pendingLife a.key a.plugin left v)
      (finds : settings.Finds a v.store statuses) (pending : ∃ st ∈ statuses, st.verdict = .pending) :
      AnswerEnds c settings a w (.ok false) v
  /-- The entry expired as soon as the plugin was struck off. -/
  | expired {v : World} (taken : w.Taken a.key v) (lifeless : settings.config.pendingLife.nanos = 0) :
      AnswerEnds c settings a w (.ok false) v
  | reported {awaited : NameSet} {statuses : List DeviceStatus} {v : World}
      (before : w.awaited? a.key = some awaited) (last : (awaited.without a.plugin).isEmpty = true)
      (touched : w.TouchedAt a.key v) (held : v.held? a.key = none)
      (finds : settings.Finds a v.store statuses) (settled : ∀ st ∈ statuses, st.verdict ≠ .pending)
      (published : v.published = w.published ++ [settings.reported a a.eventType statuses]) :
      AnswerEnds c settings a w (.ok true) v

/-- How the end of the wait ends: nothing was awaited, or the entry was taken and the store failed, or a
report was published as well. -/
inductive WaitEnds (c : Circumstances) (settings : Consolidation) (a : PluginAnswer) (w : World) :
    Except InventoryError Bool → World → Prop
  | absent {v : World} (before : w.awaited? a.key = none) (taken : w.Taken a.key v) :
      WaitEnds c settings a w (.ok false) v
  | failed {e : InventoryError} {v : World} (before : w.awaited? a.key ≠ none) (taken : w.Taken a.key v)
      (unreliable : ¬ (c.Reliable ∧ w.store.Readable)) : WaitEnds c settings a w (.error e) v
  | reported {statuses : List DeviceStatus} {v : World} (before : w.awaited? a.key ≠ none)
      (touched : w.TouchedAt a.key v) (held : v.held? a.key = none)
      (finds : settings.Finds a v.store statuses)
      (published : v.published = w.published ++ [settings.reported a subscriptionCreated statuses]) :
      WaitEnds c settings a w (.ok true) v

/-- The store that an answer leaves. Its plugin is struck off first, so that keeping the statuses is the
second request. -/
def afterAnswer (w : World) (c : Circumstances) (settings : Consolidation) (a : PluginAnswer) : Store :=
  if settings.isStored && (c.storeFailure (w.turn + 1) (.saveAnswer a)).isNone then w.store.saveAnswer a
  else w.store

end World

/-! ## Runs -/

namespace Inventory

variable {c : Circumstances} {w v : World} {settings : Consolidation} {a : PluginAnswer}

/-- A report is published after the entry was taken. -/
theorem ensures_report_taken {eventType : String} {statuses : List DeviceStatus}
    {Q : Unit → World → Prop} (h : World.Taken a.key w v)
    (hQ : ∀ v', World.TouchedAt a.key w v' → v'.held? a.key = none → v'.store = v.store →
      v'.published = w.published ++ [settings.reported a eventType statuses] → Q () v') :
    (report settings a eventType statuses).Ensures (.under c) Q v := by
  refine under_request (hQ _ ⟨h.touched.time, h.touched.held, h.touched.readable⟩ h.held rfl ?_)
  rw [← h.published]
  rfl

/-- A call of the store in a run, with what it gives where it succeeds and what is left where it fails. -/
theorem ensures_store_under {call : StoreCall} {P : call.Answer → World → Prop}
    {Q : Except InventoryError Bool → World → Prop}
    (hgives : ∀ answer, (World.reply c (.store call) v).1 = .ok answer →
      P answer (World.reply c (.store call) v).2)
    (hfailed : ∀ e, (World.reply c (.store call) v).1 = .error e →
      Q (.error (.ofStore e)) (World.reply c (.store call) v).2) :
    (Action.store call).run.Ensures (.under c) (Action.Gives P Q) v := by
  rw [Action.run_store, Program.ensures_bind]
  refine under_request ?_
  rw [Program.ensures_done]
  cases hreply : (World.reply c (.store call) v).1 with
  | ok answer => exact hgives answer hreply
  | error e => exact hfailed e hreply

/-- The statuses are those of the answer, or they are read from a store that stays as it is. -/
theorem ensures_reportedStatuses_under {P : List DeviceStatus → World → Prop}
    {Q : Except InventoryError Bool → World → Prop}
    (htold : ∀ statuses v', v.Rests v' → v'.store = v.store → settings.Finds a v'.store statuses →
      P statuses v')
    (hfailed : ∀ e v', v.Rests v' → v'.store = v.store → settings.isStored = true →
      ¬ (c.Reliable ∧ v.store.Readable) → Q (.error e) v') :
    (reportedStatuses settings a).run.Ensures (.under c) (Action.Gives P Q) v := by
  rw [reportedStatuses]
  split
  · rename_i hstored
    have hrests := World.rests_statuses c a.clientId a.subscriptionName v
    have hstore : (World.reply c (.store (.statuses a.clientId a.subscriptionName)) v).2.store = v.store := by
      rw [World.reply]
      cases c.storeFailure v.turn (.statuses a.clientId a.subscriptionName) <;> rfl
    refine ensures_store_under ?_ ?_
    · intro statuses hreply
      refine htold _ _ hrests hstore ((Consolidation.finds_stored hstored).2 ?_)
      rw [hstore]
      rw [World.reply] at hreply
      cases hfailure : c.storeFailure v.turn (.statuses a.clientId a.subscriptionName) with
      | some e =>
          rw [hfailure] at hreply
          cases hreply
      | none =>
          rw [hfailure] at hreply
          exact hreply
    · intro e hreply
      refine hfailed _ _ hrests hstore hstored ?_
      rintro ⟨hc, hr⟩
      rcases World.reply_statuses hc hr a.clientId a.subscriptionName with ⟨statuses, hok⟩
      rw [hreply] at hok
      cases hok
  · rename_i hstored
    exact htold _ _ ⟨rfl, rfl, rfl, fun h => h⟩ rfl
      ((Consolidation.finds_unstored (Bool.eq_false_iff.2 hstored)).2 rfl)

/-- The end of the wait in a run. -/
theorem timeOut_ends (settings : Consolidation) (a : PluginAnswer) (c : Circumstances) (w : World) :
    (timeOut settings a).run.Ensures (.under c)
      (fun result v => v.store = w.store ∧ w.WaitEnds c settings a result v) w := by
  refine ensures_timeOut_told
    (fun v => w.awaited? a.key ≠ none ∧ v.store = w.store ∧ w.Taken a.key v)
    (fun statuses v => w.awaited? a.key ≠ none ∧ v.store = w.store ∧ w.Taken a.key v ∧
      settings.Finds a v.store statuses) ?_ ?_ ?_
  · refine under_request ?_
    have htaken := (World.TouchedAt.refl a.key w).taken rfl c
    have hreply : (World.reply c (.pending (.take a.key)) w).1 = w.awaited? a.key := rfl
    rw [hreply]
    cases hawaited : w.awaited? a.key with
    | none => exact ⟨rfl, .absent hawaited htaken⟩
    | some plugins => exact ⟨by simp, rfl, htaken⟩
  · -- The statuses are read when the entry is gone already, so that a failure does not bring it back.
    rintro v ⟨hawaited, hstore, htaken⟩
    refine ensures_reportedStatuses_under ?_ ?_
    · exact fun statuses v' hrests hsame hfinds =>
        ⟨hawaited, hsame.trans hstore, htaken.rests hrests, hfinds⟩
    · intro e v' hrests hsame _ hunreliable
      refine ⟨hsame.trans hstore, .failed hawaited (htaken.rests hrests) ?_⟩
      rwa [← hstore]
  · rintro statuses v ⟨hawaited, hstore, htaken, hfinds⟩
    exact ensures_report_taken htaken fun v' htouched hheld hsame hpublished =>
      ⟨hsame.trans hstore, .reported hawaited htouched hheld (by rwa [hsame]) hpublished⟩

/-- An answer in a run. -/
theorem answer_ends (settings : Consolidation) (a : PluginAnswer) (c : Circumstances) (w : World) :
    (answer settings a).run.Ensures (.under c)
      (fun result v => v.store = w.afterAnswer c settings a ∧ w.AnswerEnds c settings a result v) w := by
  refine ensures_answer_told
    (fun left v => v.store = w.store ∧ v.turn = w.turn + 1 ∧
      w.Struck settings.config.pendingLife a.key a.plugin left v)
    (fun left v => v.store = w.afterAnswer c settings a ∧
      w.Struck settings.config.pendingLife a.key a.plugin left v)
    (fun statuses v => v.store = w.afterAnswer c settings a ∧ settings.Finds a v.store statuses ∧
      ∃ awaited, awaited.isEmpty = true ∧
        w.Struck settings.config.pendingLife a.key a.plugin (some awaited) v)
    ?_ ?_ ?_ ?_ ?_ ?_ ?_
  · refine under_request ⟨?_, ?_, World.struck c _ a.key a.plugin w⟩
    · exact (w.nextTurn.callPending_rest (.strike a.key a.plugin settings.config.pendingLife)).1
    · rfl
  · rintro hstored left v ⟨hstore, hturn, hstruck⟩
    have hrests := World.rests_saveAnswer c a v
    have hafter : (World.reply c (.store (.saveAnswer a)) v).2.store = w.afterAnswer c settings a := by
      rw [World.reply, World.afterAnswer, hstored, ← hturn, ← hstore]
      cases c.storeFailure v.turn (.saveAnswer a) <;> rfl
    refine ensures_store_under (fun _ _ => ⟨hafter, hstruck.rests hrests⟩) ?_
    intro e hreply
    refine ⟨hafter, .failed (hstruck.rests hrests) hstored ?_⟩
    rintro ⟨hc, -⟩
    rw [World.reply, hc] at hreply
    cases hreply
  · rintro hstored left v ⟨hstore, -, hstruck⟩
    refine ⟨?_, hstruck⟩
    rw [hstore, World.afterAnswer, hstored]
    rfl
  · exact fun left v h hincomplete => ⟨h.1, .waiting h.2 hincomplete⟩
  · rintro awaited v hempty ⟨hstore, hstruck⟩
    refine ensures_reportedStatuses_under ?_ ?_
    · exact fun statuses v' hrests hsame hfinds =>
        ⟨hsame.trans hstore, hfinds, awaited, hempty, hstruck.rests hrests⟩
    · intro e v' hrests hsame hstored hunreliable
      refine ⟨hsame.trans hstore, .failed (hstruck.rests hrests) hstored ?_⟩
      exact fun h => hunreliable ⟨h.1, hstruck.touched.readable h.2⟩
  · rintro statuses v ⟨hstore, hfinds, awaited, -, hstruck⟩ hpending
    exact ⟨hstore, .heldBack hstruck hfinds hpending⟩
  · rintro statuses v ⟨hstore, hfinds, awaited, hempty, hstruck⟩ hsettled
    refine under_request ?_
    have htaken := hstruck.touched.taken hstruck.published c
    have hreply : (World.reply c (.pending (.take a.key)) v).1 = v.awaited? a.key := rfl
    rw [hreply]
    -- What was struck last is still there, unless an entry has no life.
    cases hawaited : v.awaited? a.key with
    | none => exact ⟨hstore, .expired htaken (hstruck.lifeless (by simp) hawaited)⟩
    | some plugins =>
        refine ensures_report_taken htaken fun v' htouched hheld hsame hpublished => ?_
        rcases hstruck.held with ⟨hnone, -⟩ | ⟨before, hleft, hbefore, -⟩
        · cases hnone
        · have hsame : v'.store = v.store := hsame
          refine ⟨hsame.trans hstore, .reported hbefore (Option.some.inj hleft ▸ hempty) htouched hheld ?_
            hsettled hpublished⟩
          rwa [hsame]

/-- An answer of the last plugin that is awaited publishes a report unless a device is still pending, if the
store does not fail. -/
theorem answer_completes {awaited : NameSet} (hnotifies : settings.config.notifications = true)
    (hlife : 0 < settings.config.pendingLife.nanos)
    (hreliable : settings.isStored = true → c.Reliable ∧ w.store.Readable)
    (hawaited : w.awaited? a.key = some awaited) (hlast : (awaited.without a.plugin).isEmpty = true) :
    (answer settings a).run.Ensures (.under c) (fun _ v => ∃ statuses, settings.Finds a v.store statuses ∧
      ((∀ st ∈ statuses, st.verdict ≠ .pending) ∧
          v.published = w.published ++ [settings.reported a a.eventType statuses] ∨
        (∃ st ∈ statuses, st.verdict = .pending) ∧ v.published = w.published)) w := by
  refine (answer_ends settings a c w).mono ?_
  rintro result v ⟨-, hends⟩
  cases hends with
  | failed _ hstored hunreliable => exact absurd (hreliable hstored) hunreliable
  | waiting hstruck hincomplete =>
      rcases hstruck.held with ⟨-, hnone, -⟩ | ⟨before, hleft, hbefore, -⟩
      · rw [hawaited] at hnone
        cases hnone
      · rw [hawaited] at hbefore
        cases hbefore
        rw [hincomplete _ hleft hlast] at hnotifies
        cases hnotifies
  | heldBack hstruck hfinds hpending => exact ⟨_, hfinds, Or.inr ⟨hpending, hstruck.published⟩⟩
  | expired _ hlifeless => exact absurd hlifeless (Nat.ne_of_gt hlife)
  | reported _ _ _ _ hfinds hsettled hpublished => exact ⟨_, hfinds, Or.inl ⟨hsettled, hpublished⟩⟩

/-- The end of the wait in a run: nothing was awaited, or the store failed once the entry was taken, or a
report was published. -/
theorem ensures_timeOut_of {Q : Except InventoryError Bool → World → Prop}
    (habsent : ∀ v, w.awaited? a.key = none → w.Taken a.key v → Q (.ok false) v)
    (hfailed : ∀ e v, w.awaited? a.key ≠ none → w.Taken a.key v → ¬ (c.Reliable ∧ w.store.Readable) →
      Q (.error e) v)
    (hreported : ∀ v, w.awaited? a.key ≠ none → w.TouchedAt a.key v → v.held? a.key = none →
      w.Reports a.key v → Q (.ok true) v) :
    (timeOut settings a).run.Ensures (.under c) Q w := by
  refine (timeOut_ends settings a c w).mono ?_
  rintro result v ⟨-, hends⟩
  cases hends with
  | absent hbefore htaken => exact habsent v hbefore htaken
  | failed hbefore htaken hunreliable => exact hfailed _ v hbefore htaken hunreliable
  | reported hbefore htouched hheld _ hpublished =>
      exact hreported v hbefore htouched hheld
        ⟨_, settings.isReport_reported a subscriptionCreated _, hpublished⟩

theorem ensures_timeOut_under :
    (timeOut settings a).run.Ensures (.under c) (fun _ w' => w.TimedOut c a.key w') w := by
  apply ensures_timeOut_of
  · exact fun v hawaited htaken =>
      ⟨htaken.touched, htaken.held, Or.inl ⟨htaken.published, Or.inl hawaited⟩⟩
  · exact fun e v _ htaken hfailed =>
      ⟨htaken.touched, htaken.held, Or.inl ⟨htaken.published, Or.inr hfailed⟩⟩
  · exact fun v hawaited htouched hheld hreports => ⟨htouched, hheld, Or.inr ⟨hawaited, hreports⟩⟩

/-- An answer in a run: it ends with what its strike left, whether the store failed or the wait goes on, or
it took the entry and published a report. -/
theorem ensures_answer_of {Q : Except InventoryError Bool → World → Prop}
    (hfailed : ∀ e left v, w.Struck settings.config.pendingLife a.key a.plugin left v → Q (.error e) v)
    (hwait : ∀ left v, w.Struck settings.config.pendingLife a.key a.plugin left v → Q (.ok false) v)
    (hexpired : ∀ v, w.Taken a.key v → settings.config.pendingLife.nanos = 0 → Q (.ok false) v)
    (hreported : ∀ awaited v, w.awaited? a.key = some awaited → (awaited.without a.plugin).isEmpty = true →
      w.TouchedAt a.key v → v.held? a.key = none → w.Reports a.key v → Q (.ok true) v) :
    (answer settings a).run.Ensures (.under c) Q w := by
  refine (answer_ends settings a c w).mono ?_
  rintro result v ⟨-, hends⟩
  cases hends with
  | failed hstruck => exact hfailed _ _ v hstruck
  | waiting hstruck _ => exact hwait _ v hstruck
  | heldBack hstruck _ _ => exact hwait _ v hstruck
  | expired htaken hlifeless => exact hexpired v htaken hlifeless
  | reported hbefore hlast htouched hheld _ _ hpublished =>
      exact hreported _ v hbefore hlast htouched hheld
        ⟨_, settings.isReport_reported a a.eventType _, hpublished⟩

theorem ensures_answer_under :
    (answer settings a).run.Ensures (.under c)
      (fun _ w' => w.TouchedAt a.key w' ∧
        w.AnswerLeaves settings.config.pendingLife a.key a.plugin w') w := by
  apply ensures_answer_of
  · exact fun e left v hstruck => ⟨hstruck.touched, hstruck.leaves⟩
  · exact fun left v hstruck => ⟨hstruck.touched, hstruck.leaves⟩
  · exact fun v htaken hlifeless => ⟨htaken.touched, .expired hlifeless htaken.held htaken.published⟩
  · exact fun awaited v hbefore hlast htouched hheld hreports =>
      ⟨htouched, .complete hbefore hlast hheld hreports⟩

end Inventory
end CmInventory
