import CmInventory.Proofs.Consolidation.Runs

/-!
# Calls of the consolidation that fail

Taking in an answer and ending the wait for answers both change the cache before they call the store, and
nothing puts the entry back when the store fails. A call that fails publishes nothing, but what is awaited
afterwards is `Consolidation.Call.leaves`: a failed answer has struck its plugin off, and a failed end of
the wait has taken the entry out. So what was awaited before is awaited still only if there was nothing to
strike off (`Consolidation.Call.Spares`); after a failed answer the wait can be ended later, after a failed
end of the wait it cannot.
-/

namespace CmInventory

open Inventory

namespace Consolidation.Call

/-- What a call that fails leaves of what was awaited. -/
def leaves : Call → Option NameSet → Option NameSet
  | .forward .., awaited => awaited
  | .answer settings a, awaited =>
      -- An entry without life is gone as soon as it is written.
      if 0 < settings.config.pendingLife.nanos then awaited.map (·.without a.plugin) else none
  | .timeOut .., _ => none

/-- Whether a call that fails has nothing to take from what was awaited. -/
def Spares : Call → Option NameSet → Prop
  | .forward .., _ => True
  | .answer settings a, awaited =>
      ∀ plugins, awaited = some plugins → 0 < settings.config.pendingLife.nanos ∧ ¬ plugins.Has a.plugin
  | .timeOut .., awaited => awaited = none

/-- Whether a call that fails leaves the wait to be ended by another call. -/
def Resumes : Call → Prop
  | .forward .. => True
  | .answer settings _ => 0 < settings.config.pendingLife.nanos
  | .timeOut .. => False

end Consolidation.Call

theorem NameSet.without_eq_self {s : NameSet} {name : String} : s.without name = s ↔ ¬ s.Has name := by
  constructor
  · intro h hname
    rw [← h, NameSet.has_without] at hname
    exact hname.1 rfl
  · intro h
    refine Dictionary.ext_find? fun other => ?_
    rw [NameSet.without, Dictionary.find?_erase]
    split
    · rename_i hother
      rw [← hother]
      exact (not_not.1 h).symm
    · rfl

namespace World

variable {w w' : World} {x : Consolidation.Call} {c : Circumstances}

/-- What a call that failed made of the world. -/
structure Failed (x : Consolidation.Call) (w w' : World) : Prop where
  touched : TouchedAt x.key w w'
  published : w'.published = w.published
  awaited : w'.awaited? x.key = x.leaves (w.awaited? x.key)

theorem Struck.awaited?_eq {life : Interval} {key plugin : String} {left : Option NameSet}
    (h : Struck life key plugin w left w') :
    w'.awaited? key = if 0 < life.nanos then (w.awaited? key).map (·.without plugin) else none := by
  rcases h.held with ⟨-, hbefore, hheld⟩ | ⟨awaited, -, hbefore, hheld⟩
  · rw [awaited?_of_unheld hheld, hbefore]
    split <;> rfl
  · -- No time has passed since the entry was written anew, so any life at all keeps it.
    have hlive : (CacheEntry.startingAt w.time (awaited.without plugin) (some life)).isLive w'.time =
        decide (0 < life.nanos) := by
      rw [h.touched.time]
      exact decide_eq_decide.2 Nat.lt_add_right_iff_pos
    have hheld : w'.pending.held? key =
        some (.startingAt w.time (awaited.without plugin) (some life)) := hheld
    rw [awaited?, Cache.live?_eq, hheld, Option.filter_some, hlive, hbefore]
    split
    · rename_i hlife
      rw [if_pos (of_decide_eq_true hlife)]
      rfl
    · rename_i hlife
      rw [if_neg fun h => hlife (decide_eq_true h)]
      rfl

end World

namespace Inventory

variable {c : Circumstances} {w w' : World} {settings : Consolidation} {a : PluginAnswer}

theorem ensures_answer_failed :
    (answer settings a).run.Ensures (.under c)
      (fun result w' => ∀ e, result = .error e → World.Failed (.answer settings a) w w') w := by
  apply ensures_answer_of
  · exact fun e left v hstruck _ _ => ⟨hstruck.touched, hstruck.published, hstruck.awaited?_eq⟩
  -- None of the other ends is an error.
  · exact fun _ _ _ _ h => by cases h
  · exact fun _ _ _ _ h => by cases h
  · exact fun _ _ _ _ _ _ _ _ h => by cases h

theorem ensures_timeOut_failed :
    (timeOut settings a).run.Ensures (.under c)
      (fun result w' => ∀ e, result = .error e → World.Failed (.timeOut settings a) w w') w := by
  apply ensures_timeOut_of
  · exact fun _ _ _ _ h => by cases h
  · exact fun e v _ htaken _ _ _ =>
      ⟨htaken.touched, htaken.published, World.awaited?_of_unheld htaken.held⟩
  · exact fun _ _ _ _ _ _ h => by cases h

/-- Where the store does not fail, the end of a wait tells whether anything was awaited. -/
theorem ensures_timeOut_reliable (hc : c.Reliable) (hr : w.store.Readable) :
    (timeOut settings a).run.Ensures (.under c)
      (fun result _ => result = .ok (w.awaited? a.key).isSome) w := by
  apply ensures_timeOut_of
  · intro v hawaited _
    rw [hawaited, Option.isSome_none]
  · exact fun _ _ _ _ hfailed => absurd ⟨hc, hr⟩ hfailed
  · intro v hawaited _ _ _
    rw [Option.isSome_iff_ne_none.2 hawaited]

end Inventory

namespace Consolidation.Call

variable {x : Call} {c : Circumstances} {w w' : World} {e : InventoryError}

theorem ensures_failed (x : Call) (c : Circumstances) (w : World) :
    x.program.Ensures (.under c) (fun result w' => ∀ e, result = .error e → World.Failed x w w') w := by
  cases x with
  | forward settings clientId subscriptionName plugins =>
      rw [program, Inventory.forward, Program.ensures_bind]
      exact under_request fun e he => by cases he
  | answer settings a => exact ensures_answer_failed
  | timeOut settings a => exact ensures_timeOut_failed

theorem leaves_eq_self {awaited : Option NameSet} : x.leaves awaited = awaited ↔ x.Spares awaited := by
  cases x with
  | forward settings clientId subscriptionName plugins => exact iff_of_true rfl trivial
  | timeOut settings a => exact eq_comm
  | answer settings a =>
      cases awaited with
      | none =>
          rw [leaves, Option.map_none, ite_self]
          exact iff_of_true rfl fun plugins h => by cases h
      | some awaited =>
          rw [leaves, Spares]
          by_cases hlife : 0 < settings.config.pendingLife.nanos
          · simp [hlife, NameSet.without_eq_self]
          · simp [hlife]

theorem leaves_ne_none {awaited : Option NameSet} :
    x.leaves awaited ≠ none ↔ awaited ≠ none ∧ x.Resumes := by
  cases x with
  | forward settings clientId subscriptionName plugins => simp [leaves, Resumes]
  | timeOut settings a => simp [leaves, Resumes]
  | answer settings a =>
      rw [leaves, Resumes]
      by_cases hlife : 0 < settings.config.pendingLife.nanos <;> simp [hlife]

/-- A call that fails publishes nothing. What was awaited is awaited still exactly if the call had nothing
to take from it, and the wait can be ended by a later call exactly if it was on and not ended by the one
that failed. -/
theorem failed_leaves_iff (h : x.program.run (World.reply c) w = (.error e, w')) :
    w'.published = w.published ∧
      (w'.awaited? x.key = w.awaited? x.key ↔ x.Spares (w.awaited? x.key)) ∧
      ∀ (c' : Circumstances) settings (a : PluginAnswer), c'.Reliable → w.store.Readable → a.key = x.key →
        (((timeOut settings a).program.run (World.reply c') w').1 = .ok true ↔
          w.awaited? x.key ≠ none ∧ x.Resumes) := by
  have hfailed : World.Failed x w w' := by
    have hensures := (ensures_failed x c w).under
    rw [h] at hensures
    exact hensures e rfl
  refine ⟨hfailed.published, ?_, ?_⟩
  · rw [hfailed.awaited, leaves_eq_self]
  · -- The later end of the wait takes what the failed call left, and answers whether that was anything.
    intro c' settings a hc hr hkey
    have hlater : ((timeOut settings a).program.run (World.reply c') w').1 =
        .ok (w'.awaited? a.key).isSome :=
      (ensures_timeOut_reliable hc (hfailed.touched.readable hr)).under
    rw [hlater, hkey, ← leaves_ne_none, ← hfailed.awaited, Except.ok.injEq, Option.isSome_iff_ne_none]

/-- Settings of a member that keeps the statuses of devices. -/
def storingSettings : Consolidation :=
  ⟨{ SubscriptionConfig.standard with persistence := true }, true, "outcomes"⟩

/-- The end of the wait for a subscription. -/
def lostEnd : Call :=
  .timeOut storingSettings (bareAnswer ("client", "name"))

/-- The world once the subscription was forwarded to a plugin. -/
def waitingWorld : World :=
  (World.empty.callPending
    (.put lostEnd.key (.ofNames ["plugin"]) storingSettings.config.pendingLife)).2

/-- Circumstances in which every call of the store fails. -/
def brokenStore : Circumstances :=
  { World.undisturbed with storeFailure := fun _ _ => some .outOfOrder }

theorem awaited?_waitingWorld : waitingWorld.awaited? lostEnd.key = some (.ofNames ["plugin"]) :=
  World.awaited?_of_held? World.held?_put rfl

theorem failed_leaves_lostEnd :
    (lostEnd.program.run (World.reply brokenStore) waitingWorld).1 = .error (.store .outOfOrder) ∧
      (lostEnd.program.run (World.reply brokenStore) waitingWorld).2.awaited? lostEnd.key ≠
        waitingWorld.awaited? lostEnd.key ∧
      (lostEnd.program.run (World.reply World.undisturbed)
        (lostEnd.program.run (World.reply brokenStore) waitingWorld).2).1 ≠ .ok true := by
  have hfails : lostEnd.program.run (World.reply brokenStore) waitingWorld =
      (.error (.store .outOfOrder), (lostEnd.program.run (World.reply brokenStore) waitingWorld).2) := by
    rfl
  rcases failed_leaves_iff hfails with ⟨-, hsame, hlater⟩
  refine ⟨congrArg Prod.fst hfails, ?_, ?_⟩
  · intro h
    have hspares : waitingWorld.awaited? lostEnd.key = none := hsame.1 h
    rw [awaited?_waitingWorld] at hspares
    cases hspares
  · intro h
    exact ((hlater _ _ _ World.reliable_undisturbed Store.readable_empty rfl).1 h).2

end Consolidation.Call
end CmInventory
