import CmInventory.Proofs.Consolidation.Failures
import CmInventory.Proofs.Store.Latest

/-!
# What reports tell

A member makes calls of the consolidation one after the other, each some time after the one before and under
circumstances of its own. If the statuses of devices are stored, the rows of a subscription are at any time
those of all that the store took in for it (`World.statusRows_afterAll`), and a report is read from them
when the answer at hand was stored already. So every report tells the latest status of each device that
reported so far, whichever answer it came with (`World.outcomes_tell_received`).
-/

namespace CmInventory

open Inventory

/-- A call that is made some time after the one before, under circumstances of its own. -/
structure Consolidation.Step where
  delay : Interval
  circumstances : Circumstances
  call : Consolidation.Call

namespace Consolidation.Call

def settings : Call → Consolidation
  | .forward settings _ _ _ | .answer settings _ | .timeOut settings _ => settings

/-- The statuses that a call reports for a subscription. Only answers report any. -/
def reports (clientId subscriptionName : String) : Call → List DeviceStatus
  | .answer _ a =>
      if a.clientId = clientId ∧ a.subscriptionName = subscriptionName then a.statuses else []
  | _ => []

end Consolidation.Call

/-- A call that is made at once and meets no failure. -/
def Consolidation.Step.atOnce (x : Consolidation.Call) : Consolidation.Step :=
  ⟨.zero, World.undisturbed, x⟩

/-- A status without details. -/
def DeviceStatus.bare (id : String) (verdict : DeviceVerdict) : DeviceStatus :=
  ⟨⟨id⟩, verdict, none⟩

/-- The answer of a plugin to a subscription. -/
def PluginAnswer.of (plugin : String) (statuses : List DeviceStatus) : PluginAnswer :=
  ⟨"client", "name", plugin, "subscriptionCreated", statuses⟩

/-- Circumstances in which the store never fails to keep an answer. -/
def Circumstances.KeepsAnswers (c : Circumstances) : Prop :=
  ∀ n a, c.storeFailure n (.saveAnswer a) = none

namespace World

variable {w : World} {x : Consolidation.Step} {steps : List Consolidation.Step}
  {clientId subscriptionName : String}

/-! ## Calls one after the other -/

/-- The world after a call. -/
def after (w : World) (x : Consolidation.Step) : World :=
  (x.call.program.run (reply x.circumstances) (w.advance x.delay)).2

/-- The world after calls that are made one after the other. -/
def afterAll (w : World) (steps : List Consolidation.Step) : World :=
  steps.foldl after w

theorem afterAll_append (w : World) (before later : List Consolidation.Step) :
    w.afterAll (before ++ later) = (w.afterAll before).afterAll later :=
  List.foldl_append

theorem afterAll_snoc (w : World) (steps : List Consolidation.Step) (x : Consolidation.Step) :
    w.afterAll (steps ++ [x]) = (w.afterAll steps).after x :=
  w.afterAll_append steps [x]

/-- The statuses for a subscription that the store takes in during a call: those that the call reports,
unless the store fails to keep them. It is asked to after the plugin was struck off. -/
def takesIn (clientId subscriptionName : String) (w : World) (x : Consolidation.Step) : List DeviceStatus :=
  match x.call with
  | .answer _ a =>
      if (x.circumstances.storeFailure (w.turn + 1) (.saveAnswer a)).isNone then
        x.call.reports clientId subscriptionName
      else []
  | _ => []

/-- The statuses for a subscription that the store takes in during calls. -/
def received (clientId subscriptionName : String) (w : World) : List Consolidation.Step → List DeviceStatus
  | [] => []
  | x :: rest =>
      w.takesIn clientId subscriptionName x ++ (w.after x).received clientId subscriptionName rest

theorem received_append (w : World) (before later : List Consolidation.Step) :
    w.received clientId subscriptionName (before ++ later) =
      w.received clientId subscriptionName before ++
        (w.afterAll before).received clientId subscriptionName later := by
  induction before generalizing w with
  | nil => rfl
  | cons x rest ih =>
      rw [List.cons_append, received, ih, received, List.append_assoc]
      rfl

/-- Where the store keeps every answer, it takes in all that is reported. -/
theorem received_eq (h : ∀ x ∈ steps, x.circumstances.KeepsAnswers) :
    w.received clientId subscriptionName steps =
      steps.flatMap fun x => x.call.reports clientId subscriptionName := by
  induction steps generalizing w with
  | nil => rfl
  | cons x rest ih =>
      have htakes : w.takesIn clientId subscriptionName x = x.call.reports clientId subscriptionName := by
        rw [takesIn]
        split
        · rw [h x (List.mem_cons_self ..)]
          rfl
        · rename_i hcall
          cases hx : x.call with
          | answer settings a => exact absurd hx (hcall settings a)
          | _ => rfl
      rw [received, htakes, ih fun y hy => h y (List.mem_cons_of_mem _ hy), List.flatMap_cons]

/-! ## What is stored -/

/-- A call writes over the rows of a subscription what the store takes in for it. -/
theorem statusRows_after (hstored : x.call.settings.isStored = true) :
    (w.after x).store.statusRows clientId subscriptionName =
      Store.withStatuses (w.store.statusRows clientId subscriptionName)
        (w.takesIn clientId subscriptionName x) := by
  rw [after, takesIn]
  cases hx : x.call with
  | forward settings client name plugins =>
      -- What is awaited is kept apart from the store.
      have hstore := (w.advance x.delay).nextTurn.callPending_rest
        (.put (subscriptionKey client name) (.ofNames plugins) settings.config.pendingLife)
      exact congrArg (Store.statusRows · clientId subscriptionName) hstore.1
  | timeOut settings a =>
      -- The end of a wait only reads what is stored.
      have hends := (timeOut_ends settings a x.circumstances (w.advance x.delay)).under
      exact congrArg (Store.statusRows · clientId subscriptionName) hends.1
  | answer settings a =>
      have hends := (answer_ends settings a x.circumstances (w.advance x.delay)).under
      rw [hx] at hstored
      have hstored : settings.isStored = true := hstored
      rw [Consolidation.Call.program, hends.1, afterAnswer, hstored, Bool.true_and]
      change (if (x.circumstances.storeFailure (w.turn + 1) (.saveAnswer a)).isNone = true then
        w.store.saveAnswer a else w.store).statusRows clientId subscriptionName = _
      dsimp only
      split
      · rw [Store.statusRows_saveAnswer, Consolidation.Call.reports]
        split <;> rfl
      · rfl

/-- The rows of a subscription are those that there were, with all that the store took in written over them.
-/
theorem statusRows_afterAll (hstored : ∀ x ∈ steps, x.call.settings.isStored = true) :
    (w.afterAll steps).store.statusRows clientId subscriptionName =
      Store.withStatuses (w.store.statusRows clientId subscriptionName)
        (w.received clientId subscriptionName steps) := by
  induction steps generalizing w with
  | nil => rfl
  | cons x rest ih =>
      rw [received, Store.withStatuses_append, ← statusRows_after (hstored x (List.mem_cons_self ..)),
        ← ih fun y hy => hstored y (List.mem_cons_of_mem _ hy)]
      rfl

end World

/-! ## What is reported -/

/-- A report on the subscription of a call, made of what is stored. One that an answer publishes has no
device that is still pending. -/
structure OutcomeReport.ReadFrom (r : OutcomeReport) (x : Consolidation.Call) (s : Store) : Prop where
  about : (r.clientId, r.subscriptionName) = x.subscription
  outcome : r.outcome = .classify r.statuses
  statuses : s.statusesOf r.clientId r.subscriptionName = .ok r.statuses
  settled : (∃ settings a, x = .answer settings a) → ∀ st ∈ r.statuses, st.verdict ≠ .pending

/-- A report tells what was received: the latest status of each device, and whether all of them accepted or
all rejected. -/
structure OutcomeReport.Tells (r : OutcomeReport) (received : List DeviceStatus) : Prop where
  latest : TellsLatest r.statuses received
  success : r.outcome = .success ↔ r.statuses ≠ [] ∧ ∀ st ∈ r.statuses, st.verdict = .accepted
  failure : r.outcome = .failure ↔ r.statuses ≠ [] ∧ ∀ st ∈ r.statuses, st.verdict = .rejected
  otherwise : r.outcome = .partialSuccess ↔
    ¬ (r.statuses ≠ [] ∧ ∀ st ∈ r.statuses, st.verdict = .accepted) ∧
      ¬ (r.statuses ≠ [] ∧ ∀ st ∈ r.statuses, st.verdict = .rejected)

namespace Outcome

variable {statuses : List DeviceStatus}

theorem classify_eq_success :
    classify statuses = .success ↔ statuses ≠ [] ∧ ∀ st ∈ statuses, st.verdict = .accepted := by
  cases statuses with
  | nil => simp [classify]
  | cons st rest =>
      rw [classify]
      split_ifs <;> simp_all

/-- All rejected is not all accepted, as there is a device. -/
theorem classify_eq_failure :
    classify statuses = .failure ↔ statuses ≠ [] ∧ ∀ st ∈ statuses, st.verdict = .rejected := by
  cases statuses with
  | nil => simp [classify]
  | cons st rest =>
      rw [classify]
      split_ifs <;> simp_all

theorem classify_eq_partialSuccess :
    classify statuses = .partialSuccess ↔
      ¬ (statuses ≠ [] ∧ ∀ st ∈ statuses, st.verdict = .accepted) ∧
        ¬ (statuses ≠ [] ∧ ∀ st ∈ statuses, st.verdict = .rejected) := by
  rw [← classify_eq_success, ← classify_eq_failure]
  cases classify statuses <;> simp

end Outcome

namespace Consolidation.Call

variable {w : World} {x : Call} {c : Circumstances}

/-- A call publishes nothing but reports that are read from the store. -/
theorem ensures_readFrom (w : World) (c : Circumstances) (hstored : x.settings.isStored = true) :
    x.program.Ensures (.under c) (fun _ w' => ∃ new, w'.published = w.published ++ new ∧
      ∀ p ∈ new, ∃ r : OutcomeReport, p.event = .outcome r ∧ r.ReadFrom x w'.store) w := by
  have hnone : ∀ w' : World, w'.published = w.published → ∃ new, w'.published = w.published ++ new ∧
      ∀ p ∈ new, ∃ r : OutcomeReport, p.event = .outcome r ∧ r.ReadFrom x w'.store :=
    fun w' h => ⟨[], h.trans (List.append_nil _).symm, by simp⟩
  cases x with
  | forward settings clientId subscriptionName plugins =>
      rw [program, Inventory.forward, Program.ensures_bind]
      exact under_request (hnone _ rfl)
  | timeOut settings a =>
      refine (timeOut_ends settings a c w).mono ?_
      rintro _ w' ⟨-, hends⟩
      cases hends with
      | absent _ htaken => exact hnone _ htaken.published
      | failed _ htaken _ => exact hnone _ htaken.published
      | reported _ _ _ hfinds hpublished =>
          have hfinds := (Consolidation.finds_stored hstored).1 hfinds
          refine ⟨_, hpublished, fun p hp => ⟨a.report subscriptionCreated _, ?_, rfl, rfl, hfinds, ?_⟩⟩
          · rw [List.mem_singleton.1 hp, Consolidation.reported]
          · rintro ⟨_, _, h⟩
            cases h
  | answer settings a =>
      refine (answer_ends settings a c w).mono ?_
      rintro _ w' ⟨-, hends⟩
      cases hends with
      | failed hstruck => exact hnone _ hstruck.published
      | waiting hstruck _ => exact hnone _ hstruck.published
      | heldBack hstruck _ _ => exact hnone _ hstruck.published
      | expired htaken _ => exact hnone _ htaken.published
      | reported _ _ _ _ hfinds hsettled hpublished =>
          have hfinds := (Consolidation.finds_stored hstored).1 hfinds
          refine ⟨_, hpublished, fun p hp =>
            ⟨a.report a.eventType _, ?_, rfl, rfl, hfinds, fun _ => hsettled⟩⟩
          rw [List.mem_singleton.1 hp, Consolidation.reported]

end Consolidation.Call

namespace World

variable {w : World} {x : Consolidation.Step} {steps : List Consolidation.Step}

/-- The statuses of a subscription that are stored after calls tell what was received in them. -/
theorem statusesOf_afterAll {clientId subscriptionName : String}
    (hfresh : w.store.statusRows clientId subscriptionName = .empty)
    (hstored : ∀ y ∈ steps, y.call.settings.isStored = true) :
    ∃ statuses, (w.afterAll steps).store.statusesOf clientId subscriptionName = .ok statuses ∧
      TellsLatest statuses (w.received clientId subscriptionName steps) := by
  refine Store.statusesOf_eq ?_
  rw [statusRows_afterAll hstored, hfresh]

theorem readable_afterAll (hfresh : ∀ client name, w.store.statusRows client name = .empty)
    (hstored : ∀ y ∈ steps, y.call.settings.isStored = true) : (w.afterAll steps).store.Readable := by
  intro client name id row hrow
  rw [statusRows_afterAll hstored, hfresh] at hrow
  rcases Store.find?_withStatuses hrow with hnone | ⟨st, -, rfl⟩
  · cases hnone
  · rw [StatusRow.ofStatus, DeviceVerdict.ofName?_name]
    rfl

/-- A report that is read from the store after a call tells what was received up to then. -/
theorem tells_of_readFrom {r : OutcomeReport} (hr : r.ReadFrom x.call ((w.afterAll steps).after x).store)
    (hfresh : w.store.statusRows r.clientId r.subscriptionName = .empty)
    (hstored : ∀ y ∈ steps ++ [x], y.call.settings.isStored = true) :
    r.Tells (w.received r.clientId r.subscriptionName (steps ++ [x])) := by
  rcases statusesOf_afterAll hfresh hstored with ⟨statuses, hok, htells⟩
  -- The report was read from the store as the call left it.
  rw [afterAll_snoc] at hok
  obtain rfl : r.statuses = statuses := Except.ok.inj (hr.statuses.symm.trans hok)
  refine ⟨htells, ?_, ?_, ?_⟩
  · rw [hr.outcome, Outcome.classify_eq_success]
  · rw [hr.outcome, Outcome.classify_eq_failure]
  · rw [hr.outcome, Outcome.classify_eq_partialSuccess]

/-- With statuses stored, what a call publishes is a report on its subscription that tells what was received
for it up to then. -/
theorem published_tells (hfresh : ∀ client name, w.store.statusRows client name = .empty)
    (hstored : ∀ y ∈ steps ++ [x], y.call.settings.isStored = true) :
    ∃ new, (w.afterAll (steps ++ [x])).published = (w.afterAll steps).published ++ new ∧
      ∀ p ∈ new, ∃ r : OutcomeReport, p.event = .outcome r ∧
        (r.clientId, r.subscriptionName) = x.call.subscription ∧
        r.Tells (w.received r.clientId r.subscriptionName (steps ++ [x])) ∧
        ((∃ settings a, x.call = .answer settings a) → ∀ st ∈ r.statuses, st.verdict ≠ .pending) := by
  have hcall := Consolidation.Call.ensures_readFrom ((w.afterAll steps).advance x.delay) x.circumstances
    (hstored x (by simp))
  rcases hcall.under with ⟨new, hpublished, hread⟩
  refine ⟨new, by rw [afterAll_snoc]; exact hpublished, fun p hp => ?_⟩
  rcases hread p hp with ⟨r, hevent, hr⟩
  exact ⟨r, hevent, hr.about, tells_of_readFrom hr (hfresh _ _) hstored, hr.settled⟩

/-- The answer of the last plugin publishes a report exactly if no device is pending by its latest status.
-/
theorem publishes_iff {c : Consolidation} {a : PluginAnswer} {awaited : NameSet}
    (hfresh : ∀ client name, w.store.statusRows client name = .empty)
    (hstored : ∀ y ∈ steps ++ [x], y.call.settings.isStored = true) (hx : x.call = .answer c a)
    (hnotifies : c.config.notifications = true) (hlife : 0 < c.config.pendingLife.nanos)
    (hreliable : x.circumstances.Reliable)
    (hawaited : ((w.afterAll steps).advance x.delay).awaited? a.key = some awaited)
    (hlast : (awaited.without a.plugin).isEmpty = true) :
    (w.afterAll (steps ++ [x])).published ≠ (w.afterAll steps).published ↔
      ∀ st, latest? (w.received a.clientId a.subscriptionName (steps ++ [x])) st.id = some st →
        st.verdict ≠ .pending := by
  have hc : c.isStored = true := by
    have h := hstored x (by simp)
    rwa [hx] at h
  have hreadable : (w.afterAll steps).store.Readable :=
    readable_afterAll hfresh fun y hy => hstored y (List.mem_append_left _ hy)
  rcases statusesOf_afterAll (hfresh a.clientId a.subscriptionName) hstored with ⟨found, hok, htells⟩
  have hafter : (w.afterAll steps).after x = ((answer c a).run.run (reply x.circumstances)
      ((w.afterAll steps).advance x.delay)).2 := by
    rw [after, hx]
    rfl
  rw [afterAll_snoc, hafter] at hok ⊢
  rcases (answer_completes (w := (w.afterAll steps).advance x.delay) hnotifies hlife
    (fun _ => ⟨hreliable, hreadable⟩) hawaited hlast).under with ⟨statuses, hfinds, hends⟩
  obtain rfl : statuses = found := Except.ok.inj (((Consolidation.finds_stored hc).1 hfinds).symm.trans hok)
  simp only [← htells.mem_iff]
  rcases hends with ⟨hsettled, hpublished⟩ | ⟨⟨st, hst, hpending⟩, hpublished⟩
  · refine iff_of_true ?_ hsettled
    rw [hpublished]
    simp [advance]
  · exact iff_of_false (fun h => h hpublished) fun h => h st hst hpending

/-- Every report tells all that was received for its subscription so far: the statuses that the store took
in, which are all that answers reported unless the store failed to keep an answer. -/
theorem outcomes_tell_received (hfresh : ∀ client name, w.store.statusRows client name = .empty)
    (hstored : ∀ y ∈ steps ++ [x], y.call.settings.isStored = true) :
    ((∀ y ∈ steps ++ [x], y.circumstances.KeepsAnswers) → ∀ client name,
      w.received client name (steps ++ [x]) =
        (steps ++ [x]).flatMap fun y => y.call.reports client name) ∧
      ∃ new, (w.afterAll (steps ++ [x])).published = (w.afterAll steps).published ++ new ∧
        ∀ p ∈ new, ∃ r : OutcomeReport, p.event = .outcome r ∧
          (r.clientId, r.subscriptionName) = x.call.subscription ∧
          r.Tells (w.received r.clientId r.subscriptionName (steps ++ [x])) ∧
          ((∃ settings a, x.call = .answer settings a) → ∀ st ∈ r.statuses, st.verdict ≠ .pending) :=
  ⟨fun h _ _ => received_eq h, published_tells hfresh hstored⟩

/-- A subscription of two plugins, of which the first has answered. -/
def halfAnswered : List Consolidation.Step :=
  [.atOnce (.forward Consolidation.Call.storingSettings "client" "name" ["first", "second"]),
    .atOnce (.answer Consolidation.Call.storingSettings
      (.of "first" [.bare "ch-2" .rejected, .bare "ch-1" .accepted]))]

/-- The answer of the second plugin, about a device on which the first has reported. -/
def otherHalf : Consolidation.Step :=
  .atOnce (.answer Consolidation.Call.storingSettings (.of "second" [.bare "ch-2" .accepted]))

theorem outcomes_tell_received_overlap :
    ∃ r : OutcomeReport,
      (empty.afterAll (halfAnswered ++ [otherHalf])).published = [⟨"outcomes", "clientname", .outcome r⟩] ∧
        r.Tells [.bare "ch-2" .rejected, .bare "ch-1" .accepted, .bare "ch-2" .accepted] ∧
        r.statuses = [.bare "ch-1" .accepted, .bare "ch-2" .accepted] := by
  have hstored : ∀ y ∈ halfAnswered ++ [otherHalf], y.call.settings.isStored = true := by
    simp [halfAnswered, otherHalf, Consolidation.Step.atOnce, Consolidation.Call.settings,
      Consolidation.Call.storingSettings, Consolidation.isStored]
  rcases outcomes_tell_received (w := empty) (fun _ _ => rfl) hstored with ⟨-, new, hpublished, hnew⟩
  obtain rfl : new = [⟨"outcomes", "clientname", .outcome ⟨"client", "name", "subscriptionCreated", .success,
      [.bare "ch-1" .accepted, .bare "ch-2" .accepted]⟩⟩] := hpublished.symm
  rcases hnew _ (List.mem_singleton.2 rfl) with ⟨r, hevent, -, htells, -⟩
  cases hevent
  exact ⟨_, hpublished, htells, rfl⟩

end World
end CmInventory
