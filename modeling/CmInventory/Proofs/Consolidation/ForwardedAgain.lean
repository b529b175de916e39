import CmInventory.Proofs.Consolidation.Received

/-!
# Subscriptions that are forwarded again

The statuses in the store are found by the client and the name of the subscription, and nothing takes them
away when the subscription is forwarded again. So the obvious statement, that the next report tells what was
received since, is false (`World.not_only_received_since`): a status from before stays until its device
reports again, is reported with the others, and holds the report back if the device is pending
(`World.next_report_tells_all`).
-/

namespace CmInventory

open Inventory

namespace World

variable {w : World} {before since : List Consolidation.Step} {again x : Consolidation.Step}
  {settings : Consolidation} {clientId subscriptionName : String} {plugins : List String}

/-- Forwarding a subscription divides what is received into what was received before and what is received
since. -/
theorem received_again (w : World) (hagain : again.call = .forward settings clientId subscriptionName plugins) :
    w.received clientId subscriptionName (before ++ again :: since) =
      w.received clientId subscriptionName before ++
        (w.afterAll (before ++ [again])).received clientId subscriptionName since := by
  rw [received_append, received, takesIn, hagain, afterAll_snoc]
  rfl

/-- What is listed of the time before is what was not reported again. -/
theorem tells_since_iff {statuses earlier later : List DeviceStatus}
    (h : TellsLatest statuses (earlier ++ later)) :
    (∀ st ∈ statuses, st ∈ later) ↔ ∀ st ∈ earlier, ∃ st' ∈ later, st'.id = st.id := by
  constructor
  · intro hlater st hst
    rcases (h.listed_iff st.id).2 ⟨st, List.mem_append_left _ hst, rfl⟩ with ⟨st', hst', hid⟩
    exact ⟨st', hlater st' hst', hid⟩
  · intro hagain st hst
    -- What is listed is the latest of its device, and that is from before only if nothing came since.
    have hlatest := (h.mem_iff st).1 hst
    rw [latest?_append] at hlatest
    cases hlater : latest? later st.id with
    | some st' =>
        rw [hlater, Option.some_or] at hlatest
        cases hlatest
        exact (mem_of_latest? hlater).1
    | none =>
        rw [hlater, Option.none_or] at hlatest
        rcases hagain st (mem_of_latest? hlatest).1 with ⟨st', hst', hid⟩
        exact absurd hid (latest?_eq_none.1 hlater st' hst')

/-- A report after a subscription was forwarded again tells the latest statuses of all that was received for
it, before and since. It has statuses from since alone exactly if every device from before reported again,
and the answer of the last plugin publishes it exactly if no device is pending by its latest status. -/
theorem next_report_tells_all (w : World) (before since : List Consolidation.Step)
    (again x : Consolidation.Step) (hfresh : ∀ client name, w.store.statusRows client name = .empty)
    (hstored : ∀ y ∈ before ++ again :: since ++ [x], y.call.settings.isStored = true)
    (hagain : again.call = .forward settings clientId subscriptionName plugins)
    (hx : x.call.subscription = (clientId, subscriptionName)) :
    let earlier := w.received clientId subscriptionName before
    let later := (w.afterAll (before ++ [again])).received clientId subscriptionName (since ++ [x])
    let v := w.afterAll (before ++ again :: since)
    (∃ new, (v.after x).published = v.published ++ new ∧
        ∀ p ∈ new, ∃ r : OutcomeReport, p.event = .outcome r ∧ r.Tells (earlier ++ later) ∧
          ((∀ st ∈ r.statuses, st ∈ later) ↔ ∀ st ∈ earlier, ∃ st' ∈ later, st'.id = st.id)) ∧
      ∀ c a awaited, x.call = .answer c a → c.config.notifications = true →
        0 < c.config.pendingLife.nanos → x.circumstances.Reliable →
        (v.advance x.delay).awaited? a.key = some awaited → (awaited.without a.plugin).isEmpty = true →
        ((v.after x).published ≠ v.published ↔
          ∀ st, (latest? later st.id).or (latest? earlier st.id) = some st → st.verdict ≠ .pending) := by
  intro earlier later v
  have hreceived : w.received clientId subscriptionName (before ++ again :: since ++ [x]) =
      earlier ++ later := by
    rw [List.append_assoc, List.cons_append, received_again w hagain]
  have hv : v.after x = w.afterAll (before ++ again :: since ++ [x]) := (afterAll_snoc w _ x).symm
  rw [hv]
  refine ⟨?_, ?_⟩
  · rcases published_tells hfresh hstored with ⟨new, hpublished, hnew⟩
    refine ⟨new, hpublished, fun p hp => ?_⟩
    rcases hnew p hp with ⟨r, hevent, habout, htells, -⟩
    rw [hx, Prod.mk.injEq] at habout
    rw [habout.1, habout.2, hreceived] at htells
    exact ⟨r, hevent, htells, tells_since_iff htells.latest⟩
  · intro c a awaited hcall hnotifies hlife hreliable hawaited hlast
    rw [hcall] at hx
    cases hx
    have h := publishes_iff hfresh hstored hcall hnotifies hlife hreliable hawaited hlast
    rw [hreceived] at h
    simpa only [latest?_append] using h

/-- A subscription whose only device was pending when the wait ended. -/
def unsettledRound : List Consolidation.Step :=
  [.atOnce (.forward Consolidation.Call.storingSettings "client" "name" ["first"]),
    .atOnce (.answer Consolidation.Call.storingSettings (.of "first" [.bare "ch-1" .pending])),
    .atOnce (.timeOut Consolidation.Call.storingSettings (.of "first" []))]

/-- The subscription is forwarded again. -/
def nextRound : Consolidation.Step :=
  .atOnce (.forward Consolidation.Call.storingSettings "client" "name" ["first"])

/-- The answer to the second round, about another device. -/
def nextAnswer : Consolidation.Step :=
  .atOnce (.answer Consolidation.Call.storingSettings (.of "first" [.bare "ch-2" .accepted]))

/-- The end of the wait in the second round. -/
def nextEnd : Consolidation.Step :=
  .atOnce (.timeOut Consolidation.Call.storingSettings (.of "first" []))

theorem stored_rounds : ∀ y ∈ unsettledRound ++ nextRound :: [nextAnswer] ++ [nextEnd],
    y.call.settings.isStored = true := by
  simp [unsettledRound, nextRound, nextAnswer, nextEnd, Consolidation.Step.atOnce,
    Consolidation.Call.settings, Consolidation.Call.storingSettings, Consolidation.isStored]

/-- The device that was pending in the first round is reported in the second one. -/
theorem not_only_received_since :
    ¬ ∀ (w : World) (before since : List Consolidation.Step) (again x : Consolidation.Step) (c : Consolidation)
        (clientId subscriptionName : String) (plugins : List String),
        (∀ client name, w.store.statusRows client name = .empty) →
        (∀ y ∈ before ++ again :: since ++ [x], y.call.settings.isStored = true) →
        again.call = .forward c clientId subscriptionName plugins →
        x.call.subscription = (clientId, subscriptionName) →
        (∃ new, (w.afterAll before).published = w.published ++ new ∧
          ∃ p ∈ new, p.isReport (subscriptionKey clientId subscriptionName) = true) →
        (w.afterAll (before ++ again :: since)).published = (w.afterAll before).published →
        ∀ (p : Published) (r : OutcomeReport),
          (w.afterAll (before ++ again :: since ++ [x])).published =
            (w.afterAll (before ++ again :: since)).published ++ [p] → p.event = .outcome r →
          ∀ st ∈ r.statuses,
            st ∈ (w.afterAll (before ++ [again])).received clientId subscriptionName (since ++ [x]) := by
  intro h
  have hlists := h empty unsettledRound [nextAnswer] nextRound nextEnd Consolidation.Call.storingSettings
    "client" "name" ["first"] (fun _ _ => rfl) stored_rounds rfl rfl
    ⟨_, rfl, _, List.mem_singleton.2 rfl, by decide⟩ rfl
    ⟨"outcomes", "clientname", .outcome ⟨"client", "name", subscriptionCreated, .partialSuccess,
      [.bare "ch-1" .pending, .bare "ch-2" .accepted]⟩⟩ _ rfl rfl (.bare "ch-1" .pending) (by simp)
  exact absurd hlists (by decide)

/-- The answer of the second round is held back by the device of the first, and the end of the wait reports
both. -/
theorem next_report_tells_all_unsettled :
    (empty.afterAll (unsettledRound ++ [nextRound, nextAnswer])).published =
        (empty.afterAll (unsettledRound ++ [nextRound])).published ∧
      ∃ r : OutcomeReport, (empty.afterAll (unsettledRound ++ [nextRound, nextAnswer, nextEnd])).published =
          (empty.afterAll (unsettledRound ++ [nextRound])).published ++ [⟨"outcomes", "clientname", .outcome r⟩] ∧
        r.Tells [.bare "ch-1" .pending, .bare "ch-2" .accepted] := by
  constructor
  · have hstored : ∀ y ∈ unsettledRound ++ nextRound :: [] ++ [nextAnswer], y.call.settings.isStored = true :=
      fun y hy => stored_rounds y (List.mem_append_left [nextEnd] (by simpa using hy))
    rcases next_report_tells_all empty unsettledRound [] nextRound nextAnswer (fun _ _ => rfl) hstored rfl rfl
      with ⟨-, hpublishes⟩
    by_contra hpublished
    have hsettled := (hpublishes _ _ (NameSet.ofNames ["first"]) rfl rfl (by decide) reliable_undisturbed
      rfl rfl).1 hpublished
    exact hsettled (.bare "ch-1" .pending) (by decide) rfl
  · rcases next_report_tells_all empty unsettledRound [nextAnswer] nextRound nextEnd (fun _ _ => rfl)
      stored_rounds rfl rfl with ⟨⟨new, hpublished, hnew⟩, -⟩
    obtain rfl : new = [⟨"outcomes", "clientname", .outcome ⟨"client", "name", subscriptionCreated,
        .partialSuccess, [.bare "ch-1" .pending, .bare "ch-2" .accepted]⟩⟩] :=
      (List.append_cancel_left hpublished).symm
    rcases hnew _ (List.mem_singleton.2 rfl) with ⟨r, hevent, htells, -⟩
    cases hevent
    exact ⟨_, hpublished, htells⟩

end World
end CmInventory
