import CmInventory.Proofs.Consolidation.Received

/-!
# Answers in any order

A subscription is forwarded and every plugin answers once. In every order the answer that comes last
completes it (`World.awaits_afterAnswers` says what is awaited before), and what it reports depends on the
settings. With statuses stored, the report tells the statuses of all the answers, so that the order does not
matter. By default nothing is stored and the report has the statuses of the last answer alone: that the
order does not matter is false there (`World.not_same_in_every_order`).
-/

namespace CmInventory

open Inventory

namespace Consolidation

/-- An answer that arrives some time after the call before, under circumstances of its own. -/
structure Delivery where
  delay : Interval
  circumstances : Circumstances
  answer : PluginAnswer

/-- The call that takes in the answer. -/
def Delivery.step (c : Consolidation) (d : Delivery) : Step :=
  ⟨d.delay, d.circumstances, .answer c d.answer⟩

/-- The deliveries bring one answer of each plugin that a subscription was forwarded to, in time, none with
a device that is still pending, and no two with the same device. -/
structure AnsweredBy (clientId subscriptionName : String) (plugins : List String) (life : Interval)
    (ds : List Delivery) : Prop where
  about : ∀ d ∈ ds, d.answer.clientId = clientId ∧ d.answer.subscriptionName = subscriptionName
  once : (ds.map (·.answer.plugin)).Nodup
  mem_plugins : ∀ name, name ∈ plugins ↔ name ∈ ds.map (·.answer.plugin)
  inTime : ∀ d ∈ ds, d.delay.nanos < life.nanos
  settled : ∀ d ∈ ds, ∀ st ∈ d.answer.statuses, st.verdict ≠ .pending
  disjoint : ds.Pairwise fun d e => ∀ st ∈ d.answer.statuses, ∀ st' ∈ e.answer.statuses, st.id ≠ st'.id

/-- All answers are awaited under the key of the subscription. -/
theorem AnsweredBy.key {clientId subscriptionName : String} {plugins : List String} {life : Interval}
    {ds : List Delivery} (h : AnsweredBy clientId subscriptionName plugins life ds) {d : Delivery}
    (hd : d ∈ ds) : subscriptionKey clientId subscriptionName = d.answer.key := by
  rw [PluginAnswer.key, (h.about d hd).1, (h.about d hd).2]

end Consolidation

namespace World

open Consolidation

variable {w : World} {c : Consolidation} {clientId subscriptionName key : String}
  {plugins answered : List String} {d : Delivery} {ds : List Delivery}

/-- The world once a subscription was forwarded to plugins and answers were delivered. -/
def afterAnswers (w : World) (c : Consolidation) (clientId subscriptionName : String) (plugins : List String)
    (ds : List Delivery) : World :=
  w.afterAll (.atOnce (.forward c clientId subscriptionName plugins) :: ds.map (·.step c))

theorem afterAnswers_snoc (w : World) (c : Consolidation) (clientId subscriptionName : String)
    (plugins : List String) (ds : List Delivery) (d : Delivery) :
    w.afterAnswers c clientId subscriptionName plugins (ds ++ [d]) =
      (w.afterAnswers c clientId subscriptionName plugins ds).after (d.step c) := by
  rw [afterAnswers, List.map_append, List.map_singleton, ← List.cons_append, afterAll_snoc]
  rfl

/-! ## What is awaited -/

/-- Of some plugins those are awaited that have not answered. -/
def AwaitsRest (w : World) (key : String) (life : Interval) (plugins answered : List String) : Prop :=
  ∃ awaited : NameSet, w.held? key = some (.startingAt w.time awaited (some life)) ∧
    ∀ name, awaited.Has name ↔ name ∈ plugins ∧ name ∉ answered

theorem awaits_forward (w : World) (c : Consolidation) (clientId subscriptionName : String)
    (plugins : List String) :
    (w.afterAnswers c clientId subscriptionName plugins []).AwaitsRest
        (subscriptionKey clientId subscriptionName) c.config.pendingLife plugins [] ∧
      (w.afterAnswers c clientId subscriptionName plugins []).published = w.published := by
  refine ⟨⟨.ofNames plugins, held?_put, ?_⟩, rfl⟩
  simp [NameSet.has_ofNames]

/-- What is awaited after some time. -/
theorem AwaitsRest.awaited? {life : Interval} (h : w.AwaitsRest key life plugins answered) {delay : Interval}
    (hdelay : delay.nanos < life.nanos) :
    ∃ awaited, (w.advance delay).awaited? key = some awaited ∧
      ∀ name, awaited.Has name ↔ name ∈ plugins ∧ name ∉ answered := by
  rcases h with ⟨awaited, hheld, hhas⟩
  refine ⟨awaited, ?_, hhas⟩
  exact awaited?_of_held? (w := w.advance delay) hheld
    (decide_eq_true (Nat.add_lt_add_left hdelay w.time))

/-- An answer that is not the last leaves the others awaited. -/
theorem AwaitsRest.after_answer
    (h : w.AwaitsRest d.answer.key c.config.pendingLife plugins answered)
    (hdelay : d.delay.nanos < c.config.pendingLife.nanos)
    (hother : ∃ name ∈ plugins, name ∉ answered ++ [d.answer.plugin]) :
    (w.after (d.step c)).AwaitsRest d.answer.key c.config.pendingLife plugins (answered ++ [d.answer.plugin]) ∧
      (w.after (d.step c)).published = w.published := by
  rcases h.awaited? hdelay with ⟨awaited, hawaited, hhas⟩
  have hrest : ∀ name, (awaited.without d.answer.plugin).Has name ↔
      name ∈ plugins ∧ name ∉ answered ++ [d.answer.plugin] := by
    intro name
    rw [NameSet.has_without, hhas, List.mem_append, List.mem_singleton]
    tauto
  -- So the plugin that has not answered yet keeps the subscription open.
  have hnonempty : (awaited.without d.answer.plugin).isEmpty ≠ true := by
    rcases hother with ⟨name, hname⟩
    exact fun hempty => NameSet.isEmpty_iff.1 hempty name ((hrest name).2 hname)
  rcases (@ensures_answer_under d.circumstances (w.advance d.delay) c d.answer).under with
    ⟨htouched, hleaves⟩
  cases hleaves with
  | absent hbefore =>
      rw [hawaited] at hbefore
      cases hbefore
  | waiting hbefore hheld hpublished =>
      rw [hawaited] at hbefore
      cases hbefore
      refine ⟨⟨_, ?_, hrest⟩, hpublished⟩
      rw [← htouched.time] at hheld
      exact hheld
  | complete hbefore hlast =>
      rw [hawaited] at hbefore
      cases hbefore
      exact absurd hlast hnonempty
  | expired hlifeless => omega

/-- While a plugin has not answered, what is awaited are the plugins that have not, and nothing is
published. -/
theorem awaits_afterAnswers (w : World) {rest : List Delivery}
    (hanswers : AnsweredBy clientId subscriptionName plugins c.config.pendingLife (ds ++ rest))
    (hrest : rest ≠ []) :
    (w.afterAnswers c clientId subscriptionName plugins ds).AwaitsRest
        (subscriptionKey clientId subscriptionName) c.config.pendingLife plugins (ds.map (·.answer.plugin)) ∧
      (w.afterAnswers c clientId subscriptionName plugins ds).published = w.published := by
  induction ds using List.reverseRecOn generalizing rest with
  | nil => exact awaits_forward w c clientId subscriptionName plugins
  | append_singleton before d ih =>
      rw [List.append_assoc] at hanswers
      rcases ih hanswers (by simp) with ⟨hawaits, hpublished⟩
      have hd : d ∈ before ++ ([d] ++ rest) := by simp
      rw [hanswers.key hd] at hawaits ⊢
      -- One of those that are still to come is of another plugin.
      have hother : ∃ name ∈ plugins, name ∉ before.map (·.answer.plugin) ++ [d.answer.plugin] := by
        rcases List.exists_mem_of_ne_nil rest hrest with ⟨e, he⟩
        refine ⟨e.answer.plugin, (hanswers.mem_plugins _).2 (List.mem_map_of_mem (by simp [he])), ?_⟩
        have honce := hanswers.once
        rw [← List.append_assoc, List.map_append, List.nodup_append] at honce
        intro hmem
        refine honce.2.2 _ ?_ _ (List.mem_map_of_mem he) rfl
        rwa [List.map_append]
      have hstep := hawaits.after_answer (hanswers.inTime d hd) hother
      rw [afterAnswers_snoc, List.map_append, List.map_singleton]
      exact ⟨hstep.1, hstep.2.trans hpublished⟩

/-- When the last answer arrives, its plugin is the only one that is awaited. -/
theorem awaits_last (w : World)
    (hanswers : AnsweredBy clientId subscriptionName plugins c.config.pendingLife (ds ++ [d])) :
    ∃ awaited, ((w.afterAnswers c clientId subscriptionName plugins ds).advance d.delay).awaited? d.answer.key =
        some awaited ∧ (awaited.without d.answer.plugin).isEmpty = true := by
  have hd : d ∈ ds ++ [d] := by simp
  have hawaits := (awaits_afterAnswers w hanswers (List.cons_ne_nil _ _)).1
  rw [hanswers.key hd] at hawaits
  rcases hawaits.awaited? (hanswers.inTime d hd) with ⟨awaited, hawaited, hhas⟩
  refine ⟨awaited, hawaited, NameSet.isEmpty_iff.2 fun name => ?_⟩
  rw [NameSet.has_without, hhas, hanswers.mem_plugins, List.map_append, List.mem_append,
    List.map_singleton, List.mem_singleton]
  tauto

/-! ## What is reported -/

/-- What is stored when all plugins have answered tells all that they reported. -/
theorem statusesOf_afterAnswers (w : World) (plugins : List String) (hstored : c.isStored = true)
    (habout : ∀ d ∈ ds, d.answer.clientId = clientId ∧ d.answer.subscriptionName = subscriptionName)
    (hkeeps : ∀ d ∈ ds, d.circumstances.KeepsAnswers)
    (hfresh : w.store.statusRows clientId subscriptionName = .empty) :
    ∃ statuses, (w.afterAnswers c clientId subscriptionName plugins ds).store.statusesOf clientId
        subscriptionName = .ok statuses ∧ TellsLatest statuses (ds.flatMap (·.answer.statuses)) := by
  have hreceived : w.received clientId subscriptionName
      (.atOnce (.forward c clientId subscriptionName plugins) :: ds.map (·.step c)) =
        ds.flatMap (·.answer.statuses) := by
    rw [received, received_eq (by simpa [Delivery.step] using hkeeps), List.flatMap_map]
    refine congrArg List.flatten (List.map_congr_left fun d hd => ?_)
    exact if_pos (habout d hd)
  rw [← hreceived]
  exact statusesOf_afterAll hfresh (by simp [Step.atOnce, Delivery.step, Call.settings, hstored])

/-- When the last plugin has answered there is one report. It has the statuses of that answer if none are
stored, and those of all the answers if they are. -/
theorem published_afterAnswers (w : World) (hnotifies : c.config.notifications = true)
    (hanswers : AnsweredBy clientId subscriptionName plugins c.config.pendingLife (ds ++ [d]))
    (hreliable : c.isStored = true → (∀ x ∈ ds ++ [d], x.circumstances.Reliable) ∧
      ∀ client name, w.store.statusRows client name = .empty) :
    ∃ statuses, (w.afterAnswers c clientId subscriptionName plugins (ds ++ [d])).published =
        w.published ++ [c.reported d.answer d.answer.eventType statuses] ∧
      (c.isStored = false → statuses = d.answer.statuses) ∧
      (c.isStored = true → TellsLatest statuses ((ds ++ [d]).flatMap (·.answer.statuses))) := by
  have hd : d ∈ ds ++ [d] := by simp
  have hpublished := (awaits_afterAnswers w hanswers (List.cons_ne_nil _ _)).2
  rcases awaits_last w hanswers with ⟨awaited, hawaited, hlast⟩
  have hreadable : c.isStored = true →
      (w.afterAnswers c clientId subscriptionName plugins ds).store.Readable := fun h =>
    readable_afterAll (hreliable h).2 (by simp [Step.atOnce, Delivery.step, Call.settings, h])
  have hcircumstances : c.isStored = true → d.circumstances.Reliable ∧
      (w.afterAnswers c clientId subscriptionName plugins ds).store.Readable := fun h =>
    ⟨(hreliable h).1 d hd, hreadable h⟩
  rcases (answer_completes (w := (w.afterAnswers c clientId subscriptionName plugins ds).advance d.delay)
    hnotifies (Nat.zero_lt_of_lt (hanswers.inTime d hd)) hcircumstances hawaited hlast).under
    with ⟨statuses, hfinds, hends⟩
  have hown : c.isStored = false → statuses = d.answer.statuses := fun h => (finds_unstored h).1 hfinds
  have hall : c.isStored = true → TellsLatest statuses ((ds ++ [d]).flatMap (·.answer.statuses)) := by
    intro h
    rcases statusesOf_afterAnswers w plugins h hanswers.about
      (fun x hx n a => (hreliable h).1 x hx n (.saveAnswer a)) ((hreliable h).2 _ _) with ⟨found, hok, htells⟩
    have hfinds := (finds_stored h).1 hfinds
    rw [(hanswers.about d hd).1, (hanswers.about d hd).2] at hfinds
    rw [afterAnswers_snoc] at hok
    -- What the report was made of is what is stored once the last answer was taken in.
    obtain rfl : statuses = found := Except.ok.inj (hfinds.symm.trans hok)
    exact htells
  refine ⟨statuses, ?_, hown, hall⟩
  rcases hends with ⟨-, hnew⟩ | ⟨⟨st, hst, hpending⟩, -⟩
  · rw [afterAnswers_snoc, ← hpublished]
    exact hnew
  · -- No device of any answer is pending.
    exfalso
    cases h : c.isStored with
    | false =>
        rw [hown h] at hst
        exact hanswers.settled d hd st hst hpending
    | true =>
        rcases List.mem_flatMap.1 (mem_of_latest? (((hall h).mem_iff st).1 hst)).1 with ⟨x, hx, hst⟩
        exact hanswers.settled x hx st hst hpending

/-- In two orders of the same answers the latest statuses are the same. -/
theorem latest?_of_perm {es : List Delivery} {life : Interval}
    (hds : AnsweredBy clientId subscriptionName plugins life ds)
    (hes : AnsweredBy clientId subscriptionName plugins life es)
    (hsame : (ds.map (·.answer)).Perm (es.map (·.answer))) (id : HandleId) :
    latest? (ds.flatMap (·.answer.statuses)) id = latest? (es.flatMap (·.answer.statuses)) id := by
  refine Option.ext fun st => ?_
  rw [latest?_flatMap hds.disjoint, latest?_flatMap hes.disjoint]
  have hmem : ∀ {xs : List Delivery}, (∃ d ∈ xs, latest? d.answer.statuses id = some st) ↔
      ∃ a ∈ xs.map (·.answer), latest? a.statuses id = some st := by simp
  rw [hmem, hmem]
  exact exists_congr fun a => and_congr_left' hsame.mem_iff

variable {e : Delivery} {es : List Delivery}

/-- Two answers with the same devices are the same answer, or they have none. -/
theorem statuses_eq_iff {life : Interval}
    (hds : AnsweredBy clientId subscriptionName plugins life (ds ++ [d]))
    (hsame : ((ds ++ [d]).map (·.answer)).Perm ((es ++ [e]).map (·.answer))) :
    d.answer.statuses = e.answer.statuses ↔
      d.answer = e.answer ∨ d.answer.statuses = [] ∧ e.answer.statuses = [] := by
  constructor
  · intro hstatuses
    have he : e.answer ∈ (ds ++ [d]).map (·.answer) := hsame.mem_iff.2 (by simp)
    rw [List.map_append, List.mem_append, List.map_singleton, List.mem_singleton] at he
    rcases he with he | he
    · rcases List.mem_map.1 he with ⟨x, hx, hxe⟩
      -- The answer came before, and shares no device with the last one.
      have hdisjoint := (List.pairwise_append.1 hds.disjoint).2.2 x hx d (List.mem_singleton.2 rfl)
      have hnil : e.answer.statuses = [] := by
        refine List.eq_nil_iff_forall_not_mem.2 fun st hst => ?_
        exact hdisjoint st (by rw [hxe]; exact hst) st (hstatuses ▸ hst) rfl
      exact Or.inr ⟨hstatuses.trans hnil, hnil⟩
    · exact Or.inl he.symm
  · rintro (h | ⟨hd, he⟩)
    · rw [h]
    · rw [hd, he]

/-- The statuses of the last answer are those of all answers exactly if no other answer has any. -/
theorem last_tells_all_iff {life : Interval}
    (hds : AnsweredBy clientId subscriptionName plugins life (ds ++ [d])) :
    (∀ x ∈ ds ++ [d], ∀ st ∈ x.answer.statuses, st ∈ d.answer.statuses) ↔
      ∀ x ∈ ds, x.answer.statuses = [] := by
  constructor
  · intro h x hx
    have hdisjoint := (List.pairwise_append.1 hds.disjoint).2.2 x hx d (List.mem_singleton.2 rfl)
    exact List.eq_nil_iff_forall_not_mem.2 fun st hst =>
      hdisjoint st hst st (h x (List.mem_append_left _ hx) st hst) rfl
  · intro h x hx st hst
    rcases List.mem_append.1 hx with hx | hx
    · rw [h x hx] at hst
      cases hst
    · rwa [List.mem_singleton.1 hx] at hst

/-- By default the report has the statuses of the answer that came last, whatever the order. Two orders
report the same statuses exactly if they end with the same answer or with answers that have none, and
nothing is left out exactly if no other answer has any. With statuses stored as well, every order reports
those of all the answers. -/
theorem reports_in_any_order (w : World) (hdefault : c.config = .standard)
    (hds : AnsweredBy clientId subscriptionName plugins SubscriptionConfig.standard.pendingLife (ds ++ [d]))
    (hes : AnsweredBy clientId subscriptionName plugins SubscriptionConfig.standard.pendingLife (es ++ [e]))
    (hsame : ((ds ++ [d]).map (·.answer)).Perm ((es ++ [e]).map (·.answer))) :
    (w.afterAnswers c clientId subscriptionName plugins (ds ++ [d])).published =
        w.published ++ [c.reported d.answer d.answer.eventType d.answer.statuses] ∧
      (w.afterAnswers c clientId subscriptionName plugins (es ++ [e])).published =
        w.published ++ [c.reported e.answer e.answer.eventType e.answer.statuses] ∧
      (d.answer.statuses = e.answer.statuses ↔
        d.answer = e.answer ∨ d.answer.statuses = [] ∧ e.answer.statuses = []) ∧
      ((∀ x ∈ ds ++ [d], ∀ st ∈ x.answer.statuses, st ∈ d.answer.statuses) ↔
        ∀ x ∈ ds, x.answer.statuses = []) ∧
      ∀ stored : Consolidation, stored.config = { c.config with persistence := true } → stored.hasStore = true →
        (∀ x ∈ (ds ++ [d]) ++ (es ++ [e]), x.circumstances.Reliable) →
        (∀ client name, w.store.statusRows client name = .empty) →
        ∃ statuses, TellsLatest statuses ((ds ++ [d]).flatMap (·.answer.statuses)) ∧
          (w.afterAnswers stored clientId subscriptionName plugins (ds ++ [d])).published =
            w.published ++ [stored.reported d.answer d.answer.eventType statuses] ∧
          (w.afterAnswers stored clientId subscriptionName plugins (es ++ [e])).published =
            w.published ++ [stored.reported e.answer e.answer.eventType statuses] := by
  have hunstored : c.isStored = false := by
    rw [isStored, hdefault]
    rfl
  have hown : ∀ {xs : List Delivery} {x : Delivery},
      AnsweredBy clientId subscriptionName plugins SubscriptionConfig.standard.pendingLife (xs ++ [x]) →
      (w.afterAnswers c clientId subscriptionName plugins (xs ++ [x])).published =
        w.published ++ [c.reported x.answer x.answer.eventType x.answer.statuses] := by
    intro xs x hxs
    have hnotifies : c.config.notifications = true := by rw [hdefault, SubscriptionConfig.standard]
    rw [← hdefault] at hxs
    rcases published_afterAnswers w hnotifies hxs (fun h => absurd (hunstored.symm.trans h) Bool.false_ne_true)
      with ⟨statuses, hpublished, hstatuses, -⟩
    rwa [hstatuses hunstored] at hpublished
  refine ⟨hown hds, hown hes, statuses_eq_iff hds hsame, last_tells_all_iff hds, ?_⟩
  intro stored hconfig hhas hreliable hfresh
  have hlife : stored.config.pendingLife = SubscriptionConfig.standard.pendingLife := by
    rw [hconfig, hdefault]
    rfl
  have hstored : stored.isStored = true := by
    rw [isStored, hconfig, hhas]
    rfl
  have hnotifies : stored.config.notifications = true := by
    rw [hconfig, hdefault]
    rfl
  have hall : ∀ {xs : List Delivery} {x : Delivery},
      AnsweredBy clientId subscriptionName plugins SubscriptionConfig.standard.pendingLife (xs ++ [x]) →
      (∀ y ∈ xs ++ [x], y.circumstances.Reliable) →
      ∃ statuses, (w.afterAnswers stored clientId subscriptionName plugins (xs ++ [x])).published =
          w.published ++ [stored.reported x.answer x.answer.eventType statuses] ∧
        TellsLatest statuses ((xs ++ [x]).flatMap (·.answer.statuses)) := by
    intro xs x hxs hrel
    rw [← hlife] at hxs
    rcases published_afterAnswers w hnotifies hxs (fun _ => ⟨hrel, hfresh⟩)
      with ⟨statuses, hpublished, -, htells⟩
    exact ⟨statuses, hpublished, htells hstored⟩
  rcases hall hds fun x hx => hreliable x (List.mem_append_left _ hx) with ⟨statuses, hpublished, htells⟩
  rcases hall hes fun x hx => hreliable x (List.mem_append_right _ hx) with ⟨others, hpublished', htells'⟩
  -- A list that tells the latest statuses is determined by them, and they are the same in both orders.
  obtain rfl : statuses = others := htells.unique htells' (latest?_of_perm hds hes hsame)
  exact ⟨statuses, htells, hpublished, hpublished'⟩

/-- An answer by which a device accepts. -/
def acceptance : Delivery :=
  ⟨.zero, undisturbed, .of "first" [.bare "ch-1" .accepted]⟩

/-- An answer by which another device rejects. -/
def refusal : Delivery :=
  ⟨.zero, undisturbed, .of "second" [.bare "ch-2" .rejected]⟩

theorem answeredBy_both :
    AnsweredBy "client" "name" ["first", "second"] SubscriptionConfig.standard.pendingLife [acceptance, refusal] ∧
      AnsweredBy "client" "name" ["first", "second"] SubscriptionConfig.standard.pendingLife
        [refusal, acceptance] := by
  constructor <;>
  · refine ⟨by simp [acceptance, refusal, PluginAnswer.of], by simp [acceptance, refusal, PluginAnswer.of],
      by simp [acceptance, refusal, PluginAnswer.of, or_comm], ?_,
      by simp [acceptance, refusal, PluginAnswer.of, DeviceStatus.bare],
      by simp [acceptance, refusal, PluginAnswer.of, DeviceStatus.bare]⟩
    intro d hd
    simp only [List.mem_cons, List.not_mem_nil, or_false] at hd
    rcases hd with rfl | rfl <;> decide

/-- By default one order ends in a success and the other one in a failure. -/
theorem not_same_in_every_order :
    ¬ ∀ (w : World) (c : Consolidation) (clientId subscriptionName : String) (plugins : List String)
        (ds es : List Delivery), c.config = .standard →
        AnsweredBy clientId subscriptionName plugins SubscriptionConfig.standard.pendingLife ds →
        AnsweredBy clientId subscriptionName plugins SubscriptionConfig.standard.pendingLife es →
        (ds.map (·.answer)).Perm (es.map (·.answer)) →
        ∀ (p q : Published) (r r' : OutcomeReport), p.event = .outcome r → q.event = .outcome r' →
          (w.afterAnswers c clientId subscriptionName plugins ds).published = w.published ++ [p] →
          (w.afterAnswers c clientId subscriptionName plugins es).published = w.published ++ [q] →
          r.outcome = r'.outcome ∧ r.statuses = r'.statuses := by
  intro h
  have hsame := h empty storelessSettings "client" "name" ["first", "second"] [acceptance, refusal]
    [refusal, acceptance] rfl answeredBy_both.1 answeredBy_both.2 (List.Perm.swap _ _ _)
    (storelessSettings.reported refusal.answer "subscriptionCreated" refusal.answer.statuses)
    (storelessSettings.reported acceptance.answer "subscriptionCreated" acceptance.answer.statuses)
    _ _ rfl rfl rfl rfl
  exact absurd hsame.1 (by decide)

theorem reports_in_any_order_both :
    (empty.afterAnswers storelessSettings "client" "name" ["first", "second"] [acceptance, refusal]).published =
        [⟨"outcomes", "clientname",
          .outcome ⟨"client", "name", "subscriptionCreated", .failure, [.bare "ch-2" .rejected]⟩⟩] ∧
      (empty.afterAnswers storelessSettings "client" "name" ["first", "second"] [refusal, acceptance]).published =
        [⟨"outcomes", "clientname",
          .outcome ⟨"client", "name", "subscriptionCreated", .success, [.bare "ch-1" .accepted]⟩⟩] ∧
      ∃ statuses, TellsLatest statuses [.bare "ch-1" .accepted, .bare "ch-2" .rejected] ∧
        (empty.afterAnswers Call.storingSettings "client" "name" ["first", "second"]
            [acceptance, refusal]).published =
          [Call.storingSettings.reported refusal.answer "subscriptionCreated" statuses] := by
  have hreliable : ∀ x ∈ [acceptance, refusal] ++ [refusal, acceptance], x.circumstances.Reliable := by
    simp [acceptance, refusal, reliable_undisturbed]
  have hone : AnsweredBy "client" "name" ["first", "second"] SubscriptionConfig.standard.pendingLife
      ([acceptance] ++ [refusal]) := answeredBy_both.1
  have hother : AnsweredBy "client" "name" ["first", "second"] SubscriptionConfig.standard.pendingLife
      ([refusal] ++ [acceptance]) := answeredBy_both.2
  rcases reports_in_any_order (c := storelessSettings) empty rfl hone hother (List.Perm.swap _ _ _)
    with ⟨hone, hother, -, -, hstored⟩
  rcases hstored Call.storingSettings rfl rfl hreliable (fun _ _ => rfl) with ⟨statuses, htells, hall, -⟩
  exact ⟨hone, hother, statuses, htells, hall⟩

end World
end CmInventory
