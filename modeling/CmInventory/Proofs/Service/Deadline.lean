import CmInventory.Proofs.Service.Lifeless

/-!
# Reports by the deadline

A subscription that is forwarded once is reported on by its deadline: by the last of the answers, or else by
the end of the wait for them. The wait ends with a report only if the entry of the subscription still lives
then. Answers prolong the life of an entry, so that it lives at least as long as it would without any
(`Service.Awaiting`). The settings by which there is one report at the deadline, whatever was answered, are
those by which entries live longer than answers are waited for (`Service.reported_at_deadline_iff`).
-/

namespace CmInventory
namespace Service

variable {config : Config} {key : String} {r : Chronicle} {s : Service} {w v : World} {life : Interval}
  {d : Option Deed} {c : Circumstances} {n made timeout : Nat} {agenda : List (Appointment Task)}

/-! ## Before the first forwarding, and after the report -/

/-- Nothing is held under a key, and so many reports were published. -/
structure Settled (key : String) (n : Nat) (w : World) : Prop where
  held : w.held? key = none
  count : w.reportCount key = n

/-- Only another forwarding could change what is settled. -/
theorem Settled.done (h : Settled key n w) (hdone : World.Done life key w v d)
    (hsame : (r.note key d).forwardings.length = r.forwardings.length) : Settled key n v := by
  cases hdone with
  | forward hkey =>
      rw [Chronicle.note, if_pos hkey] at hsame
      exact absurd hsame (Nat.succ_ne_self _)
  | wait time held count => exact ⟨held.trans h.held, count.trans h.count⟩
  | nothing hother quiet => exact ⟨quiet.held.trans h.held, quiet.count.trans h.count⟩
  | answer hkey time leaves =>
      have hnone := World.awaited?_of_unheld h.held
      cases leaves with
      | absent _ held published => exact ⟨held, (World.reportCount_congr published).trans h.count⟩
      | expired _ held published => exact ⟨held, (World.reportCount_congr published).trans h.count⟩
      | waiting before => cases hnone.symm.trans before
      | complete before => cases hnone.symm.trans before

theorem Settled.ended (h : Settled key n v) (hended : v.Quiet key w ∨ v.WaitEnded c key w) :
    Settled key n w := by
  rcases hended with hquiet | hended
  · exact ⟨hquiet.held.trans h.held, hquiet.count.trans h.count⟩
  · have hnone := World.awaited?_of_unheld h.held
    exact ⟨hended.held, (hended.count_of_unawaited hnone).trans h.count⟩

theorem Settled.feed (h : Settled key n s.world) (htracks : Tracks config key r s) (c : Circumstances)
    {i : Input} (hsame : (r.note key i.deed?).forwardings.length = r.forwardings.length) :
    Settled key n (s.feed c i).world := by
  rcases feed_cases htracks.onlyWaits c i key with ⟨v, hdone, -, -, -, hended⟩
  exact (h.done hdone hsame).ended (hended.imp And.left And.left)

theorem Settled.serve {inputs : List Input} (h : Settled key n (serve c config inputs).world)
    (later : List Input) (hsame : (chronicle key (inputs ++ later)).forwardings.length =
      (chronicle key inputs).forwardings.length) :
    Settled key n (Service.serve c config (inputs ++ later)).world := by
  induction later using List.reverseRecOn with
  | nil =>
      rw [List.append_nil]
      exact h
  | append_singleton later i ih =>
      -- The number of forwardings never falls, so it was the same all along.
      rw [← List.append_assoc] at hsame ⊢
      have hle := length_chronicle_le key inputs later
      have hle' := length_chronicle_le key (inputs ++ later) [i]
      have hbefore : (chronicle key (inputs ++ later)).forwardings.length =
          (chronicle key inputs).forwardings.length := by omega
      rw [serve_snoc]
      refine (ih hbefore).feed (tracks_serve c config key (inputs ++ later)) c ?_
      rw [← chronicle_snoc, hsame, hbefore]

/-! ## Between the forwarding and the report -/

/-- The answers to a subscription that was forwarded at a time are waited for. The entry lives at least as
long as if nobody had answered. -/
structure Awaiting (timeout life : Nat) (key : String) (made : Nat) (w : World)
    (agenda : List (Appointment Task)) : Prop where
  count : w.reportCount key = 0
  held : ∃ e, w.held? key = some e ∧ ∀ time, time < made + life → e.isLive time = true
  planned : ∃ x ∈ agenda, x.deadline = made + timeout ∧ ∃ a, x.task = .timeOut a ∧ a.key = key

theorem Awaiting.awaited? (h : Awaiting timeout life.nanos key made w agenda)
    (hlive : w.time < made + life.nanos) : ∃ plugins, w.awaited? key = some plugins := by
  rcases h.held with ⟨e, he, hlives⟩
  exact ⟨e.value, World.awaited?_of_held? he (hlives w.time hlive)⟩

theorem isLive_startingAt {made time now : Nat} {plugins : NameSet} (hlater : made ≤ now)
    (h : time < made + life.nanos) :
    (CacheEntry.startingAt now plugins (some life)).isLive time = true :=
  decide_eq_true (Nat.lt_of_lt_of_le h (Nat.add_le_add_right hlater _))

/-- A deed after which the entry still lives leaves the wait on, or it was the last answer. -/
theorem Awaiting.done (h : Awaiting timeout life.nanos key made w agenda)
    (hdone : World.Done life key w v d)
    (hsame : (r.note key d).forwardings.length = r.forwardings.length) (hmade : made ≤ w.time)
    (hlive : v.time < made + life.nanos) (planned : List (Appointment Task)) :
    Awaiting timeout life.nanos key made v (agenda ++ planned) ∨ Settled key 1 v := by
  have hplanned : ∃ x ∈ agenda ++ planned, x.deadline = made + timeout ∧
      ∃ a, x.task = .timeOut a ∧ a.key = key := by
    rcases h.planned with ⟨x, hx, hwait⟩
    exact ⟨x, List.mem_append_left _ hx, hwait⟩
  cases hdone with
  | forward hkey =>
      rw [Chronicle.note, if_pos hkey] at hsame
      exact absurd hsame (Nat.succ_ne_self _)
  | wait time held count =>
      refine Or.inl ⟨count.trans h.count, ?_, hplanned⟩
      rw [held]
      exact h.held
  | nothing hother quiet =>
      refine Or.inl ⟨quiet.count.trans h.count, ?_, hplanned⟩
      rw [quiet.held]
      exact h.held
  | answer hkey time leaves =>
      rw [time] at hlive
      rcases h.awaited? hlive with ⟨plugins, hplugins⟩
      cases leaves with
      | absent before => cases hplugins.symm.trans before
      | waiting before held published =>
          -- The answer put the entry anew, with all of its life before it.
          refine Or.inl ⟨(World.reportCount_congr published).trans h.count, ⟨_, held, ?_⟩, hplanned⟩
          exact fun _ => isLive_startingAt hmade
      | complete before last held reports =>
          refine Or.inr ⟨held, ?_⟩
          rw [reports.count, if_pos rfl, h.count]
      | expired lifeless => omega

/-- The wait goes on unless it is due. Its end publishes the report. -/
theorem Awaiting.ended (h : Awaiting timeout life.nanos key made v agenda) (hc : c.Reliable)
    (hreadable : v.store.Readable) (hlive : v.time < made + life.nanos)
    (hended : (v.Quiet key w ∧ ∀ x ∈ agenda, x.deadline ≤ v.time →
        ∀ a, x.task = .timeOut a → a.key ≠ key) ∨ v.WaitEnded c key w) :
    Awaiting timeout life.nanos key made w (agenda.filter fun x => !decide (x.deadline ≤ v.time)) ∨
      Settled key 1 w := by
  rcases hended with ⟨hquiet, hnone⟩ | hended
  · refine Or.inl ⟨hquiet.count.trans h.count, ?_, ?_⟩
    · rw [hquiet.held]
      exact h.held
    · rcases h.planned with ⟨x, hx, hdeadline, a, htask, hkey⟩
      refine ⟨x, List.mem_filter.2 ⟨hx, ?_⟩, hdeadline, a, htask, hkey⟩
      have hlater : ¬ x.deadline ≤ v.time := fun hdue => hnone x hx hdue a htask hkey
      simpa using hlater
  · refine Or.inr ⟨hended.held, ?_⟩
    rcases h.awaited? hlive with ⟨plugins, hplugins⟩
    rw [hended.count_of_awaited hc hreadable (by simp [hplugins]), h.count]

/-! ## Runs -/

/-- As long as a subscription was forwarded once at most, and its entry lives at least without answers:
nothing was reported before the forwarding, and after it the answers are waited for, or the report was
published. -/
structure OnTime (timeout : Nat) (life : Interval) (key : String) (r : Chronicle) (w : World)
    (agenda : List (Appointment Task)) : Prop where
  unforwarded : r.forwardings = [] → Settled key 0 w
  forwarded : ∀ f, r.forwardings = [f] → r.time < f.time + life.nanos →
    Awaiting timeout life.nanos key f.time w agenda ∨ Settled key 1 w

/-- A deed that leaves the one forwarding as it is. -/
theorem OnTime.done_forwarded {f : Forwarding} (h : OnTime timeout life key r w agenda)
    (hordered : r.Ordered) (htime : w.time = r.time) (hdone : World.Done life key w v d)
    (hf : r.forwardings = [f]) (hsame : (r.note key d).forwardings.length = r.forwardings.length)
    (hlive : v.time < f.time + life.nanos) (planned : List (Appointment Task)) :
    Awaiting timeout life.nanos key f.time v (agenda ++ planned) ∨ Settled key 1 v := by
  have hmade : f.time ≤ w.time := by
    rw [htime]
    exact hordered.past f (by simp [hf])
  have hearlier : r.time < f.time + life.nanos := by
    rw [← htime]
    exact Nat.lt_of_le_of_lt hdone.time_le hlive
  rcases h.forwarded f hf hearlier with hawaiting | hsettled
  · exact hawaiting.done hdone hsame hmade hlive planned
  · exact Or.inr (hsettled.done hdone hsame)

theorem OnTime.done (h : OnTime config.subscription.timeout.nanos config.subscription.pendingLife key r
      s.world s.agenda.appointments) (htracks : Tracks config key r s) (hordered : r.Ordered)
    (hdone : World.Done config.subscription.pendingLife key s.world v d) :
    OnTime config.subscription.timeout.nanos config.subscription.pendingLife key (r.note key d) v
      (s.agenda.appointments ++ s.planned d) := by
  have htime := time_of_done hdone htracks.clock
  rcases Chronicle.note_forwardings key r d with
    ⟨n, rfl, hkey, hr⟩ | ⟨a, g, earlier, -, -, hg, hr⟩ | ⟨-, hr⟩
  · rw [hr]
    refine ⟨fun hnil => (by cases hnil), ?_⟩
    intro f hf hlive
    rcases List.cons.inj hf with ⟨rfl, hnil⟩
    -- The first forwarding puts the entry, and the wait on the agenda.
    cases hdone with
    | nothing hother => exact absurd hkey (hother _ rfl)
    | forward _ time held count =>
        refine Or.inl ⟨count.trans (h.unforwarded hnil).count, ⟨_, held, ?_⟩, ?_⟩
        · rw [htracks.clock]
          exact fun _ => isLive_startingAt (Nat.le_refl _)
        · refine ⟨_, List.mem_append_right _ (List.mem_singleton.2 rfl), ?_, standIn n, rfl, hkey⟩
          rw [htracks.clock, htracks.settings]
  · have hsame : (r.note key d).forwardings.length = r.forwardings.length := by
      rw [hr, hg]
      rfl
    rw [hr] at htime ⊢
    refine ⟨fun hnil => (by cases hnil), ?_⟩
    intro f hf hlive
    -- The forwarding is the one before, with one more answer.
    rcases List.cons.inj hf with ⟨rfl, rfl⟩
    exact h.done_forwarded hordered htracks.clock hdone hg hsame (htime ▸ hlive) _
  · have hsame : (r.note key d).forwardings.length = r.forwardings.length := by rw [hr]
    refine ⟨?_, ?_⟩
    · rw [hr]
      exact fun hnil => (h.unforwarded hnil).done hdone hsame
    · rw [hr, ← htime]
      intro f hf hlive
      exact h.done_forwarded hordered htracks.clock hdone hf hsame hlive _

theorem onTime_serve (hc : c.Reliable) (config : Config) (key : String) (inputs : List Input) :
    OnTime config.subscription.timeout.nanos config.subscription.pendingLife key (chronicle key inputs)
      (serve c config inputs).world (serve c config inputs).agenda.appointments := by
  induction inputs using List.reverseRecOn with
  | nil => exact ⟨fun _ => ⟨rfl, rfl⟩, fun f hf => (by cases hf)⟩
  | append_singleton inputs i ih =>
      have htracks := tracks_serve c config key inputs
      rw [chronicle_snoc, serve_snoc]
      rcases feed_cases htracks.onlyWaits c i key with ⟨v, hdone, hreadable, -, hagenda, hended⟩
      rw [htracks.settings] at hdone
      have hv := ih.done htracks (ordered_chronicle key inputs) hdone
      have htime := time_of_done hdone htracks.clock
      -- The deed was done; what is due is left to end.
      refine ⟨?_, ?_⟩
      · exact fun hnil => (hv.unforwarded hnil).ended (hended.imp And.left And.left)
      · intro f hf hlive
        rw [hagenda]
        rcases hv.forwarded f hf hlive with hawaiting | hsettled
        · exact hawaiting.ended hc (hreadable htracks.readable) (htime ▸ hlive)
            (hended.imp_right And.left)
        · exact Or.inr (hsettled.ended (hended.imp And.left And.left))

/-- Once the deadline has come, and the entry could still live, the report was published. -/
theorem settled_at_deadline (hc : c.Reliable) {inputs : List Input} {f : Forwarding}
    (hf : (chronicle key inputs).forwardings = [f])
    (hdeadline : f.time + config.subscription.timeout.nanos ≤ (chronicle key inputs).time)
    (hlive : (chronicle key inputs).time < f.time + config.subscription.pendingLife.nanos) :
    Settled key 1 (serve c config inputs).world := by
  rcases (onTime_serve hc config key inputs).forwarded f hf hlive with hawaiting | hsettled
  · -- What is still on the agenda is not overdue.
    rcases hawaiting.planned with ⟨x, hx, hx', -⟩
    have hlater := ((tracks_serve c config key inputs).waits x hx).1
    rw [hx'] at hlater
    exact absurd hdeadline (Nat.not_le.2 hlater)
  · exact hsettled

/-- The clock of a service does not end. On a clock that ends, what a service is told of a run stands as long as
the deadline of an entry that is put now can be shown: so could all the deadlines before. -/
theorem showsDeadline_serve {last : Nat} (c : Circumstances) (config : Config) (key : String)
    (inputs later : List Input)
    (h : showsDeadline last (chronicle key (inputs ++ later)).time (some config.subscription.pendingLife) =
      true) :
    showsDeadline last (serve c config inputs).world.time (some config.subscription.pendingLife) = true := by
  rw [showsDeadline_some] at h ⊢
  rw [(tracks_serve c config key inputs).clock]
  exact Nat.le_trans (Nat.add_le_add_right (time_chronicle_le key inputs later) _) h

/-! ## An entry that does not live until the deadline -/

/-- A subscription is forwarded, and the time for answers passes. -/
def unansweredInputs (timeout : Interval) : List Input :=
  [.ofNotice loneNotice, .wait timeout]

theorem chronicle_unanswered (timeout : Interval) :
    chronicle loneNotice.key (unansweredInputs timeout) =
      ⟨timeout.nanos, [⟨0, ["plugin"], []⟩]⟩ := by
  simp only [chronicle, unansweredInputs, List.foldl_cons, List.foldl_nil, Chronicle.note_notice,
    Chronicle.note_wait, Nat.zero_add]
  rfl

theorem Tracks.reportCount_unanswered (h : Tracks config loneNotice.key r s) {timeout : Interval}
    (hsettings : config.subscription.timeout = timeout) (htimeout : 0 < timeout.nanos)
    (hshort : config.subscription.pendingLife.nanos ≤ timeout.nanos) (c : Circumstances) :
    ((unansweredInputs timeout).foldl (Service.feed c) s).world.reportCount loneNotice.key =
      s.world.reportCount loneNotice.key := by
  rw [unansweredInputs, List.foldl_cons, List.foldl_cons, List.foldl_nil]
  have htracks := h.feed c (.ofNotice loneNotice)
  have htime := h.time_notice loneNotice rfl c
  rcases h.feed_notice rfl (hsettings ▸ htimeout) c with ⟨hheld, hcount, -⟩
  generalize s.feed c (.ofNotice loneNotice) = s₁ at htracks htime hheld hcount ⊢
  refine (htracks.feed_wait_late ?_ c).trans hcount
  intro e he
  rw [hheld, Option.some.injEq] at he
  rw [← he, htime]
  exact decide_eq_false (Nat.not_lt.2 (Nat.add_le_add_left hshort _))

theorem reportCount_unanswered {timeout : Interval} (hsettings : config.subscription.timeout = timeout)
    (hshort : config.subscription.pendingLife.nanos ≤ timeout.nanos) (c : Circumstances) :
    (serve c config (unansweredInputs timeout)).world.reportCount loneNotice.key = 0 := by
  by_cases hlife : config.subscription.pendingLife.nanos = 0
  · exact reportCount_serve_lifeless c loneNotice.key hlife _
  · have htimeout : 0 < timeout.nanos := by omega
    exact (tracks_serve c config loneNotice.key []).reportCount_unanswered hsettings htimeout hshort c

/-! ## The settings by which there is a report at the deadline -/

theorem nanos_lt_nanos_iff {m n : UInt64} :
    (Interval.ofSeconds m).nanos < (Interval.ofSeconds n).nanos ↔ m < n := by
  rw [Interval.nanos_ofSeconds, Interval.nanos_ofSeconds, UInt64.lt_iff_toNat_lt]
  omega

/-- Where the clock has come to the deadline of a subscription within the life of its entry, there is one
report from then on, as long as the subscription is not forwarded again. There is one report at every
deadline just if entries live longer than answers are waited for. The clock is one that shows the deadlines of
all entries; up to which time another clock does tells `showsDeadline_serve`. -/
theorem reported_at_deadline_iff (config : Config) :
    (∀ c, c.Reliable → ∀ key inputs later f, (chronicle key inputs).forwardings = [f] →
      f.time + config.subscription.timeout.nanos ≤ (chronicle key inputs).time →
      (chronicle key inputs).time < f.time + config.subscription.pendingLife.nanos →
      (chronicle key (inputs ++ later)).forwardings.length = 1 →
      (serve c config (inputs ++ later)).world.reportCount key = 1) ∧
    ((∀ c, c.Reliable → ∀ key inputs f, (chronicle key inputs).forwardings = [f] →
        (chronicle key inputs).time = f.time + config.subscription.timeout.nanos →
        (serve c config inputs).world.reportCount key = 1) ↔
      config.subscription.timeoutSeconds < config.subscription.pendingSeconds) := by
  refine ⟨?_, ?_, ?_⟩
  · intro c hc key inputs later f hf hdeadline hlive honce
    refine ((settled_at_deadline hc hf hdeadline hlive).serve later ?_).count
    rw [honce, hf]
    rfl
  · intro h
    by_contra hshort
    have hshort : config.subscription.pendingLife.nanos ≤ config.subscription.timeout.nanos :=
      Nat.not_lt.1 fun hlt => hshort (nanos_lt_nanos_iff.1 hlt)
    generalize hsettings : config.subscription.timeout = timeout at h hshort
    -- At the deadline of a subscription that nobody answers there would have to be a report.
    have hchronicle := chronicle_unanswered timeout
    have hone := h _ World.reliable_undisturbed loneNotice.key (unansweredInputs timeout) ⟨0, ["plugin"], []⟩
      (by rw [hchronicle]) (by rw [hchronicle, Nat.zero_add])
    rw [reportCount_unanswered hsettings hshort] at hone
    exact absurd hone Nat.zero_ne_one
  · intro hlonger c hc key inputs f hf htime
    have hlive : (chronicle key inputs).time < f.time + config.subscription.pendingLife.nanos := by
      rw [htime]
      exact Nat.add_lt_add_left (nanos_lt_nanos_iff.2 hlonger) _
    exact (settled_at_deadline hc hf (Nat.le_of_eq htime.symm) hlive).count

/-- Settings by which an entry lives for ten seconds, while answers are waited for three times as long. -/
def shortLived : Config :=
  { Config.standard "member" with subscription := { SubscriptionConfig.standard with pendingSeconds := 10 } }

/-- The settings can be loaded, and by them there is not always a report at the deadline. -/
theorem unreported_at_deadline :
    Config.ofText "generated" shortLived.toJson.render = .ok shortLived ∧
      ¬ ∀ c, c.Reliable → ∀ key inputs f, (chronicle key inputs).forwardings = [f] →
        (chronicle key inputs).time = f.time + shortLived.subscription.timeout.nanos →
        (serve c shortLived inputs).world.reportCount key = 1 := by
  refine ⟨Config.ofText_render "generated" shortLived, ?_⟩
  intro h
  exact absurd ((reported_at_deadline_iff shortLived).2.1 h) (by decide)

end Service
end CmInventory
