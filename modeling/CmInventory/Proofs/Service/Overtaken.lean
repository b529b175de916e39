import CmInventory.Proofs.Service.Lifeless

/-!
# Waits that outlive their forwarding

The wait for the answers to a subscription is never called off. When the subscription is forwarded again
under the same key, the wait of the earlier forwarding goes on, and its end finds the entry of the later
one. A report is therefore published in time (`Chronicle.MayClose`), or the forwarding that it closes was
overtaken by the end of an earlier wait (`Chronicle.Overtaken`). Under every configuration by which answers
are waited for, and entries live at all, there are runs of the second kind (`reports_in_time_iff`).
-/

namespace CmInventory
namespace Service

namespace Chronicle

/-- All plugins of the last forwarding have answered since it was made, or the time for answers to it has
passed. -/
def MayClose (timeout : Nat) (r : Chronicle) : Prop :=
  ∃ f earlier, r.forwardings = f :: earlier ∧
    ((∀ plugin ∈ f.plugins, plugin ∈ f.answered) ∨ f.time + timeout ≤ r.time)

/-- The wait of an earlier forwarding was on when the last one was made, and has ended since. -/
def Overtaken (timeout : Nat) (r : Chronicle) : Prop :=
  ∃ f earlier, r.forwardings = f :: earlier ∧
    ∃ g ∈ earlier, f.time < g.time + timeout ∧ g.time + timeout ≤ r.time

variable {timeout : Nat} {r : Chronicle}

theorem IsDeadline.closes {time : Nat} (h : r.IsDeadline timeout time) (hdue : time ≤ r.time) :
    r.MayClose timeout ∨ r.Overtaken timeout := by
  rcases h with ⟨f, earlier, hf, rfl | ⟨g, hg, rfl, hlater⟩⟩
  · exact Or.inl ⟨f, earlier, hf, Or.inr hdue⟩
  · exact Or.inr ⟨f, earlier, hf, g, hg, hlater, hdue⟩

theorem Ordered.not_overtaken (h : r.Ordered) : ¬ r.Overtaken 0 := by
  rintro ⟨f, earlier, hf, g, hg, hlater, -⟩
  exact absurd (h.sorted f earlier hf g hg) (Nat.not_le.2 hlater)

end Chronicle

/-! ## What is held -/

/-- What is held under a key awaits all plugins of the last forwarding that have not answered. -/
def Awaits (key : String) (r : Chronicle) (w : World) : Prop :=
  ∀ e, w.held? key = some e → ∃ f earlier, r.forwardings = f :: earlier ∧
    ∀ plugin ∈ f.plugins, plugin ∉ f.answered → e.value.Has plugin

variable {config : Config} {key : String} {r : Chronicle} {s : Service} {w v : World} {life : Interval}
  {d : Option Deed}

theorem awaits_of_unheld (h : w.held? key = none) : Awaits key r w := by
  intro e he
  rw [h] at he
  cases he

/-- A deed keeps what is held and the chronicle in agreement. It publishes a report only when the last
plugin has answered. -/
theorem Awaits.done (h : Awaits key r w) (hdone : World.Done life key w v d) :
    Awaits key (r.note key d) v ∧
      (w.reportCount key < v.reportCount key → ∀ timeout, (r.note key d).MayClose timeout) := by
  cases hdone with
  | forward hkey time held count =>
      refine ⟨?_, fun hcount => absurd count (Nat.ne_of_gt hcount)⟩
      intro e he
      rw [held, Option.some.injEq] at he
      rw [← he, Chronicle.note, if_pos hkey]
      exact ⟨_, _, rfl, fun plugin hplugin _ => NameSet.has_ofNames.2 hplugin⟩
  | wait time held count =>
      refine ⟨?_, fun hcount => absurd count (Nat.ne_of_gt hcount)⟩
      intro e he
      exact h e (held.symm.trans he)
  | nothing hother quiet =>
      rw [Chronicle.note_unmattering hother]
      refine ⟨?_, fun hcount => absurd quiet.count (Nat.ne_of_gt hcount)⟩
      intro e he
      exact h e (quiet.held.symm.trans he)
  | @answer a hkey time leaves =>
      -- Where something was awaited there is a forwarding, and its other plugins are still awaited.
      have hleft : ∀ awaited, w.awaited? key = some awaited → ∃ f earlier,
          (r.note key (some (.answer a))).forwardings = f :: earlier ∧
            ∀ plugin ∈ f.plugins, plugin ∉ f.answered → (awaited.without a.plugin).Has plugin := by
        intro awaited hawaited
        rcases World.held?_of_awaited? hawaited with ⟨e, he, rfl, -⟩
        rcases h e he with ⟨f, earlier, hf, hplugins⟩
        rw [Chronicle.note, if_pos hkey, hf]
        refine ⟨_, _, rfl, ?_⟩
        intro plugin hplugin hanswered
        rw [List.mem_cons, not_or] at hanswered
        exact NameSet.has_without.2 ⟨hanswered.1, hplugins plugin hplugin hanswered.2⟩
      cases leaves with
      | absent _ held published =>
          exact ⟨awaits_of_unheld held,
            fun hcount => absurd (World.reportCount_congr published) (Nat.ne_of_gt hcount)⟩
      | expired _ held published =>
          exact ⟨awaits_of_unheld held,
            fun hcount => absurd (World.reportCount_congr published) (Nat.ne_of_gt hcount)⟩
      | waiting before held published =>
          refine ⟨?_, fun hcount => absurd (World.reportCount_congr published) (Nat.ne_of_gt hcount)⟩
          intro e he
          rw [held, Option.some.injEq] at he
          rw [← he]
          exact hleft _ before
      | complete before last held reports =>
          refine ⟨awaits_of_unheld held, fun _ timeout => ?_⟩
          rcases hleft _ before with ⟨f, earlier, hf, hplugins⟩
          refine ⟨f, earlier, hf, Or.inl ?_⟩
          intro plugin hplugin
          -- A plugin that has not answered would still be awaited.
          by_contra hanswered
          exact NameSet.isEmpty_iff.1 last plugin (hplugins plugin hplugin hanswered)

/-- One input. -/
theorem Awaits.feed (h : Awaits key r s.world) (htracks : Tracks config key r s) (c : Circumstances)
    (i : Input) :
    Awaits key (r.note key i.deed?) (s.feed c i).world ∧
      (s.world.reportCount key < (s.feed c i).world.reportCount key →
        (r.note key i.deed?).MayClose config.subscription.timeout.nanos ∨
          (r.note key i.deed?).Overtaken config.subscription.timeout.nanos) := by
  rcases feed_cases htracks.onlyWaits c i key with ⟨v, hdone, -, -, -, hended⟩
  rcases h.done hdone with ⟨hawaits, hcloses⟩
  rcases hended with ⟨hquiet, -⟩ | ⟨hended, x, hx, hdue, a, htask, hkey⟩
  · refine ⟨?_, ?_⟩
    · intro e he
      exact hawaits e (hquiet.held.symm.trans he)
    · rw [hquiet.count]
      exact fun hcount => Or.inl (hcloses hcount _)
  · -- The wait that ended is that of the last forwarding, or of one that it overtook.
    refine ⟨awaits_of_unheld hended.held, fun _ => ?_⟩
    rcases htracks.isDeadline hx with ⟨b, htask', hdeadline⟩
    rw [htask, Task.timeOut.injEq] at htask'
    rw [time_of_done hdone htracks.clock] at hdue
    exact (hdeadline (htask' ▸ hkey)).closes hdue

theorem awaits_serve (c : Circumstances) (config : Config) (key : String) (inputs : List Input) :
    Awaits key (chronicle key inputs) (serve c config inputs).world := by
  induction inputs using List.reverseRecOn with
  | nil => exact awaits_of_unheld rfl
  | append_singleton inputs i ih =>
      rw [chronicle_snoc, serve_snoc]
      exact (ih.feed (tracks_serve c config key inputs) c i).1

/-! ## Reports -/

/-- With an input after others a report is published under a key. -/
def Publishes (c : Circumstances) (config : Config) (key : String) (inputs : List Input) (i : Input) :
    Prop :=
  (serve c config inputs).world.reportCount key <
    (serve c config (inputs ++ [i])).world.reportCount key

theorem mayClose_or_overtaken {c : Circumstances} {inputs : List Input} {i : Input}
    (h : Publishes c config key inputs i) :
    (chronicle key (inputs ++ [i])).MayClose config.subscription.timeout.nanos ∨
      (chronicle key (inputs ++ [i])).Overtaken config.subscription.timeout.nanos := by
  rw [Publishes, serve_snoc] at h
  rw [chronicle_snoc]
  exact ((awaits_serve c config key inputs).feed (tracks_serve c config key inputs) c i).2 h

/-! ## A forwarding that is overtaken -/

def nanosecond : Interval := ⟨1, by decide⟩

/-- An interval without its last nanosecond. -/
def shortened (length : Interval) : Interval :=
  ⟨length.nanos - 1, Nat.lt_of_le_of_lt (Nat.sub_le _ _) length.nanos_lt⟩

/-- A subscription is forwarded, and again just before the time for answers is over. -/
def overtakingInputs (timeout : Interval) : List Input :=
  [.ofNotice loneNotice, .wait (shortened timeout), .ofNotice loneNotice]

theorem chronicle_overtaking (timeout : Interval) :
    chronicle loneNotice.key (overtakingInputs timeout ++ [.wait nanosecond]) =
      ⟨timeout.nanos - 1 + 1, [⟨timeout.nanos - 1, ["plugin"], []⟩, ⟨0, ["plugin"], []⟩]⟩ := by
  simp only [chronicle, overtakingInputs, List.cons_append, List.nil_append, List.foldl_cons,
    List.foldl_nil, Chronicle.note_notice, Chronicle.note_wait, Nat.zero_add]
  rfl

theorem not_mayClose_overtaking {timeout : Interval} (h : 1 < timeout.nanos) :
    ¬ (chronicle loneNotice.key (overtakingInputs timeout ++ [.wait nanosecond])).MayClose
      timeout.nanos := by
  rw [chronicle_overtaking]
  rintro ⟨f, earlier, hf, hcloses⟩
  rcases List.cons.inj hf with ⟨rfl, -⟩
  rcases hcloses with hanswered | hlate
  · exact absurd (hanswered "plugin" (by simp)) (by simp)
  · dsimp only at hlate
    omega

/-- The end of the first wait takes the entry of the second forwarding. -/
theorem Tracks.reportCount_overtaking (h : Tracks config loneNotice.key r s)
    (hagenda : s.agenda.appointments = []) {timeout : Interval}
    (hsettings : config.subscription.timeout = timeout) (htimeout : 0 < timeout.nanos)
    (hlife : 1 < config.subscription.pendingLife.nanos) {c : Circumstances} (hc : c.Reliable) :
    (((overtakingInputs timeout).foldl (Service.feed c) s).feed c (.wait nanosecond)).world.reportCount
        loneNotice.key =
      ((overtakingInputs timeout).foldl (Service.feed c) s).world.reportCount loneNotice.key + 1 := by
  rw [overtakingInputs, List.foldl_cons, List.foldl_cons, List.foldl_cons, List.foldl_nil]
  have hpositive : 0 < config.subscription.timeout.nanos := hsettings ▸ htimeout
  -- The first forwarding.
  have htracks₁ := h.feed c (.ofNotice loneNotice)
  have htime₁ := h.time_notice loneNotice rfl c
  have hagenda₁ := (h.feed_notice rfl hpositive c).2.2
  rw [hagenda, hsettings, List.nil_append] at hagenda₁
  generalize s.feed c (.ofNotice loneNotice) = s₁ at htracks₁ htime₁ hagenda₁ ⊢
  -- The wait for it is almost over.
  have htracks₂ := htracks₁.feed c (.wait (shortened timeout))
  have htime₂ := htracks₁.time_wait (shortened timeout) c
  have hlater : ∀ x ∈ s₁.agenda.appointments,
      s₁.world.time + (shortened timeout).nanos < x.deadline := by
    intro x hx
    rw [hagenda₁] at hx
    rw [htime₁, List.mem_singleton.1 hx]
    exact Nat.add_lt_add_left (Nat.sub_lt htimeout Nat.one_pos) _
  have hagenda₂ := (htracks₁.feed_wait_quiet hlater c).2.2
  generalize s₁.feed c (.wait (shortened timeout)) = s₂ at htracks₂ htime₂ hagenda₂ ⊢
  -- The second forwarding.
  have htracks₃ := htracks₂.feed c (.ofNotice loneNotice)
  have htime₃ := htracks₂.time_notice loneNotice rfl c
  rcases htracks₂.feed_notice rfl hpositive c with ⟨hheld, -, hagenda₃⟩
  generalize s₂.feed c (.ofNotice loneNotice) = s₃ at htracks₃ htime₃ hheld hagenda₃ ⊢
  have hwaits : ⟨s.world.time + timeout.nanos, .timeOut (standIn loneNotice)⟩ ∈
      s₃.agenda.appointments := by
    rw [hagenda₃, hagenda₂, hagenda₁]
    simp
  refine htracks₃.feed_wait_due hc hwaits ?_ rfl rfl hheld ?_
  · rw [htime₃, htime₂, htime₁]
    simp only [shortened, nanosecond]
    omega
  · rw [htime₃]
    exact decide_eq_true (Nat.add_lt_add_left hlife _)

theorem publishes_overtaking {timeout : Interval} (hsettings : config.subscription.timeout = timeout)
    (htimeout : 0 < timeout.nanos) (hlife : 1 < config.subscription.pendingLife.nanos)
    {c : Circumstances} (hc : c.Reliable) :
    Publishes c config loneNotice.key (overtakingInputs timeout) (.wait nanosecond) := by
  have hcount := (tracks_serve c config loneNotice.key []).reportCount_overtaking rfl hsettings htimeout
    hlife hc
  rw [Publishes, serve_snoc]
  exact Nat.lt_of_lt_of_eq (Nat.lt_succ_self _) hcount.symm

/-! ## The settings by which reports are in time -/

theorem one_lt_nanos {n : UInt64} (h : n ≠ 0) : 1 < (Interval.ofSeconds n).nanos := by
  have hn : n.toNat ≠ 0 := fun hzero => h (UInt64.toNat_inj.1 hzero)
  rw [Interval.nanos_ofSeconds]
  omega

/-- A report is published in time, or the forwarding that it closes was overtaken by the wait of an earlier
one. All reports are in time just if answers are not waited for or entries do not live. -/
theorem reports_in_time_iff (config : Config) :
    (∀ c key inputs i, Publishes c config key inputs i →
      (chronicle key (inputs ++ [i])).MayClose config.subscription.timeout.nanos ∨
        (chronicle key (inputs ++ [i])).Overtaken config.subscription.timeout.nanos) ∧
    ((∀ c key inputs i, Publishes c config key inputs i →
        (chronicle key (inputs ++ [i])).MayClose config.subscription.timeout.nanos) ↔
      config.subscription.timeoutSeconds = 0 ∨ config.subscription.pendingSeconds = 0) := by
  refine ⟨fun c key inputs i h => mayClose_or_overtaken h, ?_, ?_⟩
  · intro h
    by_contra hneither
    rw [not_or] at hneither
    have htimeout : 1 < config.subscription.timeout.nanos := one_lt_nanos hneither.1
    have hlife : 1 < config.subscription.pendingLife.nanos := one_lt_nanos hneither.2
    generalize hsettings : config.subscription.timeout = timeout at h htimeout
    exact not_mayClose_overtaking htimeout (h _ _ _ _
      (publishes_overtaking hsettings (Nat.lt_of_succ_lt htimeout) hlife World.reliable_undisturbed))
  · rintro (htimeout | hlife) c key inputs i hpublishes
    · -- A wait of no length is over before anything else is forwarded.
      have hzero : config.subscription.timeout.nanos = 0 := by
        rw [SubscriptionConfig.timeout, htimeout]
        rfl
      rcases mayClose_or_overtaken hpublishes with hcloses | hovertaken
      · exact hcloses
      · rw [hzero] at hovertaken
        exact absurd hovertaken (ordered_chronicle key _).not_overtaken
    · have hzero : config.subscription.pendingLife.nanos = 0 := by
        rw [SubscriptionConfig.pendingLife, hlife]
        rfl
      rw [Publishes, reportCount_serve_lifeless c key hzero, reportCount_serve_lifeless c key hzero]
        at hpublishes
      exact absurd hpublishes (Nat.lt_irrefl _)

/-- Under the standard settings not all reports are in time. -/
theorem reports_early_by_default :
    ¬ ∀ c key inputs i, Publishes c (.standard "member") key inputs i →
      (chronicle key (inputs ++ [i])).MayClose (Config.standard "member").subscription.timeout.nanos := by
  intro h
  rcases (reports_in_time_iff (.standard "member")).2.1 h with htimeout | hlife
  · exact absurd htimeout (by decide)
  · exact absurd hlife (by decide)

end Service
end CmInventory
