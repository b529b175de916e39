import CmInventory.Proofs.Service.Inputs

/-!
# Inputs under one key

What an input does to the subscriptions of one key: its deed may put an entry, strike off a plugin or let
time pass (`World.Done`); then the wait for answers may end (`World.WaitEnded`), just if such a wait is due
(`Service.feed_cases`).
-/

namespace CmInventory

open Inventory

/-- The number of reports that were published under a key. -/
def World.reportCount (key : String) (w : World) : Nat :=
  w.published.countP (Published.isReport key)

/-! ## Waits that end -/

namespace World

variable {key other : String} {w w' w'' : World} {c : Circumstances}

theorem Reports.count (h : Reports other w w') :
    w'.reportCount key = w.reportCount key + if other = key then 1 else 0 := by
  rcases h with ⟨p, hp, hpublished⟩
  have hother : p.key = other ∧ p.event.kind = .outcome := by
    simpa [Published.isReport] using hp
  have hreport : p.isReport key = decide (other = key) := by
    simp [Published.isReport, hother.1, hother.2]
  rw [reportCount, hpublished, List.countP_append, List.countP_singleton, hreport]
  simp [reportCount]

theorem reportCount_congr (h : w'.published = w.published) : w'.reportCount key = w.reportCount key := by
  rw [reportCount, h, reportCount]

/-- Nothing happened under a key. -/
structure Quiet (key : String) (w w' : World) : Prop where
  time : w'.time = w.time
  held : w'.held? key = w.held? key
  count : w'.reportCount key = w.reportCount key
  readable : w.store.Readable → w'.store.Readable

/-- A wait for answers to a subscription with the key has ended, perhaps more than one. -/
structure WaitEnded (c : Circumstances) (key : String) (w w' : World) : Prop where
  time : w'.time = w.time
  held : w'.held? key = none
  count : (w'.reportCount key = w.reportCount key ∧
      (w.awaited? key = none ∨ ¬ (c.Reliable ∧ w.store.Readable))) ∨
    (w.awaited? key ≠ none ∧ w'.reportCount key = w.reportCount key + 1)
  readable : w.store.Readable → w'.store.Readable

theorem Quiet.refl (key : String) (w : World) : Quiet key w w :=
  ⟨rfl, rfl, rfl, fun h => h⟩

theorem Quiet.trans (h : Quiet key w w') (h' : Quiet key w' w'') : Quiet key w w'' :=
  ⟨h'.time.trans h.time, h'.held.trans h.held, h'.count.trans h.count,
    fun hr => h'.readable (h.readable hr)⟩

theorem TimedOut.quiet (h : TimedOut c other w w') (hne : other ≠ key) : Quiet key w w' := by
  refine ⟨h.touched.time, h.touched.held key (Ne.symm hne), ?_, h.touched.readable⟩
  rcases h.published with ⟨hsame, -⟩ | ⟨-, hreports⟩
  · exact reportCount_congr hsame
  · rw [hreports.count, if_neg hne, Nat.add_zero]

theorem TimedOut.waitEnded (h : TimedOut c key w w') : WaitEnded c key w w' := by
  refine ⟨h.touched.time, h.held, ?_, h.touched.readable⟩
  rcases h.published with ⟨hsame, hnone⟩ | ⟨hawaited, hreports⟩
  · exact Or.inl ⟨reportCount_congr hsame, hnone⟩
  · refine Or.inr ⟨hawaited, ?_⟩
    rw [hreports.count, if_pos rfl]

theorem Quiet.waitEnded (h : Quiet key w w') (h' : WaitEnded c key w' w'') : WaitEnded c key w w'' := by
  have hawaited : w'.awaited? key = w.awaited? key := awaited?_congr h.held h.time
  refine ⟨h'.time.trans h.time, h'.held, ?_, fun hr => h'.readable (h.readable hr)⟩
  rw [← hawaited, ← h.count]
  refine h'.count.imp_left fun hquiet => ⟨hquiet.1, hquiet.2.imp_right ?_⟩
  exact fun hunreadable hr => hunreadable ⟨hr.1, h.readable hr.2⟩

theorem WaitEnded.count_of_unawaited (h : WaitEnded c key w w') (hnone : w.awaited? key = none) :
    w'.reportCount key = w.reportCount key := by
  rcases h.count with ⟨hsame, -⟩ | ⟨hawaited, -⟩
  · exact hsame
  · exact absurd hnone hawaited

theorem WaitEnded.count_of_awaited (h : WaitEnded c key w w') (hc : c.Reliable)
    (hreadable : w.store.Readable) (hawaited : w.awaited? key ≠ none) :
    w'.reportCount key = w.reportCount key + 1 := by
  rcases h.count with ⟨-, hnone | hfailed⟩ | ⟨-, hone⟩
  · exact absurd hnone hawaited
  · exact absurd ⟨hc, hreadable⟩ hfailed
  · exact hone

/-- Where nothing is held any more, the end of another wait reports nothing. -/
theorem WaitEnded.again (h : WaitEnded c key w w') (h' : TimedOut c other w' w'') :
    WaitEnded c key w w'' := by
  by_cases hother : other = key
  · -- The first wait took what was held, so that nothing is awaited when the second one ends.
    subst hother
    have hagain := h'.waitEnded
    refine ⟨hagain.time.trans h.time, hagain.held, ?_, fun hr => hagain.readable (h.readable hr)⟩
    rw [hagain.count_of_unawaited (awaited?_of_unheld h.held)]
    exact h.count
  · have hquiet := h'.quiet hother
    refine ⟨hquiet.time.trans h.time, hquiet.held.trans h.held, ?_,
      fun hr => hquiet.readable (h.readable hr)⟩
    rw [hquiet.count]
    exact h.count

end World

namespace Service

variable {s : Service} {c : Circumstances} {key : String}

theorem endWaits_snoc (settings : Consolidation) (ended : List PluginAnswer) (a : PluginAnswer)
    (w : World) :
    (endWaits c settings ended w).TimedOut c a.key (endWaits c settings (ended ++ [a]) w) := by
  have hsnoc : endWaits c settings (ended ++ [a]) w =
      ((timeOut settings a).run.run (World.reply c) (endWaits c settings ended w)).2 := by
    rw [endWaits, List.foldl_append]
    rfl
  rw [hsnoc]
  exact ensures_timeOut_under.under

/-- Waits under other keys end without a trace under this one. -/
theorem quiet_endWaits {settings : Consolidation} {ended : List PluginAnswer}
    (h : ∀ a ∈ ended, a.key ≠ key) (w : World) : w.Quiet key (endWaits c settings ended w) := by
  induction ended using List.reverseRecOn with
  | nil => exact .refl key w
  | append_singleton ended a ih =>
      have hearlier := ih fun b hb => h b (List.mem_append_left _ hb)
      exact hearlier.trans ((endWaits_snoc settings ended a w).quiet (h a (by simp)))

theorem waitEnded_endWaits {settings : Consolidation} {ended : List PluginAnswer}
    (h : ∃ a ∈ ended, a.key = key) (w : World) : w.WaitEnded c key (endWaits c settings ended w) := by
  induction ended using List.reverseRecOn with
  | nil =>
      rcases h with ⟨a, ha, -⟩
      cases ha
  | append_singleton ended a ih =>
      have hlast := endWaits_snoc (c := c) settings ended a w
      by_cases hearlier : ∃ b ∈ ended, b.key = key
      · exact (ih hearlier).again hlast
      · -- The last wait is the first one under the key.
        have hquiet : ∀ b ∈ ended, b.key ≠ key := fun b hb hkey => hearlier ⟨b, hb, hkey⟩
        rcases h with ⟨b, hb, rfl⟩
        rcases List.mem_append.1 hb with hb | hb
        · exact absurd rfl (hquiet b hb)
        · rw [List.mem_singleton.1 hb] at hquiet ⊢
          exact (quiet_endWaits hquiet w).waitEnded hlast.waitEnded

end Service

/-! ## Deeds -/

/-- Whether a deed matters under a key. Time passes for all keys. -/
def Service.Deed.Matters (key : String) : Service.Deed → Prop
  | .forward n => n.key = key
  | .answer a => a.key = key
  | .wait _ => True

namespace World

variable {key other : String} {w w' : World}

/-- What a deed does under a key. -/
inductive Done (life : Interval) (key : String) (w w' : World) : Option Service.Deed → Prop
  | forward {n : ForwardNotice} (hkey : n.key = key) (time : w'.time = w.time)
      (held : w'.held? key = some (.startingAt w.time (.ofNames n.plugins) (some life)))
      (count : w'.reportCount key = w.reportCount key) : Done life key w w' (some (.forward n))
  | answer {a : PluginAnswer} (hkey : a.key = key) (time : w'.time = w.time)
      (leaves : AnswerLeaves life key a.plugin w w') : Done life key w w' (some (.answer a))
  | wait {length : Interval} (time : w'.time = w.time + length.nanos)
      (held : w'.held? key = w.held? key) (count : w'.reportCount key = w.reportCount key) :
      Done life key w w' (some (.wait length))
  | nothing {d : Option Service.Deed} (hother : ∀ deed, d = some deed → ¬ deed.Matters key)
      (quiet : Quiet key w w') : Done life key w w' d

theorem Done.time_le {life : Interval} {d : Option Service.Deed} (h : Done life key w w' d) :
    w.time ≤ w'.time := by
  cases h with
  | forward hkey time => exact Nat.le_of_eq time.symm
  | answer hkey time => exact Nat.le_of_eq time.symm
  | wait time => rw [time]; exact Nat.le_add_right _ _
  | nothing hother quiet => exact Nat.le_of_eq quiet.time.symm

/-- An answer does nothing under other keys. -/
theorem AnswerLeaves.quiet {life : Interval} {plugin : String}
    (h : AnswerLeaves life other plugin w w') (htouched : TouchedAt other w w') (hne : other ≠ key) :
    Quiet key w w' := by
  refine ⟨htouched.time, htouched.held key (Ne.symm hne), ?_, htouched.readable⟩
  cases h with
  | absent _ _ published => exact reportCount_congr published
  | waiting _ _ published => exact reportCount_congr published
  | complete _ _ _ reports => rw [reports.count, if_neg hne, Nat.add_zero]
  | expired _ _ published => exact reportCount_congr published

end World

namespace Service

/-- What ends the wait for the answers to a subscription that was forwarded. -/
def standIn (n : ForwardNotice) : PluginAnswer :=
  ⟨n.clientId, n.subscriptionName, "", subscriptionCreated, []⟩

variable {s : Service} {c : Circumstances} {key : String}

theorem act_config (c : Circumstances) (s : Service) (d : Option Deed) :
    (s.act c d).config = s.config := by
  cases d with
  | none => rfl
  | some deed => cases deed <;> rfl

/-- What a deed puts on the agenda. Only a forwarding puts something there. -/
def planned (s : Service) : Option Deed → List (Appointment Task)
  | some (.forward n) =>
      [⟨s.world.time + s.config.subscription.timeout.nanos, .timeOut (standIn n)⟩]
  | _ => []

theorem act_agenda (c : Circumstances) (s : Service) (d : Option Deed) :
    (s.act c d).agenda.appointments = s.agenda.appointments ++ s.planned d := by
  cases d with
  | none => exact (List.append_nil _).symm
  | some deed =>
      cases deed with
      | forward n => rfl
      | _ => exact (List.append_nil _).symm

theorem forward_of_mem_planned {d : Option Deed} {x : Appointment Task} (h : x ∈ s.planned d) :
    ∃ n, d = some (.forward n) ∧
      x = ⟨s.world.time + s.config.subscription.timeout.nanos, .timeOut (standIn n)⟩ := by
  cases d with
  | none => cases h
  | some deed =>
      cases deed with
      | forward n => exact ⟨n, rfl, List.mem_singleton.1 h⟩
      | _ => cases h

theorem act_done (c : Circumstances) (s : Service) (d : Option Deed) (key : String) :
    World.Done s.config.subscription.pendingLife key s.world (s.act c d).world d := by
  cases d with
  | none => exact .nothing (by simp) (.refl key s.world)
  | some deed =>
      cases deed with
      | forward n =>
          by_cases hkey : n.key = key
          · refine .forward hkey rfl ?_ rfl
            rw [← hkey]
            exact World.held?_put (w := s.world.nextTurn)
          · have htouched := World.touchedAt_pending c
              (.put n.key (.ofNames n.plugins) s.config.subscription.pendingLife) s.world
            refine .nothing ?_ ⟨rfl, htouched.held key (Ne.symm hkey), rfl, fun h => h⟩
            rintro deed hdeed hmatters
            rw [← Option.some.inj hdeed] at hmatters
            exact hkey hmatters
      | answer a =>
          rcases (@ensures_answer_under c s.world s.consolidation a).under with ⟨htouched, hleaves⟩
          by_cases hkey : a.key = key
          · subst hkey
            exact .answer rfl htouched.time hleaves
          · refine .nothing ?_ (hleaves.quiet htouched hkey)
            rintro deed hdeed hmatters
            rw [← Option.some.inj hdeed] at hmatters
            exact hkey hmatters
      | wait length => exact .wait rfl rfl rfl

theorem act_readable (c : Circumstances) (d : Option Deed) (h : s.world.store.Readable) :
    (s.act c d).world.store.Readable := by
  cases d with
  | none => exact h
  | some deed =>
      cases deed with
      | forward n => exact h
      | answer a => exact (@ensures_answer_under c s.world s.consolidation a).under.1.readable h
      | wait length => exact h

/-! ## Inputs -/

/-- What an input does under a key: its deed, and then the end of the wait if one is due. -/
theorem feed_cases (hwaits : s.OnlyWaits) (c : Circumstances) (i : Input) (key : String) :
    ∃ v, World.Done s.config.subscription.pendingLife key s.world v i.deed? ∧
      (s.world.store.Readable → v.store.Readable) ∧
      (s.feed c i).config = s.config ∧
      (s.feed c i).agenda.appointments =
        (s.agenda.appointments ++ s.planned i.deed?).filter (fun x => !decide (x.deadline ≤ v.time)) ∧
      ((v.Quiet key (s.feed c i).world ∧
          ∀ x ∈ s.agenda.appointments ++ s.planned i.deed?, x.deadline ≤ v.time →
            ∀ a, x.task = .timeOut a → a.key ≠ key) ∨
        (v.WaitEnded c key (s.feed c i).world ∧
          ∃ x ∈ s.agenda.appointments ++ s.planned i.deed?, x.deadline ≤ v.time ∧
            ∃ a, x.task = .timeOut a ∧ a.key = key)) := by
  have hwaits' : (s.act c i.deed?).OnlyWaits := by
    intro x hx
    rw [act_agenda] at hx
    rcases List.mem_append.1 hx with hx | hx
    · exact hwaits x hx
    · rcases forward_of_mem_planned hx with ⟨n, -, rfl⟩
      exact ⟨standIn n, rfl⟩
  rcases performDue_eq hwaits' c with ⟨ended, hended, hperformed⟩
  rw [act_agenda] at hended hperformed
  refine ⟨(s.act c i.deed?).world, act_done c s i.deed? key, act_readable c i.deed?, ?_, ?_, ?_⟩
  · rw [feed_eq, hperformed]
    exact act_config c s i.deed?
  · rw [feed_eq, hperformed]
  · rw [feed_eq, hperformed]
    -- Among the waits that are due there may be several under the key, or none.
    by_cases hdue : ∃ a ∈ ended, a.key = key
    · refine Or.inr ⟨waitEnded_endWaits hdue _, ?_⟩
      rcases hdue with ⟨a, ha, hkey⟩
      rcases (hended a).1 ha with ⟨x, hx, hdeadline, htask⟩
      exact ⟨x, hx, hdeadline, a, htask, hkey⟩
    · have hquiet : ∀ a ∈ ended, a.key ≠ key := fun a ha hkey => hdue ⟨a, ha, hkey⟩
      refine Or.inl ⟨quiet_endWaits hquiet _, ?_⟩
      intro x hx hdeadline a htask
      exact hquiet a ((hended a).2 ⟨x, hx, hdeadline, htask⟩)

end Service
end CmInventory
