import CmInventory.Proofs.Service.Chronicle

/-!
# Entries that do not live

An entry of the cache can be there and no longer live (`Service.Lifeless`). Neither an answer nor the end of
a wait reports on it. Where entries are put to live for no time at all, nothing is ever reported
(`Service.reportCount_serve_lifeless`).
-/

namespace CmInventory
namespace Service

variable {config : Config} {key : String} {r : Chronicle} {s : Service} {w v : World} {life : Interval}
  {d : Option Deed} {c : Circumstances}

/-- Whatever is held under a key is no longer live. -/
def Lifeless (key : String) (w : World) : Prop :=
  ∀ e, w.held? key = some e → e.isLive w.time = false

theorem lifeless_of_unheld (h : w.held? key = none) : Lifeless key w := by
  intro e he
  rw [h] at he
  cases he

theorem Lifeless.awaited? (h : Lifeless key w) : w.awaited? key = none := by
  by_contra hawaited
  rcases Option.ne_none_iff_exists'.1 hawaited with ⟨plugins, hplugins⟩
  rcases World.held?_of_awaited? hplugins with ⟨e, he, -, hlive⟩
  rw [h e he] at hlive
  cases hlive

theorem Lifeless.of_later (h : Lifeless key w) (hheld : v.held? key = w.held? key)
    (htime : w.time ≤ v.time) : Lifeless key v := by
  intro e he
  cases hlive : e.isLive v.time with
  | false => rfl
  | true => exact (CacheEntry.isLive_of_le hlive htime).symm.trans (h e (hheld.symm.trans he))

/-- Where entries do not live, no deed publishes a report. -/
theorem Lifeless.done (h : Lifeless key w) (hlife : life.nanos = 0)
    (hdone : World.Done life key w v d) : Lifeless key v ∧ v.reportCount key = w.reportCount key := by
  cases hdone with
  | forward hkey time held count =>
      refine ⟨?_, count⟩
      intro e he
      rw [held, Option.some.injEq] at he
      rw [← he, time]
      exact decide_eq_false (Nat.not_lt.2 (Nat.le_of_eq (congrArg (w.time + ·) hlife)))
  | wait time held count => exact ⟨h.of_later held (by omega), count⟩
  | nothing hother quiet => exact ⟨h.of_later quiet.held (Nat.le_of_eq quiet.time.symm), quiet.count⟩
  | answer hkey time leaves =>
      cases leaves with
      | absent _ held published => exact ⟨lifeless_of_unheld held, World.reportCount_congr published⟩
      | expired _ held published => exact ⟨lifeless_of_unheld held, World.reportCount_congr published⟩
      | waiting before => cases h.awaited?.symm.trans before
      | complete before => cases h.awaited?.symm.trans before

/-- The end of a wait reports nothing either. -/
theorem Lifeless.ended (h : Lifeless key v) (hended : v.Quiet key w ∨ v.WaitEnded c key w) :
    Lifeless key w ∧ w.reportCount key = v.reportCount key := by
  rcases hended with hquiet | hended
  · exact ⟨h.of_later hquiet.held (Nat.le_of_eq hquiet.time.symm), hquiet.count⟩
  · exact ⟨lifeless_of_unheld hended.held, hended.count_of_unawaited h.awaited?⟩

theorem Lifeless.feed (h : Lifeless key s.world) (htracks : Tracks config key r s)
    (hlife : config.subscription.pendingLife.nanos = 0) (c : Circumstances) (i : Input) :
    Lifeless key (s.feed c i).world ∧
      (s.feed c i).world.reportCount key = s.world.reportCount key := by
  rcases feed_cases htracks.onlyWaits c i key with ⟨v, hdone, -, -, -, hended⟩
  rw [htracks.settings] at hdone
  rcases h.done hlife hdone with ⟨hlifeless, hcount⟩
  rcases hlifeless.ended (hended.imp And.left And.left) with ⟨hlifeless', hcount'⟩
  exact ⟨hlifeless', hcount'.trans hcount⟩

theorem lifeless_serve (c : Circumstances) (key : String)
    (hlife : config.subscription.pendingLife.nanos = 0) (inputs : List Input) :
    Lifeless key (serve c config inputs).world ∧ (serve c config inputs).world.reportCount key = 0 := by
  induction inputs using List.reverseRecOn with
  | nil => exact ⟨lifeless_of_unheld rfl, rfl⟩
  | append_singleton inputs i ih =>
      rw [serve_snoc]
      rcases ih.1.feed (tracks_serve c config key inputs) hlife c i with ⟨hlifeless, hcount⟩
      exact ⟨hlifeless, hcount.trans ih.2⟩

theorem reportCount_serve_lifeless (c : Circumstances) (key : String)
    (hlife : config.subscription.pendingLife.nanos = 0) (inputs : List Input) :
    (serve c config inputs).world.reportCount key = 0 :=
  (lifeless_serve c key hlife inputs).2

/-- Time after which what was held no longer lives. -/
theorem Tracks.feed_wait_late (h : Tracks config key r s) {length : Interval}
    (hlate : ∀ e, s.world.held? key = some e → e.isLive (s.world.time + length.nanos) = false)
    (c : Circumstances) :
    (s.feed c (.wait length)).world.reportCount key = s.world.reportCount key := by
  rcases feed_cases h.onlyWaits c (.wait length) key with ⟨v, hdone, -, -, -, hended⟩
  cases hdone with
  | nothing hother => exact absurd trivial (hother _ rfl)
  | wait time held count =>
      have hlifeless : Lifeless key v := by
        intro e he
        rw [time]
        exact hlate e (held.symm.trans he)
      exact (hlifeless.ended (hended.imp And.left And.left)).2.trans count

/-! ## A single forwarding -/

/-- One plugin is to answer. -/
def loneNotice : ForwardNotice :=
  ⟨"client", "name", ["plugin"]⟩

end Service
end CmInventory
