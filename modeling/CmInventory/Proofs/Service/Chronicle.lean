import CmInventory.Proofs.Service.Keywise

/-!
# The chronicle of a key

What was asked of a service under a key: when subscriptions were forwarded, to which plugins, and which of
these have answered since. The chronicle is made from the inputs alone. A service tracks it
(`Service.tracks_serve`): whatever waits on the agenda for the end of a wait under the key was put there by
one of the forwardings of the chronicle, and none of it is overdue.
-/

namespace CmInventory
namespace Service

/-- A subscription that was forwarded. -/
structure Forwarding where
  /-- The nanoseconds since the start of the service. -/
  time : Nat
  plugins : List String
  /-- The plugins that have answered, as long as no other subscription was forwarded. -/
  answered : List String

/-- What was forwarded under a key. -/
structure Chronicle where
  /-- The nanoseconds since the start of the service. -/
  time : Nat
  /-- The last one comes first. -/
  forwardings : List Forwarding

namespace Chronicle

/-- The chronicle of a key after a deed. -/
def note (key : String) (r : Chronicle) : Option Deed → Chronicle
  | some (.forward n) =>
      if n.key = key then { r with forwardings := ⟨r.time, n.plugins, []⟩ :: r.forwardings } else r
  | some (.answer a) =>
      if a.key = key then
        match r.forwardings with
        | [] => r
        | f :: earlier =>
            { r with forwardings := { f with answered := a.plugin :: f.answered } :: earlier }
      else r
  | some (.wait length) => { r with time := r.time + length.nanos }
  | none => r

/-- A time is the deadline of a wait: that of the last forwarding, or that of an earlier one that had not
passed when the last one was made. -/
def IsDeadline (timeout : Nat) (r : Chronicle) (time : Nat) : Prop :=
  ∃ f earlier, r.forwardings = f :: earlier ∧
    (time = f.time + timeout ∨ ∃ g ∈ earlier, time = g.time + timeout ∧ f.time < time)

/-- Forwardings are in the order of their times, none of which is to come. -/
structure Ordered (r : Chronicle) : Prop where
  past : ∀ f ∈ r.forwardings, f.time ≤ r.time
  sorted : ∀ f earlier, r.forwardings = f :: earlier → ∀ g ∈ earlier, g.time ≤ f.time

variable {key : String} {r : Chronicle} {d : Option Deed} {timeout time : Nat}

@[simp] theorem note_notice (n : ForwardNotice) (r : Chronicle) :
    r.note n.key (Input.ofNotice n).deed? = ⟨r.time, ⟨r.time, n.plugins, []⟩ :: r.forwardings⟩ := by
  rw [Input.deed?_ofNotice, note, if_pos rfl]

@[simp] theorem note_wait (key : String) (length : Interval) (r : Chronicle) :
    r.note key (Input.wait length).deed? = ⟨r.time + length.nanos, r.forwardings⟩ := rfl

theorem note_unmattering (h : ∀ deed, d = some deed → ¬ deed.Matters key) : r.note key d = r := by
  cases d with
  | none => rfl
  | some deed =>
      have hother := h deed rfl
      cases deed with
      | forward n => exact if_neg hother
      | answer a => exact if_neg hother
      | wait length => exact absurd trivial hother

/-- How a deed changes the forwardings. -/
theorem note_forwardings (key : String) (r : Chronicle) (d : Option Deed) :
    (∃ n, d = some (.forward n) ∧ n.key = key ∧
        r.note key d = ⟨r.time, ⟨r.time, n.plugins, []⟩ :: r.forwardings⟩) ∨
      (∃ a f earlier, d = some (.answer a) ∧ a.key = key ∧ r.forwardings = f :: earlier ∧
        r.note key d = ⟨r.time, { f with answered := a.plugin :: f.answered } :: earlier⟩) ∨
      (r.time ≤ (r.note key d).time ∧ (r.note key d).forwardings = r.forwardings) := by
  cases d with
  | none => exact Or.inr (Or.inr ⟨Nat.le_refl _, rfl⟩)
  | some deed =>
      cases deed with
      | forward n =>
          by_cases hkey : n.key = key
          · exact Or.inl ⟨n, rfl, hkey, if_pos hkey⟩
          · rw [note, if_neg hkey]
            exact Or.inr (Or.inr ⟨Nat.le_refl _, rfl⟩)
      | answer a =>
          by_cases hkey : a.key = key
          · rw [note, if_pos hkey]
            cases hf : r.forwardings with
            | nil => exact Or.inr (Or.inr ⟨Nat.le_refl _, hf⟩)
            | cons f earlier => exact Or.inr (Or.inl ⟨a, f, earlier, rfl, hkey, rfl, rfl⟩)
          · rw [note, if_neg hkey]
            exact Or.inr (Or.inr ⟨Nat.le_refl _, rfl⟩)
      | wait length => exact Or.inr (Or.inr ⟨Nat.le_add_right _ _, rfl⟩)

theorem length_le_note (key : String) (r : Chronicle) (d : Option Deed) :
    r.forwardings.length ≤ (r.note key d).forwardings.length := by
  rcases note_forwardings key r d with ⟨n, -, -, hr⟩ | ⟨a, f, earlier, -, -, hf, hr⟩ | ⟨-, hr⟩
  · rw [hr]
    exact Nat.le_succ _
  · rw [hr, hf]
    exact Nat.le_refl _
  · rw [hr]

theorem time_le_note (key : String) (r : Chronicle) (d : Option Deed) : r.time ≤ (r.note key d).time := by
  rcases note_forwardings key r d with ⟨n, -, -, hr⟩ | ⟨a, f, earlier, -, -, -, hr⟩ | ⟨htime, -⟩
  · rw [hr]
  · rw [hr]
  · exact htime

theorem Ordered.note (h : r.Ordered) (d : Option Deed) : (r.note key d).Ordered := by
  rcases note_forwardings key r d with ⟨n, -, -, hr⟩ | ⟨a, f, earlier, -, -, hf, hr⟩ | ⟨htime, hsame⟩
  · rw [hr]
    refine ⟨?_, ?_⟩
    · intro f hf
      rcases List.mem_cons.1 hf with rfl | hf
      · exact Nat.le_refl _
      · exact h.past f hf
    · intro f earlier heq g hg
      rcases List.cons.inj heq with ⟨rfl, rfl⟩
      exact h.past g hg
  · rw [hr]
    refine ⟨?_, ?_⟩
    · intro g hg
      rcases List.mem_cons.1 hg with rfl | hg
      · exact h.past f (by simp [hf])
      · exact h.past g (by simp [hf, hg])
    · intro f' earlier' heq g hg
      rcases List.cons.inj heq with ⟨rfl, rfl⟩
      exact h.sorted f earlier hf g hg
  · refine ⟨?_, ?_⟩
    · rw [hsame]
      exact fun f hf => Nat.le_trans (h.past f hf) htime
    · rw [hsame]
      exact h.sorted

/-- A deadline that has not passed stays one. -/
theorem IsDeadline.note (h : r.IsDeadline timeout time) (htime : r.time < time) (d : Option Deed) :
    (r.note key d).IsDeadline timeout time := by
  rcases h with ⟨f, earlier, hf, hdeadline⟩
  rcases note_forwardings key r d with ⟨n, -, -, hr⟩ | ⟨a, f', earlier', -, -, hf', hr⟩ | ⟨-, hsame⟩
  · rw [hr]
    -- What was the last forwarding is now an earlier one, whose wait is still on.
    refine ⟨_, _, rfl, Or.inr ?_⟩
    rw [hf]
    rcases hdeadline with hlast | ⟨g, hg, hearlier, -⟩
    · exact ⟨f, by simp, hlast, htime⟩
    · exact ⟨g, by simp [hg], hearlier, htime⟩
  · rw [hr]
    rw [hf] at hf'
    rcases List.cons.inj hf' with ⟨rfl, rfl⟩
    exact ⟨_, _, rfl, hdeadline⟩
  · exact ⟨f, earlier, hsame.trans hf, hdeadline⟩

end Chronicle

/-- The chronicle of a key after inputs. -/
def chronicle (key : String) (inputs : List Input) : Chronicle :=
  inputs.foldl (fun r i => r.note key i.deed?) ⟨0, []⟩

theorem chronicle_snoc (key : String) (inputs : List Input) (i : Input) :
    chronicle key (inputs ++ [i]) = (chronicle key inputs).note key i.deed? := by
  simp [chronicle]

theorem length_chronicle_le (key : String) (inputs later : List Input) :
    (chronicle key inputs).forwardings.length ≤ (chronicle key (inputs ++ later)).forwardings.length := by
  induction later using List.reverseRecOn with
  | nil => rw [List.append_nil]
  | append_singleton later i ih =>
      rw [← List.append_assoc, chronicle_snoc]
      exact Nat.le_trans ih (Chronicle.length_le_note key _ i.deed?)

theorem time_chronicle_le (key : String) (inputs later : List Input) :
    (chronicle key inputs).time ≤ (chronicle key (inputs ++ later)).time := by
  induction later using List.reverseRecOn with
  | nil => rw [List.append_nil]
  | append_singleton later i ih =>
      rw [← List.append_assoc, chronicle_snoc]
      exact Nat.le_trans ih (Chronicle.time_le_note key _ i.deed?)

theorem ordered_chronicle (key : String) (inputs : List Input) : (chronicle key inputs).Ordered := by
  induction inputs using List.reverseRecOn with
  | nil => exact ⟨by simp [chronicle], by simp [chronicle]⟩
  | append_singleton inputs i ih =>
      rw [chronicle_snoc]
      exact ih.note i.deed?

/-! ## Tracking -/

/-- A service whose clock and agenda are as the chronicle of a key tells, and which can read its statuses. -/
structure Tracks (config : Config) (key : String) (r : Chronicle) (s : Service) : Prop where
  settings : s.config = config
  clock : s.world.time = r.time
  waits : ∀ x ∈ s.agenda.appointments, r.time < x.deadline ∧ ∃ a, x.task = .timeOut a ∧
    (a.key = key → r.IsDeadline config.subscription.timeout.nanos x.deadline)
  readable : s.world.store.Readable

variable {config : Config} {key : String} {r : Chronicle} {s : Service}

theorem Tracks.onlyWaits (h : Tracks config key r s) : s.OnlyWaits := by
  intro x hx
  rcases (h.waits x hx).2 with ⟨a, htask, -⟩
  exact ⟨a, htask⟩

/-- The clock after a deed. -/
theorem time_of_done {life : Interval} {w v : World} {d : Option Deed}
    (h : World.Done life key w v d) (htime : w.time = r.time) : v.time = (r.note key d).time := by
  cases h with
  | forward hkey time => rw [time, htime, Chronicle.note, if_pos hkey]
  | answer hkey time =>
      rw [time, htime, Chronicle.note, if_pos hkey]
      cases r.forwardings <;> rfl
  | wait time =>
      rw [time, htime]
      rfl
  | nothing hother quiet => rw [quiet.time, htime, Chronicle.note_unmattering hother]

/-- What is on the agenda once a deed was done is due at deadlines of the chronicle. -/
theorem Tracks.isDeadline (h : Tracks config key r s) {d : Option Deed} {x : Appointment Task}
    (hx : x ∈ s.agenda.appointments ++ s.planned d) :
    ∃ a, x.task = .timeOut a ∧
      (a.key = key → (r.note key d).IsDeadline config.subscription.timeout.nanos x.deadline) := by
  rcases List.mem_append.1 hx with hx | hx
  · rcases h.waits x hx with ⟨htime, a, htask, hdeadline⟩
    exact ⟨a, htask, fun hkey => (hdeadline hkey).note htime d⟩
  · rcases forward_of_mem_planned hx with ⟨n, rfl, rfl⟩
    refine ⟨standIn n, rfl, ?_⟩
    intro hkey
    have hkey : n.key = key := hkey
    rw [h.clock, h.settings, Chronicle.note, if_pos hkey]
    exact ⟨_, _, rfl, Or.inl rfl⟩

theorem Tracks.feed (h : Tracks config key r s) (c : Circumstances) (i : Input) :
    Tracks config key (r.note key i.deed?) (s.feed c i) := by
  rcases feed_cases h.onlyWaits c i key with ⟨v, hdone, hreadable, hconfig, hagenda, hended⟩
  have hv := time_of_done hdone h.clock
  refine ⟨hconfig.trans h.settings, ?_, ?_, ?_⟩
  · rw [← hv]
    rcases hended with ⟨hquiet, -⟩ | ⟨hended, -⟩
    · exact hquiet.time
    · exact hended.time
  · -- What was due was taken from the agenda, so nothing on it is overdue.
    intro x hx
    rw [hagenda] at hx
    rcases List.mem_filter.1 hx with ⟨hx, hlater⟩
    refine ⟨?_, h.isDeadline hx⟩
    rw [← hv]
    simpa using hlater
  · rcases hended with ⟨hquiet, -⟩ | ⟨hended, -⟩
    · exact hquiet.readable (hreadable h.readable)
    · exact hended.readable (hreadable h.readable)

theorem tracks_serve (c : Circumstances) (config : Config) (key : String) (inputs : List Input) :
    Tracks config key (chronicle key inputs) (serve c config inputs) := by
  induction inputs using List.reverseRecOn with
  | nil => exact ⟨rfl, rfl, (fun x hx => by cases hx), Store.readable_empty⟩
  | append_singleton inputs i ih =>
      rw [chronicle_snoc, serve_snoc]
      exact ih.feed c i

/-! ## Single inputs -/

theorem Tracks.time_notice (h : Tracks config key r s) (n : ForwardNotice) (hkey : n.key = key)
    (c : Circumstances) : (s.feed c (.ofNotice n)).world.time = s.world.time := by
  subst hkey
  rw [(h.feed c (.ofNotice n)).clock, Chronicle.note_notice, h.clock]

theorem Tracks.time_wait (h : Tracks config key r s) (length : Interval) (c : Circumstances) :
    (s.feed c (.wait length)).world.time = s.world.time + length.nanos := by
  rw [(h.feed c (.wait length)).clock, Chronicle.note_wait, h.clock]

/-- A notice that is forwarded, where answers are waited for at all. -/
theorem Tracks.feed_notice (h : Tracks config key r s) {n : ForwardNotice} (hkey : n.key = key)
    (htimeout : 0 < config.subscription.timeout.nanos) (c : Circumstances) :
    (s.feed c (.ofNotice n)).world.held? key =
        some (.startingAt s.world.time (.ofNames n.plugins) (some config.subscription.pendingLife)) ∧
      (s.feed c (.ofNotice n)).world.reportCount key = s.world.reportCount key ∧
      (s.feed c (.ofNotice n)).agenda.appointments = s.agenda.appointments ++
        [⟨s.world.time + config.subscription.timeout.nanos, .timeOut (standIn n)⟩] := by
  rcases feed_cases h.onlyWaits c (.ofNotice n) key with ⟨v, hdone, -, -, hagenda, hended⟩
  rw [Input.deed?_ofNotice, h.settings] at hdone
  rw [Input.deed?_ofNotice, planned, h.settings] at hagenda hended
  cases hdone with
  | nothing hother => exact absurd hkey (hother _ rfl)
  | forward _ time held count =>
      -- Nothing is due: what was planned before is not overdue, and the new wait takes some time.
      have hlater : ∀ x ∈ s.agenda.appointments ++ [⟨s.world.time +
          config.subscription.timeout.nanos, .timeOut (standIn n)⟩], v.time < x.deadline := by
        intro x hx
        rw [time]
        rcases List.mem_append.1 hx with hx | hx
        · rw [h.clock]
          exact (h.waits x hx).1
        · rw [List.mem_singleton.1 hx]
          exact Nat.lt_add_of_pos_right htimeout
      refine ⟨?_, ?_, ?_⟩
      · rcases hended with ⟨hquiet, -⟩ | ⟨-, x, hx, hdue, -⟩
        · rw [hquiet.held, held]
        · exact absurd (hlater x hx) (Nat.not_lt.2 hdue)
      · rcases hended with ⟨hquiet, -⟩ | ⟨-, x, hx, hdue, -⟩
        · rw [hquiet.count, count]
        · exact absurd (hlater x hx) (Nat.not_lt.2 hdue)
      · rw [hagenda]
        refine List.filter_eq_self.2 fun x hx => ?_
        simpa using hlater x hx

/-- Time in which nothing becomes due. -/
theorem Tracks.feed_wait_quiet (h : Tracks config key r s) {length : Interval}
    (hlater : ∀ x ∈ s.agenda.appointments, s.world.time + length.nanos < x.deadline)
    (c : Circumstances) :
    (s.feed c (.wait length)).world.held? key = s.world.held? key ∧
      (s.feed c (.wait length)).world.reportCount key = s.world.reportCount key ∧
      (s.feed c (.wait length)).agenda.appointments = s.agenda.appointments := by
  rcases feed_cases h.onlyWaits c (.wait length) key with ⟨v, hdone, -, -, hagenda, hended⟩
  have hplanned : s.agenda.appointments ++ s.planned (Input.wait length).deed? =
      s.agenda.appointments := List.append_nil _
  rw [hplanned] at hagenda hended
  cases hdone with
  | nothing hother => exact absurd trivial (hother _ rfl)
  | wait time held count =>
      rw [← time] at hlater
      rcases hended with ⟨hquiet, -⟩ | ⟨-, x, hx, hdue, -⟩
      · refine ⟨hquiet.held.trans held, hquiet.count.trans count, ?_⟩
        rw [hagenda]
        refine List.filter_eq_self.2 fun x hx => ?_
        simpa using hlater x hx
      · exact absurd (hlater x hx) (Nat.not_lt.2 hdue)

/-- Time in which a wait under the key becomes due, while its entry lives. -/
theorem Tracks.feed_wait_due (h : Tracks config key r s) {c : Circumstances} (hc : c.Reliable)
    {length : Interval} {x : Appointment Task} {a : PluginAnswer}
    (hx : x ∈ s.agenda.appointments) (hdue : x.deadline ≤ s.world.time + length.nanos)
    (htask : x.task = .timeOut a) (hkey : a.key = key) {e : CacheEntry NameSet}
    (hheld : s.world.held? key = some e) (hlive : e.isLive (s.world.time + length.nanos) = true) :
    (s.feed c (.wait length)).world.reportCount key = s.world.reportCount key + 1 := by
  rcases feed_cases h.onlyWaits c (.wait length) key with ⟨v, hdone, hreadable, -, -, hended⟩
  have hplanned : s.agenda.appointments ++ s.planned (Input.wait length).deed? =
      s.agenda.appointments := List.append_nil _
  rw [hplanned] at hended
  cases hdone with
  | nothing hother => exact absurd trivial (hother _ rfl)
  | wait time held count =>
      rw [← time] at hdue hlive
      have hawaited : v.awaited? key ≠ none := by
        rw [World.awaited?_of_held? (held.trans hheld) hlive]
        simp
      rcases hended with ⟨-, hnone⟩ | ⟨hended, -⟩
      · exact absurd hkey (hnone x hx hdue a htask)
      · rw [hended.count_of_awaited hc (hreadable h.readable) hawaited, count]

end Service
end CmInventory
