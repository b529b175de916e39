import CmInventory.Proofs.Consolidation.Calls
import CmInventory.Proofs.Coordination.Awaited

/-!
# Outcomes of interleaved calls

Any number of members note forwardings, take in answers and end the wait for answers at the same time. Their
requests to the cache and to the store are interleaved, time passes in between, and the store may fail at
any call. Under every key no more reports are published than subscriptions were forwarded, and an answer
publishes only after all plugins of a forwarding have answered (`interleaved_consolidation`).

The number of reports is bounded in two steps. A call publishes a report for an entry that it took, and the
entries that were taken, with the one that is held, are no more than those that were put
(`takes_add_held_le`). What is held, in turn, is what was forwarded last without the plugins that answered
since, so that the set is empty only when all of them have (`exists_forwarding`).
-/

namespace CmInventory

/-! ## What a request does under a key -/

/-- Whether a request is a call of the cache under a key. -/
def Request.IsUnder (key : String) : Request → Prop
  | .pending call => call.key = key
  | _ => False

/-- What an exchange makes of the set that is held under a key. What has expired may be dropped by any call
under the key, which then tells that there is none. -/
inductive Exchange.Changes (key : String) : Exchange → Option NameSet → Option NameSet → Prop
  | put {held : Option NameSet} {names : NameSet} {life : Interval} :
      Changes key ⟨.pending (.put key names life), ()⟩ held (some names)
  | strike {plugin : String} {life : Interval} {awaited : NameSet} :
      Changes key ⟨.pending (.strike key plugin life), some (awaited.without plugin)⟩
        (some awaited) (some (awaited.without plugin))
  | strikeNone {held : Option NameSet} {plugin : String} {life : Interval} :
      Changes key ⟨.pending (.strike key plugin life), none⟩ held none
  | get {held found : Option NameSet} (h : found = held ∨ found = none) :
      Changes key ⟨.pending (.get key), found⟩ held found
  | take {awaited : NameSet} : Changes key ⟨.pending (.take key), some awaited⟩ (some awaited) none
  | takeNone {held : Option NameSet} : Changes key ⟨.pending (.take key), none⟩ held none
  | other {e : Exchange} {held : Option NameSet} (h : ¬ e.request.IsUnder key) :
      Changes key e held held

namespace World

/-- The set that is held under a key, live or not. -/
def set? (w : World) (key : String) : Option NameSet :=
  (w.held? key).map (·.value)

theorem set?_of_awaited? {w : World} {key : String} {plugins : NameSet}
    (h : w.awaited? key = some plugins) : w.set? key = some plugins := by
  rcases held?_of_awaited? h with ⟨e, he, rfl, -⟩
  rw [set?, he]
  rfl

theorem changes_callPending (w : World) (call : PendingCall) (key : String) :
    Exchange.Changes key ⟨.pending call, (w.callPending call).1⟩ (w.set? key)
      ((w.callPending call).2.set? key) := by
  by_cases hkey : call.key = key
  · subst hkey
    cases call with
    | put key names life =>
        have hafter : (w.callPending (.put key names life)).2.set? key = some names := by
          rw [set?, held?_put]
          rfl
        rw [PendingCall.key, hafter]
        exact .put
    | strike key plugin life =>
        rw [PendingCall.key, set?, set?]
        rcases w.strike_cases key plugin life with ⟨awaited, hbefore, hreply, hafter⟩ | ⟨-, hreply, hafter⟩
        · have hset := set?_of_awaited? hbefore
          rw [set?] at hset
          rw [hset, hreply, hafter]
          exact .strike
        · rw [hreply, hafter]
          exact .strikeNone
    | get key =>
        have hafter : (w.callPending (.get key)).2.set? key = (w.callPending (.get key)).1 := by
          rw [set?, held?_get]
          rfl
        rw [PendingCall.key, hafter]
        refine .get ?_
        cases hawaited : w.awaited? key with
        | none => exact Or.inr hawaited
        | some plugins => exact Or.inl (hawaited.trans (set?_of_awaited? hawaited).symm)
    | take key =>
        rcases w.take_cases key with ⟨hreply, hafter⟩
        rw [PendingCall.key, set?, set?, hreply, hafter]
        cases hawaited : w.awaited? key with
        | none => exact .takeNone
        | some plugins =>
            have hset := set?_of_awaited? hawaited
            rw [set?] at hset
            rw [hset]
            exact .take
  · rw [set?, set?, held?_callPending hkey]
    exact .other hkey

/-- Every reply of the world changes what is held under a key in one of these ways. -/
theorem Answers.changes {fails : StoreCall → Prop} {r : Request} {reply : r.Reply} {w w' : World}
    (h : Answers fails r w reply w') (key : String) :
    Exchange.Changes key ⟨r, reply⟩ (w.set? key) (w'.set? key) := by
  cases r with
  | pending call =>
      rcases Answers.callPending h with ⟨v, hv, hcall⟩
      have hset : v.set? key = w.set? key := by rw [set?, set?, hv]
      have hchanges := v.changes_callPending call key
      rw [hcall, hset] at hchanges
      exact hchanges
  | _ =>
      rw [set?, set?, Answers.held?_eq h (by simp)]
      exact .other fun hunder => hunder

end World

/-! ## Entries that are taken -/

/-- An entry is taken only if one was held, and one is held only if one was put. -/
theorem Exchange.Changes.takes_add_held_le {key : String} {e : Exchange}
    {held held' : Option NameSet} (h : e.Changes key held held') :
    (if e.takes key then 1 else 0) + held'.toList.length ≤
      held.toList.length + if e.request.forwards key then 1 else 0 := by
  cases h with
  | put => simp [takes, Request.forwards]
  | strike => simp [takes]
  | strikeNone => simp [takes]
  | get h => rcases h with rfl | rfl <;> simp [takes]
  | take => simp [takes]
  | takeNone => simp [takes]
  | other hother =>
      have htakes : e.takes key = false := by
        rw [Bool.eq_false_iff]
        intro htakes
        unfold takes at htakes
        split at htakes
        · refine hother ?_
          simp only [Bool.and_eq_true, decide_eq_true_eq] at htakes
          exact htakes.1
        · cases htakes
      simp [htakes]

/-- What a plugin was struck off is held. -/
theorem Exchange.Changes.held_of_strike {key plugin : String} {life : Interval} {left : NameSet}
    {e : Exchange} {held held' : Option NameSet} (h : e.Changes key held held')
    (he : e = ⟨.pending (.strike key plugin life), some left⟩) : held' = some left := by
  cases h with
  | strike =>
      cases he
      rfl
  | other hother =>
      subst he
      exact absurd rfl hother
  | _ => cases he

/-! ## Plugins that answered -/

/-- What is awaited after a request, if nothing expires. -/
def Request.awaits (key : String) (awaited : Option NameSet) : Request → Option NameSet
  | .pending (.put k names _) => if k = key then some names else awaited
  | .pending (.strike k name _) =>
      if k = key then awaited.map (·.without name) else awaited
  | _ => awaited

/-- What is awaited after turns, if nothing expires. -/
def awaitedIn (key : String) (turns : List (Turn World)) : Option NameSet :=
  turns.foldl (fun awaited t => t.request.awaits key awaited) none

theorem awaitedIn_snoc (key : String) (turns : List (Turn World)) (t : Turn World) :
    awaitedIn key (turns ++ [t]) = t.request.awaits key (awaitedIn key turns) := by
  simp [awaitedIn]

theorem Request.awaits_of_not_under {key : String} {r : Request} (h : ¬ r.IsUnder key)
    (awaited : Option NameSet) : r.awaits key awaited = awaited := by
  unfold Request.awaits
  split
  · exact if_neg h
  · exact if_neg h
  · rfl

/-- What is held is what is awaited, if anything is held at all. -/
theorem Exchange.Changes.held_awaits {key : String} {e : Exchange} {held held' awaited : Option NameSet}
    (h : e.Changes key held held') (hheld : ∀ s, held = some s → awaited = some s) :
    ∀ s, held' = some s → e.request.awaits key awaited = some s := by
  intro s hs
  cases h with
  | put =>
      rw [← hs]
      exact if_pos rfl
  | strike =>
      rw [← hs, hheld _ rfl]
      exact if_pos rfl
  | strikeNone => cases hs
  | get h =>
      rcases h with rfl | rfl
      · exact hheld s hs
      · cases hs
  | take => cases hs
  | takeNone => cases hs
  | other hother => rw [Request.awaits_of_not_under hother, hheld s hs]

/-- Whether a request strikes off a plugin under a key. -/
def Request.Strikes (key plugin : String) (r : Request) : Prop :=
  ∃ life, r = .pending (.strike key plugin life)

/-- What is awaited goes back to a forwarding, whose other plugins were struck off since. -/
theorem exists_forwarding {key : String} {turns : List (Turn World)} {awaited : NameSet}
    (h : awaitedIn key turns = some awaited) :
    ∃ earlier f since names life, turns = earlier ++ f :: since ∧
      f.request = .pending (.put key names life) ∧
        ∀ plugin, names.Has plugin → ¬ awaited.Has plugin →
          ∃ t ∈ since, t.request.Strikes key plugin := by
  induction turns using List.reverseRecOn generalizing awaited with
  | nil => cases h
  | append_singleton turns t ih =>
      rw [awaitedIn_snoc] at h
      -- The forwarding is the last turn, or it comes from the turns before.
      have hbefore : ∀ set : NameSet, awaitedIn key turns = some set →
          (∀ plugin, set.Has plugin → ¬ awaited.Has plugin → t.request.Strikes key plugin) →
          ∃ earlier f since names life, turns ++ [t] = earlier ++ f :: since ∧
            f.request = .pending (.put key names life) ∧
              ∀ plugin, names.Has plugin → ¬ awaited.Has plugin →
                ∃ u ∈ since, u.request.Strikes key plugin := by
        intro set hset hstrikes
        rcases ih hset with ⟨earlier, f, since, names, life, rfl, hf, hsince⟩
        refine ⟨earlier, f, since ++ [t], names, life, by simp, hf, ?_⟩
        intro plugin hnames hgone
        by_cases hin : set.Has plugin
        · exact ⟨t, by simp, hstrikes plugin hin hgone⟩
        · rcases hsince plugin hnames hin with ⟨u, hu, hstrike⟩
          exact ⟨u, List.mem_append_left _ hu, hstrike⟩
      have hsame : awaitedIn key turns = some awaited →
          ∃ earlier f since names life, turns ++ [t] = earlier ++ f :: since ∧
            f.request = .pending (.put key names life) ∧
              ∀ plugin, names.Has plugin → ¬ awaited.Has plugin →
                ∃ u ∈ since, u.request.Strikes key plugin :=
        fun hset => hbefore awaited hset fun _ hin hgone => absurd hin hgone
      unfold Request.awaits at h
      split at h
      · rename_i k names life hrequest
        by_cases hk : k = key
        · subst hk
          rw [if_pos rfl] at h
          refine ⟨turns, t, [], names, life, rfl, hrequest, ?_⟩
          intro plugin hnames hgone
          rw [Option.some.inj h] at hnames
          exact absurd hnames hgone
        · rw [if_neg hk] at h
          exact hsame h
      · rename_i k plugin life hrequest
        by_cases hk : k = key
        · rw [if_pos hk] at h
          rcases Option.map_eq_some_iff.1 h with ⟨set, hset, rfl⟩
          refine hbefore set hset ?_
          intro other hin hgone
          rw [NameSet.has_without] at hgone
          have hother : other = plugin := by
            by_contra hne
            exact hgone ⟨hne, hin⟩
          rw [hrequest, hk, hother]
          exact ⟨life, rfl⟩
        · rw [if_neg hk] at h
          exact hsame h
      · exact hsame h

/-! ## Runs -/

/-- In a turn a call of a member notes that a subscription with the key was forwarded to these plugins. -/
def Turn.Forwards (calls : List Consolidation.Call) (key : String) (plugins : List String)
    (t : Turn World) : Prop :=
  ∃ settings clientId subscriptionName life,
    calls[t.member]? = some (.forward settings clientId subscriptionName plugins) ∧
      subscriptionKey clientId subscriptionName = key ∧
        t.request = .pending (.put key (.ofNames plugins) life)

/-- In a turn a call of a member takes in that a plugin answered under the key. -/
def Turn.TakesIn (calls : List Consolidation.Call) (key plugin : String) (t : Turn World) : Prop :=
  ∃ settings a life, calls[t.member]? = some (.answer settings a) ∧ a.key = key ∧ a.plugin = plugin ∧
    t.request = .pending (.strike key plugin life)

/-- What holds of the reports under a key. -/
structure Consolidated (calls : List Consolidation.Call) (turns : List (Turn World)) (key : String) :
    Prop where
  /-- No more reports are published than subscriptions were forwarded. -/
  bounded : (turns.countP fun t => t.request.reportsOn key) ≤
    turns.countP fun t => t.request.forwards key
  /-- An answer publishes only after every plugin of a forwarding has answered since. -/
  answered : ∀ before t after settings a, turns = before ++ t :: after →
    t.request.reportsOn key = true → calls[t.member]? = some (.answer settings a) →
      ∃ earlier f since plugins, before = earlier ++ f :: since ∧ f.Forwards calls key plugins ∧
        ∀ plugin ∈ plugins, ∃ u ∈ since, u.TakesIn calls key plugin
  /-- Of a subscription that was forwarded once nothing is published after a report. -/
  once : (turns.countP fun t => t.request.forwards key) = 1 →
    ∀ before t after, turns = before ++ t :: after → t.request.reportsOn key = true →
      ∀ u ∈ after, u.request.reportsOn key = false

section

variable {fails : StoreCall → Prop} {calls : List Consolidation.Call} {w w' : World}
  {turns : List (Turn World)} {qs : List (Program (Except InventoryError Bool))} {key : String}

theorem Interleaved.takes_add_held_le {ps : List (Program (Except InventoryError Bool))}
    (h : Interleaved (World.Answers fails) ps w turns qs w') (hw : w.set? key = none) :
    (turns.countP fun t => t.exchange.takes key) + (w'.set? key).toList.length ≤
      turns.countP fun t => t.request.forwards key := by
  induction h with
  | start => simp [hw]
  | @turn turns qs w₁ w₂ i r next reply _ asked answered ih =>
      have hstep := (World.Answers.changes answered key).takes_add_held_le
      rw [List.countP_append, List.countP_append, List.countP_singleton, List.countP_singleton]
      -- What the turn took and left is counted against what was held before it, and what it put.
      calc
        _ = _ + (_ + (w₂.set? key).toList.length) := Nat.add_assoc _ _ _
        _ ≤ _ + ((w₁.set? key).toList.length + _) := Nat.add_le_add_left hstep _
        _ = _ + (w₁.set? key).toList.length + _ := (Nat.add_assoc _ _ _).symm
        _ ≤ _ := Nat.add_le_add_right ih _

/-- What is held is what was forwarded last without the plugins that answered since. -/
theorem Interleaved.held_awaited {ps : List (Program (Except InventoryError Bool))}
    (h : Interleaved (World.Answers fails) ps w turns qs w') (hw : w.set? key = none) :
    ∀ awaited, w'.set? key = some awaited → awaitedIn key turns = some awaited := by
  induction h with
  | start =>
      intro awaited hheld
      rw [hw] at hheld
      cases hheld
  | @turn turns qs w₁ w₂ i r next reply _ asked answered ih =>
      rw [awaitedIn_snoc]
      exact (World.Answers.changes answered key).held_awaits ih

/-- What the member with a number may ask for in the light of its record. -/
def Consolidation.MayAt (calls : List Call) (i : Nat) (r : Request) (past : List Exchange) : Prop :=
  ∃ x, calls[i]? = some x ∧ x.May r past

/-- Every call asks for what its record allows. -/
theorem Interleaved.call_may
    (h : Interleaved (World.Answers fails) (calls.map Consolidation.Call.program) w turns qs w')
    {before after : List (Turn World)} {t : Turn World} (ht : turns = before ++ t :: after) :
    Consolidation.MayAt calls t.member t.request (recordOf t.member before) := by
  have hprograms : ∀ i (p : Program (Except InventoryError Bool)),
      (calls.map Consolidation.Call.program)[i]? = some p →
        p.Ensures (.recorded (Consolidation.MayAt calls i)) (fun _ _ => True) [] := by
    intro i p hp
    rw [List.getElem?_map] at hp
    rcases Option.map_eq_some_iff.1 hp with ⟨x, hx, rfl⟩
    have hmay : Consolidation.MayAt calls i = x.May := by
      funext r past
      simp [Consolidation.MayAt, hx]
    rw [hmay]
    exact x.may_program
  exact (h.asked hprograms).1 before t after ht

/-- A report is published for an entry that was taken. -/
theorem Interleaved.reports_le_takes
    (h : Interleaved (World.Answers fails) (calls.map Consolidation.Call.program) w turns qs w') :
    (turns.countP fun t => t.request.reportsOn key) ≤
      turns.countP fun t => t.exchange.takes key := by
  refine countP_le_of_asked (p := fun e => e.request.reportsOn key) (q := Exchange.takes key) ?_
  intro before t after ht hreports
  rcases h.call_may ht with ⟨x, -, hmay⟩
  rcases Request.publishes_of_reportsOn hreports with ⟨p, hp, rfl⟩
  have hp : t.request = .publish p := hp
  rw [hp] at hmay
  exact hmay.1

/-- What an answer reports on was forwarded, and every plugin has answered since. -/
theorem Interleaved.answered_of_reports (hw : w.set? key = none)
    (h : Interleaved (World.Answers fails) (calls.map Consolidation.Call.program) w turns qs w')
    {before after : List (Turn World)} {t : Turn World} (ht : turns = before ++ t :: after)
    (hreports : t.request.reportsOn key = true) {settings : Consolidation} {a : PluginAnswer}
    (hcall : calls[t.member]? = some (.answer settings a)) :
    ∃ earlier f since plugins, before = earlier ++ f :: since ∧ f.Forwards calls key plugins ∧
      ∀ plugin ∈ plugins, ∃ u ∈ since, u.TakesIn calls key plugin := by
  rcases h.call_may ht with ⟨x, hx, hmay⟩
  rw [hcall, Option.some.injEq] at hx
  subst hx
  -- The answer struck off the last plugin before it published.
  have hempties : ∃ e ∈ recordOf t.member before, e.empties key = true := by
    rcases Request.publishes_of_reportsOn hreports with ⟨p, hp, rfl⟩
    rw [hp] at hmay
    exact hmay.2 ⟨settings, a, rfl⟩
  rcases hempties with ⟨e, he, hempties⟩
  rcases mem_recordOf.1 he with ⟨s, hs, -, rfl⟩
  rcases List.append_of_mem hs with ⟨earlier, later, rfl⟩
  have hsplit : turns = earlier ++ s :: (later ++ t :: after) := by simp [ht]
  rcases h.upto hsplit with ⟨⟨qs', hearlier⟩, hstrike⟩
  rcases Exchange.strikes_of_empties hempties with ⟨plugin, life, left, hs, hempty⟩
  have hawaited : awaitedIn key (earlier ++ [s]) = some left := by
    rw [awaitedIn_snoc]
    have hchanges := World.Answers.changes hstrike key
    exact hchanges.held_awaits (hearlier.held_awaited hw) left (hchanges.held_of_strike hs)
  rcases exists_forwarding hawaited with ⟨first, f, since, names, life', hforwarding, hf, hall⟩
  have hbefore : earlier ++ s :: later = first ++ f :: (since ++ later) := by
    rw [List.append_cons, hforwarding]
    simp
  have hturns : turns = first ++ f :: (since ++ later ++ t :: after) := by
    rw [ht, hbefore]
    simp
  -- What was put is what a call forwarded, and what was struck off is what another one took in.
  rcases h.call_may hturns with ⟨y, hy, hmay⟩
  rw [hf] at hmay
  rcases hmay with ⟨settings', clientId, subscriptionName, plugins, rfl, hkey, rfl⟩
  refine ⟨first, f, since ++ later, plugins, hbefore, ⟨_, _, _, _, hy, hkey, hf⟩, ?_⟩
  intro plugin hplugin
  have hgone : ¬ left.Has plugin := NameSet.isEmpty_iff.1 hempty plugin
  rcases hall plugin (NameSet.has_ofNames.2 hplugin) hgone with ⟨u, hu, life'', hstrikes⟩
  rcases List.append_of_mem hu with ⟨sooner, rest, rfl⟩
  have huturns : turns = (first ++ f :: sooner) ++ u :: (rest ++ later ++ t :: after) := by
    rw [hturns]
    simp
  rcases h.call_may huturns with ⟨z, hz, hmay⟩
  rw [hstrikes] at hmay
  rcases hmay with ⟨settings'', b, rfl, hkey, hplugin⟩
  exact ⟨u, by simp, settings'', b, life'', hz, hkey, hplugin, hstrikes⟩

/-- However calls are interleaved, no more reports are published under a key than subscriptions were
forwarded. An answer publishes only after all plugins of a forwarding have answered since, and of a
subscription that was forwarded once only one report is published. -/
theorem interleaved_consolidation (hw : w.set? key = none)
    (h : Interleaved (World.Answers fails) (calls.map Consolidation.Call.program) w turns qs w') :
    Consolidated calls turns key := by
  have hbounded : (turns.countP fun t => t.request.reportsOn key) ≤
      turns.countP fun t => t.request.forwards key := by
    have htakes := h.takes_add_held_le hw
    exact Nat.le_trans h.reports_le_takes (Nat.le_trans (Nat.le_add_right _ _) htakes)
  refine ⟨hbounded, ?_, ?_⟩
  · intro before t after settings a ht hreports hcall
    exact h.answered_of_reports hw ht hreports hcall
  · intro honce before t after ht hreports u hu
    have hcons : ((t :: after).countP fun t => t.request.reportsOn key) =
        (after.countP fun t => t.request.reportsOn key) + 1 := List.countP_cons_of_pos hreports
    rw [honce, ht, List.countP_append, hcons] at hbounded
    have hafter : (after.countP fun t => t.request.reportsOn key) = 0 := by omega
    simpa using List.countP_eq_zero.1 hafter u hu

end

/-! ## A race for one entry -/

/-- A subscription is forwarded to one plugin, which answers while another member ends the wait. -/
def racingCalls : List Consolidation.Call :=
  [.forward storelessSettings "client" "name" ["plugin"],
    .answer storelessSettings (bareAnswer ("client", "name")),
    .timeOut storelessSettings (bareAnswer ("client", "name"))]

/-- The end of the wait finds nothing to take: the answer took the entry before, and reports after it. -/
theorem interleaved_consolidation_race :
    ∃ turns qs w,
      Interleaved (World.Answers fun _ => True) (racingCalls.map Consolidation.Call.program) .empty
        turns qs w ∧
      turns.map Turn.member = [0, 1, 1, 2, 1] ∧
      (turns.countP fun t => t.request.reportsOn "clientname") = 1 ∧
      Consolidated racingCalls turns "clientname" := by
  have answered := World.answers_undisturbed fun _ => True
  have h₀ := @Interleaved.start _ _ (World.Answers fun _ => True)
    (racingCalls.map Consolidation.Call.program) World.empty
  have h₁ := h₀.snoc 0 rfl (answered _ _)
  have h₂ := h₁.snoc 1 rfl (answered _ _)
  have h₃ := h₂.snoc 1 rfl (answered _ _)
  have h₄ := h₃.snoc 2 rfl (answered _ _)
  have h₅ := h₄.snoc 1 rfl (answered _ _)
  exact ⟨_, _, _, h₅, rfl, rfl, interleaved_consolidation rfl h₅⟩

end CmInventory
