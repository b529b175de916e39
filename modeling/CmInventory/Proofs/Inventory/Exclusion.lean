import CmInventory.Proofs.Coordination.Markers
import CmInventory.Proofs.Inventory.Demands
import CmInventory.Proofs.Store.Selections

/-!
# Exclusive work on a handle

Members put the marker of a handle before they work on it and take it off afterwards, so that no two of them
work on the handle at the same time. A marker lives for a limited time, and a member that takes longer takes
off whatever marker it finds.

How members use a marker is told by each of them alone (`Request.Fits`): none asks for the marker while it
carries it, and none takes it off unless it does. For the runs of any number of members, with any passing of
time, it follows when the member that carries a living marker shares the handle with another one: exactly if
another member took the marker off and it was asked for after that (`another_puts_iff`). As long as every
marker is taken off in time that does not happen.
-/

namespace CmInventory

open Inventory

/-! ## What each member does -/

section

variable {kind k : SyncKind} {id i : HandleId} {past : List Exchange}

/-- Whether a request for the marker of a handle, or to take it off, fits the record of a member. -/
def Request.Fits (kind : SyncKind) (id : HandleId) : Request → List Exchange → Prop
  | .mark k i _ _, past => k = kind → i = id → ¬ Holding kind id past
  | .unmark k i, past => k = kind → i = id → Holding kind id past
  | _, _ => True

/-- A request that has nothing to do with the marker leaves a member carrying it or not. -/
theorem holding_of_not_marks {e : Exchange} (h : ¬ e.request.Marks kind id) :
    Holding kind id (past ++ [e]) ↔ Holding kind id past := by
  rw [holding_snoc]
  constructor
  · rintro (⟨life, hputs⟩ | ⟨hholding, -⟩)
    · exact absurd hputs (Exchange.not_puts_of_not_marks h)
    · exact hholding
  · exact fun hholding => Or.inr ⟨hholding, Exchange.not_takesOff_of_not_marks h⟩

theorem Request.Spares.not_marks {r : Request} (h : r.Spares id) : ¬ r.Marks kind id := by
  cases r with
  | mark k i owner life => exact fun hmarks => h hmarks.2
  | unmark k i => exact fun hmarks => h hmarks.2
  | _ => exact fun hmarks => hmarks

theorem Request.fits_of_not_marks {r : Request} (h : ¬ r.Marks kind id) : r.Fits kind id past := by
  cases r with
  | mark k i owner life => exact fun hk hi => absurd ⟨hk, hi⟩ h
  | unmark k i => exact fun hk hi => absurd ⟨hk, hi⟩ h
  | _ => trivial

/-- The setting of a member that uses the marker of a handle as it should. -/
abbrev Setting.marking (kind : SyncKind) (id : HandleId) : Setting (List Exchange) :=
  .recorded (Request.Fits kind id)

/-- A program that spares the marker neither starts nor stops carrying it. -/
theorem Program.Asks.marking {α : Type} {p : Program α} (h : p.Asks (Request.Spares id)) :
    p.Ensures (.marking kind id)
      (fun _ past' => Holding kind id past' ↔ Holding kind id past) past := by
  refine h.ensures (I := fun past' => Holding kind id past' ↔ Holding kind id past) Iff.rfl ?_
  intro r past' hspares hsame
  refine ⟨Request.fits_of_not_marks hspares.not_marks, ?_⟩
  rintro reply _ rfl
  exact (holding_of_not_marks hspares.not_marks).trans hsame

/-- A program that leaves a member without the marker. -/
def Program.Returns {α : Type} (kind : SyncKind) (id : HandleId) (p : Program α) : Prop :=
  ∀ past, ¬ Holding kind id past →
    p.Ensures (.marking kind id) (fun _ past' => ¬ Holding kind id past') past

theorem Program.Asks.returns {α : Type} {p : Program α} (h : p.Asks (Request.Spares id)) :
    p.Returns kind id := by
  intro past hfree
  exact h.marking.mono fun _ past' hsame hholding => hfree (hsame.1 hholding)

theorem Program.Returns.bind {α β : Type} {p : Program α} {f : α → Program β}
    (hp : p.Returns kind id) (hf : ∀ a, (f a).Returns kind id) : (p >>= f).Returns kind id := by
  intro past hfree
  exact (hp past hfree).bind fun a past' hfree' => hf a past' hfree'

/-- Work on a handle ends with its marker taken off, if it was put. -/
theorem returns_whileMarked {m : Member} {work : Action Unit}
    (hwork : work.run.Asks (Request.Spares id)) :
    (whileMarked m k i work).Returns kind id := by
  intro past hfree
  rw [whileMarked, Program.ensures_bind]
  refine recorded_request (fun _ _ => hfree) fun put => ?_
  cases put with
  | false =>
      intro hholding
      rcases holding_snoc.1 hholding with ⟨life, owner, heq⟩ | ⟨hholding, -⟩
      · cases heq
      · exact hfree hholding
  | true =>
      rw [if_pos rfl, Program.ensures_bind]
      refine hwork.marking.mono fun result past' hsame => ?_
      by_cases hown : k = kind ∧ i = id
      · rcases hown with ⟨rfl, rfl⟩
        have hputs : Holding k i past' := hsame.2 (holding_snoc.2 (Or.inl ⟨_, _, rfl⟩))
        rw [Program.ensures_bind]
        refine recorded_request (fun _ _ => hputs) fun _ => ?_
        intro hholding
        rcases holding_snoc.1 hholding with ⟨life, owner, heq⟩ | ⟨-, hkept⟩
        · cases heq
        · exact hkept rfl
      · -- The marker of another handle, or for other work.
        have hput : ¬ (Request.mark k i m.name m.markerLife).Marks kind id := hown
        have htake : ¬ (Request.unmark k i).Marks kind id := hown
        rw [holding_of_not_marks hput] at hsame
        rw [Program.ensures_bind]
        refine recorded_request (Request.fits_of_not_marks htake) fun _ => ?_
        rw [Program.pure_eq, Program.ensures_done, holding_of_not_marks htake, hsame]
        exact hfree

theorem returns_visitAll {pick : List HandleId → Action (Option Handle)}
    {visit : Handle → Program (Except InventoryError Unit)} {bound : Nat} {visited : List HandleId}
    {report : CycleReport} (hpick : ∀ visited, (pick visited).run.Asks (Request.Spares id))
    (hvisit : ∀ h, (visit h).Returns kind id) :
    (visitAll pick visit bound visited report).Returns kind id :=
  fun _ hfree => keeps_visitAll (fun visited _ => (hpick visited).returns _) (fun h => hvisit h) hfree

theorem returns_attempt (m : Member) (work : SyncKind) (h : Handle) :
    (attempt m work h).Returns kind id := by
  cases work with
  | data => exact returns_whileMarked (asks_syncData.mono fun _ hr => hr.spares)
  | modules => exact returns_whileMarked (asks_syncModules.mono fun _ hr => hr.spares)

/-- A demand is served with the marker of a handle used as it should, unless the handle is to be removed. -/
theorem returns_program {d : Demand} (h : ¬ d.Removes id) : d.program.Returns kind id := by
  have hdone : ∀ {α : Type} {p : Program α}, p.Returns kind id →
      (do let _ ← p; return () : Program Unit).Returns kind id := by
    intro α p hp
    exact hp.bind fun _ past hfree => hfree
  cases d with
  | create topic endpoints requested => exact hdone spares_create.returns
  | update requested => exact hdone spares_update.returns
  | remove topic rawIds => exact hdone (spares_remove h).returns
  | process topic registration => exact hdone (spares_process h).returns
  | dataCycle m bound =>
      refine hdone ?_
      rw [dataCycle_eq]
      exact returns_visitAll (fun _ => spares_pick) fun g => returns_attempt m .data g
  | moduleCycle m bound =>
      refine hdone ?_
      rw [moduleCycle_eq]
      refine spares_readvise.returns.bind fun _ => ?_
      exact returns_visitAll (fun _ => spares_pick) fun g => returns_attempt m .modules g
  | wait length => exact fun past hfree => hfree

theorem returns_script {demands : List Demand} (h : ∀ d ∈ demands, ¬ d.Removes id) :
    (Demand.script demands).Returns kind id := by
  induction demands with
  | nil => exact fun past hfree => hfree
  | cons d rest ih =>
      rw [Demand.script, List.mapM_cons]
      refine (returns_program (h d (by simp))).bind fun _ => ?_
      refine (ih fun d hd => h d (by simp [hd])).bind fun _ => ?_
      exact fun past hfree => hfree

end

/-! ## What members do together -/

section

variable {fails : StoreCall → Prop} {demands : List (List Demand)} {w₀ w : World}
  {turns before during : List (Turn World)} {put t : Turn World} {qs : List (Program (List Unit))}
  {kind : SyncKind} {id : HandleId} {life : Interval} {i : Nat} {ends : Nat}

/-- What a turn makes of the marker of a handle. -/
abbrev Turn.Remarks (t : Turn World) (kind : SyncKind) (id : HandleId) : Prop :=
  t.exchange.Remarks kind id t.after.time (t.before.marker? kind id) (t.after.marker? kind id)

theorem carries_snoc :
    Carries kind id i (turns ++ [t]) ends ↔
      (t.member = i ∧ ∃ life, t.exchange.Puts kind id life ∧ ends = t.after.time + life.nanos) ∨
        (Carries kind id i turns ends ∧ ¬ (t.member = i ∧ t.exchange.TakesOff kind id)) :=
  since_snoc

/-- A turn that neither puts nor takes off the marker leaves everybody carrying it or not. -/
theorem carries_of_idle (hputs : ∀ life, ¬ t.exchange.Puts kind id life)
    (h : Carries kind id i (turns ++ [t]) ends) : Carries kind id i turns ends := by
  rcases carries_snoc.1 h with ⟨-, life, hput, -⟩ | ⟨hcarries, -⟩
  · exact absurd hput (hputs life)
  · exact hcarries

/-- A member that puts the marker of a handle and does not take it off carries it. -/
theorem carries_of_put (hput : put.exchange.Puts kind id life)
    (hkept : ∀ t ∈ during, t.exchange.TakesOff kind id → t.member ≠ put.member) :
    Carries kind id put.member (before ++ put :: during) (put.after.time + life.nanos) :=
  ⟨before, put, during, rfl, ⟨rfl, life, hput, rfl⟩, fun t ht htakes => hkept t ht htakes.2 htakes.1⟩

/-- Every member uses the marker of a handle that nobody removes as it should. -/
theorem Interleaved.fits (kind : SyncKind) (hspared : ∀ ds ∈ demands, ∀ d ∈ ds, ¬ d.Removes id)
    (h : Interleaved (World.Answers fails) (demands.map Demand.script) w₀ turns qs w)
    {rest : List (Turn World)} (ht : turns = before ++ t :: rest) :
    t.request.Fits kind id (recordOf t.member before) := by
  have hps : ∀ (j : Nat) (p : Program (List Unit)), (demands.map Demand.script)[j]? = some p →
      p.Ensures (.recorded (Request.Fits kind id)) (fun _ _ => True) [] := by
    intro j p hp
    rw [List.getElem?_map] at hp
    rcases Option.map_eq_some_iff.1 hp with ⟨ds, hds, rfl⟩
    have hreturns : (Demand.script ds).Returns kind id :=
      returns_script (hspared ds (List.mem_of_getElem? hds))
    exact (hreturns [] not_since_nil).mono fun _ _ _ => trivial
  exact (h.asked hps).1 before t rest ht

/-- Time does not go back. -/
theorem Interleaved.time_le {ps : List (Program (List Unit))}
    (h : Interleaved (World.Answers fails) ps w₀ turns qs w) (ht : t ∈ turns) :
    t.before.time ≤ w.time ∧ t.after.time ≤ w.time := by
  rcases List.append_of_mem ht with ⟨earlier, later, rfl⟩
  have hsince : Since (fun u => u = t) (fun _ => False) (earlier ++ t :: later) :=
    ⟨earlier, t, later, rfl, rfl, fun _ _ h => h⟩
  refine h.since (I := fun v => t.before.time ≤ v.time ∧ t.after.time ≤ v.time) hsince ?_ ?_
  · rintro _ _ answered rfl
    exact ⟨World.Answers.time_le answered, Nat.le_refl _⟩
  · rintro u _ answered - ⟨hbefore, hafter⟩
    have hle := World.Answers.time_le answered
    exact ⟨Nat.le_trans hbefore hle, Nat.le_trans hafter hle⟩

/-! ### The marker of one member -/

/-- The entry of a marker that was put is live until the life of the marker is over. -/
theorem isLive_of_lt {now later : Nat} {owner : String} (h : later < now + life.nanos) :
    (CacheEntry.startingAt now owner (some life)).isLive later = true :=
  decide_eq_true h

/-- A marker that nobody takes off is held while it lives. -/
theorem Interleaved.marker?_of_put {ps : List (Program (List Unit))}
    (h : Interleaved (World.Answers fails) ps w₀ (before ++ put :: during) qs w)
    (hput : put.exchange.Puts kind id life)
    (hkept : ∀ t ∈ during, ¬ t.exchange.TakesOff kind id) (hlives : w.time < put.after.time + life.nanos) :
    ∃ e, w.marker? kind id = some e ∧ ∀ now < put.after.time + life.nanos, e.isLive now = true := by
  have hsince : Since (fun t => t = put) (fun t => t.exchange.TakesOff kind id)
      (before ++ put :: during) := ⟨before, put, during, rfl, rfl, hkept⟩
  refine h.since (I := fun v => v.time < put.after.time + life.nanos → ∃ e,
    v.marker? kind id = some e ∧ ∀ now < put.after.time + life.nanos, e.isLive now = true)
    hsince ?_ ?_ hlives
  · rintro _ _ answered rfl _
    rcases ((World.Answers.remarks answered kind id).1.of_puts hput).2 with ⟨owner, hafter⟩
    exact ⟨_, hafter, fun now hnow => isLive_of_lt hnow⟩
  · intro t _ answered htakes hbefore hlives
    have hremarks := (World.Answers.remarks answered kind id).1
    rcases hbefore (Nat.lt_of_le_of_lt (World.Answers.time_le answered) hlives) with ⟨e, he, hlive⟩
    -- While the marker lives, nobody else can put one.
    have hputs : ∀ life, ¬ t.exchange.Puts kind id life := fun _ =>
      hremarks.not_puts_of_live he (hlive _ hlives)
    exact ⟨e, (hremarks.unchanged hputs htakes).trans he, hlive⟩

/-- After a marker was taken off none is held until one is put. -/
theorem Interleaved.marker?_of_takesOff {ps : List (Program (List Unit))}
    (h : Interleaved (World.Answers fails) ps w₀ (before ++ t :: during) qs w)
    (htakes : t.exchange.TakesOff kind id)
    (hfree : ∀ u ∈ during, ¬ ∃ life, u.exchange.Puts kind id life) : w.marker? kind id = none := by
  have hsince : Since (fun u => u = t) (fun u => ∃ life, u.exchange.Puts kind id life)
      (before ++ t :: during) := ⟨before, t, during, rfl, rfl, hfree⟩
  refine h.since (I := fun v => v.marker? kind id = none) hsince ?_ ?_
  · rintro _ _ answered rfl
    exact (World.Answers.remarks answered kind id).1.of_takesOff htakes
  · intro u _ answered hputs hbefore
    have hremarks := (World.Answers.remarks answered kind id).1
    by_cases htakes : u.exchange.TakesOff kind id
    · exact hremarks.of_takesOff htakes
    · exact (hremarks.unchanged (fun life h => hputs ⟨life, h⟩) htakes).trans hbefore

/-! ### Members that are in time -/

/-- The member that carries a living marker carries the one that is held, and no other member does. -/
def CarriedAlone (kind : SyncKind) (id : HandleId) (turns : List (Turn World)) (w : World) : Prop :=
  ∀ i ends, Carries kind id i turns ends → w.time < ends →
    (∃ e, w.marker? kind id = some e ∧ ∀ now < ends, e.isLive now = true) ∧
      ∀ j ends', Carries kind id j turns ends' → w.time < ends' → j = i

/-- The member that puts the marker carries it alone, since no marker lived before. -/
theorem CarriedAlone.of_put (h : CarriedAlone kind id turns t.before) (hremarks : t.Remarks kind id)
    (htime : t.before.time ≤ t.after.time) (hput : t.exchange.Puts kind id life) :
    CarriedAlone kind id (turns ++ [t]) t.after := by
  rcases hremarks.of_puts hput with ⟨hunmarked, owner, hafter⟩
  have hown : ∀ j ends', Carries kind id j (turns ++ [t]) ends' → t.after.time < ends' →
      j = t.member ∧ ends' = t.after.time + life.nanos := by
    intro j ends' hcarries hlives
    rcases carries_snoc.1 hcarries with ⟨hj, life', hput', hends⟩ | ⟨hcarries, -⟩
    · rcases hput with ⟨owner, heq⟩
      rcases hput' with ⟨owner', heq'⟩
      rw [heq] at heq'
      cases heq'
      exact ⟨hj.symm, hends⟩
    · rcases (h j ends' hcarries (Nat.lt_of_le_of_lt htime hlives)).1 with ⟨e, he, hlive⟩
      have hlive := hlive _ hlives
      rw [hunmarked e he] at hlive
      cases hlive
  intro i ends hcarries hlives
  rcases hown i ends hcarries hlives with ⟨rfl, rfl⟩
  refine ⟨⟨_, hafter, fun now hnow => isLive_of_lt hnow⟩, ?_⟩
  intro j ends' hother hlives'
  exact (hown j ends' hother hlives').1

/-- Who takes off the marker in time carried it alone, so that nobody carries a living one afterwards. -/
theorem CarriedAlone.of_takesOff (h : CarriedAlone kind id turns t.before)
    (htime : t.before.time ≤ t.after.time) (htakes : t.exchange.TakesOff kind id)
    (hcarries : Carries kind id t.member turns ends) (hintime : t.after.time < ends) :
    CarriedAlone kind id (turns ++ [t]) t.after := by
  intro i ends' hafter hlives
  rcases carries_snoc.1 hafter with ⟨-, life, hput, -⟩ | ⟨hbefore, hkept⟩
  · exact absurd htakes hput.not_takesOff
  · have hlives := Nat.lt_of_le_of_lt htime hlives
    have hmember := (h i ends' hbefore hlives).2 t.member ends hcarries
      (Nat.lt_of_le_of_lt htime hintime)
    exact absurd ⟨hmember, htakes⟩ hkept

/-- As long as every marker is taken off in time, a living marker is carried by one member alone. -/
theorem Interleaved.carriedAlone (hspared : ∀ ds ∈ demands, ∀ d ∈ ds, ¬ d.Removes id)
    (h : Interleaved (World.Answers fails) (demands.map Demand.script) w₀ turns qs w)
    (hintime : TakenOffInTime kind id turns) : CarriedAlone kind id turns w := by
  refine h.alongside (P := CarriedAlone kind id) ?_ ?_
  · exact fun i ends hcarries => absurd hcarries not_since_nil
  · intro past t rest heq answered hbefore
    have hremarks := (World.Answers.remarks answered kind id).1
    have htime := World.Answers.time_le answered
    by_cases htakes : t.exchange.TakesOff kind id
    · have hfits := h.fits kind hspared heq
      rw [show t.request = .unmark kind id from htakes] at hfits
      rcases holding_recordOf.1 (hfits rfl rfl) with ⟨ends, hcarries⟩
      exact hbefore.of_takesOff htime htakes hcarries (hintime past t rest ends heq htakes hcarries)
    by_cases hputs : ∃ life, t.exchange.Puts kind id life
    · rcases hputs with ⟨life, hput⟩
      exact hbefore.of_put hremarks htime hput
    · have hputs : ∀ life, ¬ t.exchange.Puts kind id life := fun life h => hputs ⟨life, h⟩
      intro i ends hcarries hlives
      have hearlier := hbefore i ends (carries_of_idle hputs hcarries)
        (Nat.lt_of_le_of_lt htime hlives)
      rw [hremarks.unchanged hputs htakes]
      refine ⟨hearlier.1, ?_⟩
      intro j ends' hother hlives'
      exact hearlier.2 j ends' (carries_of_idle hputs hother) (Nat.lt_of_le_of_lt htime hlives')

/-! ### Exclusion -/

/-- While a member carries a marker of a handle that lives, it does not ask for the marker again. Another
member gets the marker exactly if some other member took it off and it was asked for after that. That
never happens as long as every marker is taken off before its life is over. -/
theorem another_puts_iff (hspared : ∀ ds ∈ demands, ∀ d ∈ ds, ¬ d.Removes id)
    (h : Interleaved (World.Answers fails) (demands.map Demand.script) w₀ turns qs w)
    (hturns : turns = before ++ put :: during) (hput : put.exchange.Puts kind id life)
    (hkept : ∀ t ∈ during, t.exchange.TakesOff kind id → t.member ≠ put.member)
    (hlives : w.time < put.after.time + life.nanos) :
    (∀ t ∈ during, t.exchange.AsksFor kind id → t.member ≠ put.member) ∧
      ((∃ t ∈ during, ∃ life, t.exchange.Puts kind id life) ↔
        ∃ earlier u later, during = earlier ++ u :: later ∧ u.exchange.TakesOff kind id ∧
          ∃ t ∈ later, t.exchange.AsksFor kind id) ∧
      (TakenOffInTime kind id turns → ∀ t ∈ during, ¬ t.exchange.TakesOff kind id) := by
  subst hturns
  have hsplit : ∀ {earlier t later}, during = earlier ++ t :: later →
      before ++ put :: during = (before ++ put :: earlier) ++ t :: later := by
    rintro earlier t later rfl
    simp
  have hcarries : ∀ {earlier later}, during = earlier ++ later →
      Carries kind id put.member (before ++ put :: earlier) (put.after.time + life.nanos) := by
    rintro earlier later rfl
    exact carries_of_put hput fun t ht => hkept t (List.mem_append_left _ ht)
  have htime : ∀ t ∈ during, t.before.time ≤ w.time ∧ t.after.time ≤ w.time :=
    fun t ht => h.time_le (by simp [ht])
  refine ⟨?_, ⟨?_, ?_⟩, ?_⟩
  · rintro t ht ⟨owner, life', hrequest⟩ hmember
    rcases List.append_of_mem ht with ⟨earlier, later, hduring⟩
    have hfits := h.fits kind hspared (hsplit hduring)
    rw [show t.request = .mark kind id owner life' from hrequest] at hfits
    have hcarries := hcarries hduring
    rw [← hmember] at hcarries
    exact hfits rfl rfl (holding_recordOf.2 ⟨_, hcarries⟩)
  · rintro ⟨t, ht, life', hputs⟩
    rcases List.append_of_mem ht with ⟨earlier, later, hduring⟩
    rcases h.upto (hsplit hduring) with ⟨⟨qs', hrun⟩, answered⟩
    -- If nobody had taken it off, the marker would still have been held.
    by_contra hnone
    have hheld : ∀ u ∈ earlier, ¬ u.exchange.TakesOff kind id := by
      intro u hu htakes
      rcases List.append_of_mem hu with ⟨sooner, rest, rfl⟩
      exact hnone ⟨sooner, u, rest ++ t :: later, by simp [hduring], htakes, t, by simp, hputs.asksFor⟩
    have hlive := Nat.lt_of_le_of_lt (htime t ht).2 hlives
    rcases hrun.marker?_of_put hput hheld (Nat.lt_of_le_of_lt (htime t ht).1 hlives) with ⟨e, he, hlives⟩
    exact (World.Answers.remarks answered kind id).1.not_puts_of_live he (hlives _ hlive) hputs
  · rintro ⟨earlier, u, later, hduring, htakes, t, ht, hasks⟩
    rcases List.append_of_mem ht with ⟨sooner, rest, rfl⟩
    by_contra hnone
    have hmem : ∀ v ∈ sooner, v ∈ during := fun v hv => by simp [hduring, hv]
    have hturns : before ++ put :: during =
        ((before ++ put :: earlier) ++ u :: sooner) ++ t :: rest := by simp [hduring]
    rcases h.upto hturns with ⟨⟨qs', hrun⟩, answered⟩
    -- Nobody put a marker since it was taken off, so this member can.
    have hfree := hrun.marker?_of_takesOff htakes fun v hv hputs => hnone ⟨v, hmem v hv, hputs⟩
    have hremarks := (World.Answers.remarks answered kind id).1
    rw [hfree] at hremarks
    exact hnone ⟨t, by simp [hduring], hremarks.puts_of_none hasks⟩
  · intro hintime t ht htakes
    rcases List.append_of_mem ht with ⟨earlier, later, hduring⟩
    have hturns := hsplit hduring
    rcases h.upto hturns with ⟨⟨qs', hrun⟩, answered⟩
    have halone := hrun.carriedAlone hspared fun past u rest ends heq =>
      hintime past u (rest ++ t :: later) ends (by rw [hturns, heq]; simp)
    have hfits := h.fits kind hspared hturns
    rw [show t.request = .unmark kind id from htakes] at hfits
    rcases holding_recordOf.1 (hfits rfl rfl) with ⟨ends, hown⟩
    have hends : t.before.time < ends := Nat.lt_of_le_of_lt (World.Answers.time_le answered)
      (hintime _ t later ends hturns htakes hown)
    -- Both this member and the one that carries the marker would carry a living one.
    have hmember := (halone put.member _ (hcarries hduring)
      (Nat.lt_of_le_of_lt (htime t ht).1 hlives)).2 t.member ends hown hends
    exact hkept t ht htakes hmember

end

/-! ### A member that takes too long -/

/-- A reply that comes some time after the request before. -/
theorem World.answers_later (fails : StoreCall → Prop) (length : Interval) (r : Request) (w : World) :
    World.Answers fails r w (World.reply World.undisturbed r (w.advance length)).1
      (World.reply World.undisturbed r (w.advance length)).2 := by
  refine ⟨World.undisturbed, length, ?_, rfl⟩
  intro n call e hfails
  cases hfails

/-- A member that synchronizes the data of one handle, under a marker that lives for a second. -/
def synchronizing (name : String) : List Demand :=
  [.dataCycle ⟨name, .ofSeconds 1, .zero, "lcm"⟩ 1]

/-- A ready handle of which the data are to be synchronized. -/
def unsynchronizedHandle : Handle :=
  { (default : Handle) with
    id := ⟨"a"⟩
    status := { (default : HandleStatus) with
      lifecycle := .ready
      dataSync := true
      operational := .initial true } }

/-- A world with that handle in its store. -/
def unsynchronizedWorld : World :=
  { World.empty with store := Store.empty.putHandle unsynchronizedHandle }

/-- The first member works on the handle until its marker is no longer live. The second one puts its own
marker, which the first one takes off when it is done; so the third one puts another, while that of the
second one would still live. -/
theorem another_puts_of_overrun :
    ∃ turns before put during qs w,
      Interleaved (World.Answers fun _ => True)
        ([synchronizing "x", synchronizing "y", synchronizing "z"].map Demand.script)
        unsynchronizedWorld turns qs w ∧
      turns = before ++ put :: during ∧
      put.exchange.Puts .data ⟨"a"⟩ (.ofSeconds 1) ∧
      (∀ t ∈ during, t.exchange.TakesOff .data ⟨"a"⟩ → t.member ≠ put.member) ∧
      w.time < put.after.time + (Interval.ofSeconds 1).nanos ∧
      ∃ t ∈ during, t.member ≠ put.member ∧ ∃ life, t.exchange.Puts .data ⟨"a"⟩ life := by
  have answered := World.answers_undisturbed fun _ => True
  have hholds : unsynchronizedWorld.store.HoldsOnly unsynchronizedHandle := .putHandle_empty _
  have hselect := hholds.perform_bySyncState .unsynchronized
  have hget := hholds.sound.perform_get hholds.record
  have h₀ := @Interleaved.start _ _ (World.Answers fun _ => True)
    ([synchronizing "x", synchronizing "y", synchronizing "z"].map Demand.script) unsynchronizedWorld
  have h₁ := h₀.snoc 0 rfl (World.answers_store _ _ hselect)
  have h₂ := h₁.snoc 0 rfl (answered (.choose 0) _)
  have h₃ := h₂.snoc 0 rfl (World.answers_store _ _ hget)
  have h₄ := h₃.snoc 0 rfl (answered _ _)
  have h₅ := h₄.snoc 1 rfl (World.answers_store _ _ hselect)
  have h₆ := h₅.snoc 1 rfl (answered (.choose 0) _)
  have h₇ := h₆.snoc 1 rfl (World.answers_store _ _ hget)
  -- By now the marker of the first member is over.
  have h₈ := h₇.snoc 1 rfl (World.answers_later _ (.ofSeconds 1) _ _)
  have h₉ := h₈.snoc 0 rfl (answered _ _)
  have h₁₀ := h₉.snoc 0 rfl (answered _ _)
  have h₁₁ := h₁₀.snoc 2 rfl (World.answers_store _ _ hselect)
  have h₁₂ := h₁₁.snoc 2 rfl (answered (.choose 0) _)
  have h₁₃ := h₁₂.snoc 2 rfl (World.answers_store _ _ hget)
  have h₁₄ := h₁₃.snoc 2 rfl (answered _ _)
  have hspared : ∀ ds ∈ [synchronizing "x", synchronizing "y", synchronizing "z"],
      ∀ d ∈ ds, ¬ d.Removes ⟨"a"⟩ := by
    simp [synchronizing, Demand.Removes]
  -- Where it leads is told once both conditions are met.
  refine ⟨_, _, _, _, _, _, h₁₄, (List.take_append_drop 7 _).symm, ⟨_, rfl⟩,
    and_assoc.1 ((and_iff_left_of_imp ?_).2 ⟨?_, Nat.lt_add_of_pos_right (by decide)⟩)⟩
  · rintro ⟨hkept, hlives⟩
    rcases another_puts_iff hspared h₁₄ (List.take_append_drop 7 _).symm ⟨_, rfl⟩ hkept hlives with
      ⟨hothers, hputs, -⟩
    rcases hputs.2 ⟨_, _, _, (List.take_append_drop 1 _).symm, rfl, _,
      .tail _ (.tail _ (.tail _ (.head _))), _, _, rfl⟩ with ⟨t, ht, life, hputs⟩
    exact ⟨t, ht, hothers t ht hputs.asksFor, life, hputs⟩
  · -- After the second member put its marker only the two others had turns.
    intro t ht _ hown
    have hmember : t.member ∈ [0, 0, 2, 2, 2, 2] := List.mem_map_of_mem (f := Turn.member) ht
    rw [show t.member = 1 from hown] at hmember
    simp at hmember

end CmInventory
