import CmInventory.Proofs.Coordination.Awaited
import CmInventory.Proofs.Program.Recorded
import CmInventory.Proofs.Store.Records

/-!
# Markers of handles

A marker tells that work on a handle is under way. It is described by what the cache holds for the handle,
live or not (`World.marker?`), and `Exchange.Remarks` says what a request makes of that. A marker is put only
where none lives, and it is taken off by whoever asks, whoever put it.

What members do with the marker of a handle is told from their turns: a member carries the marker from the
turn in which it put it to the one in which it takes it off (`Carries`), whether the marker still lives or
not.
-/

namespace CmInventory

/-! ## The cache -/

/-- The marker that is held for a handle, live or not. -/
def World.marker? (w : World) (kind : SyncKind) (id : HandleId) : Option (CacheEntry String) :=
  (w.markers kind).held? id.text

/-- Whether a request puts the marker of a handle or takes it off. -/
def Request.Marks (kind : SyncKind) (id : HandleId) : Request → Prop
  | .mark k i _ _ | .unmark k i => k = kind ∧ i = id
  | _ => False

namespace Exchange

/-- A member asked for the marker of a handle. -/
def AsksFor (kind : SyncKind) (id : HandleId) (e : Exchange) : Prop :=
  ∃ owner life, e.request = .mark kind id owner life

/-- A member put the marker of a handle, to live for some time. -/
def Puts (kind : SyncKind) (id : HandleId) (life : Interval) (e : Exchange) : Prop :=
  ∃ owner, e = ⟨.mark kind id owner life, true⟩

/-- A member took off the marker of a handle. -/
def TakesOff (kind : SyncKind) (id : HandleId) (e : Exchange) : Prop :=
  e.request = .unmark kind id

/-- What an exchange at a time makes of the marker of a handle. -/
inductive Remarks (kind : SyncKind) (id : HandleId) (now : Nat) :
    Exchange → Option (CacheEntry String) → Option (CacheEntry String) → Prop
  | put {held : Option (CacheEntry String)} {owner : String} {life : Interval}
      (unmarked : ∀ e, held = some e → e.isLive now = false) :
      Remarks kind id now ⟨.mark kind id owner life, true⟩ held
        (some (.startingAt now owner (some life)))
  | refused {e : CacheEntry String} {owner : String} {life : Interval} (live : e.isLive now = true) :
      Remarks kind id now ⟨.mark kind id owner life, false⟩ (some e) (some e)
  | takenOff {held : Option (CacheEntry String)} :
      Remarks kind id now ⟨.unmark kind id, ()⟩ held none
  | other {e : Exchange} {held : Option (CacheEntry String)} (h : ¬ e.request.Marks kind id) :
      Remarks kind id now e held held

variable {kind : SyncKind} {id : HandleId} {now : Nat} {e : Exchange} {life : Interval}
  {held held' : Option (CacheEntry String)}

theorem Puts.asksFor (h : e.Puts kind id life) : e.AsksFor kind id := by
  rcases h with ⟨owner, rfl⟩
  exact ⟨owner, life, rfl⟩

/-- A request that has nothing to do with the marker neither puts it nor takes it off. -/
theorem not_puts_of_not_marks (h : ¬ e.request.Marks kind id) : ¬ e.Puts kind id life := by
  rintro ⟨owner, rfl⟩
  exact h ⟨rfl, rfl⟩

theorem not_takesOff_of_not_marks (h : ¬ e.request.Marks kind id) : ¬ e.TakesOff kind id := by
  intro htakes
  rw [show e.request = .unmark kind id from htakes] at h
  exact h ⟨rfl, rfl⟩

theorem Puts.not_takesOff (h : e.Puts kind id life) : ¬ e.TakesOff kind id := by
  rcases h with ⟨owner, rfl⟩
  intro htakes
  cases (htakes : Request.mark kind id owner life = .unmark kind id)

/-- A marker that was put is held from then on, and none lived before. -/
theorem Remarks.of_puts (h : e.Remarks kind id now held held') (hputs : e.Puts kind id life) :
    (∀ m, held = some m → m.isLive now = false) ∧
      ∃ owner, held' = some (.startingAt now owner (some life)) := by
  rcases hputs with ⟨owner, heq⟩
  cases h with
  | put unmarked =>
      cases heq
      exact ⟨unmarked, owner, rfl⟩
  | refused => cases heq
  | takenOff => cases heq
  | other hother =>
      subst heq
      exact absurd ⟨rfl, rfl⟩ hother

/-- Nothing is held once the marker was taken off. -/
theorem Remarks.of_takesOff (h : e.Remarks kind id now held held') (htakes : e.TakesOff kind id) :
    held' = none := by
  cases h with
  | takenOff => rfl
  | other hother => exact absurd htakes (not_takesOff_of_not_marks hother)
  | _ => cases htakes

/-- Only a marker that is put or taken off changes what is held. -/
theorem Remarks.unchanged (h : e.Remarks kind id now held held')
    (hputs : ∀ life, ¬ e.Puts kind id life) (htakes : ¬ e.TakesOff kind id) : held' = held := by
  cases h with
  | put => exact absurd ⟨_, rfl⟩ (hputs _)
  | takenOff => exact absurd rfl htakes
  | refused => rfl
  | other => rfl

/-- Where a marker lives, none can be put. -/
theorem Remarks.not_puts_of_live (h : e.Remarks kind id now held held') {m : CacheEntry String}
    (hheld : held = some m) (hlive : m.isLive now = true) : ¬ e.Puts kind id life := by
  intro hputs
  rw [(h.of_puts hputs).1 m hheld] at hlive
  cases hlive

/-- Where none is held, a member that asks for the marker puts it. -/
theorem Remarks.puts_of_none (h : e.Remarks kind id now none held') (hasks : e.AsksFor kind id) :
    ∃ life, e.Puts kind id life := by
  rcases hasks with ⟨owner, life, hrequest⟩
  cases h with
  | put => exact ⟨_, _, rfl⟩
  | takenOff => cases hrequest
  | other hother =>
      rw [hrequest] at hother
      exact absurd ⟨rfl, rfl⟩ hother

end Exchange

namespace World

variable {w w' : World} {kind other : SyncKind} {id : HandleId}

theorem markers_setMarkers (w : World) (kind : SyncKind) (c : Cache String) :
    (w.setMarkers kind c).markers kind = c ∧
      (w.setMarkers kind c).time = w.time ∧
        ∀ other, kind ≠ other → (w.setMarkers kind c).markers other = w.markers other := by
  refine ⟨?_, ?_, ?_⟩
  · cases kind <;> rfl
  · cases kind <;> rfl
  · intro other hne
    cases kind <;> cases other <;> first | exact absurd rfl hne | rfl

/-- A change of the entry of one handle leaves the markers of others as they are. -/
theorem marker?_setMarkers {c : Cache String} {i : HandleId}
    (hc : ∀ key, i.text ≠ key → c.held? key = (w.markers kind).held? key)
    (hne : ¬ (kind = other ∧ i = id)) :
    (w.setMarkers kind c).marker? other id = w.marker? other id := by
  rcases w.markers_setMarkers kind c with ⟨hself, -, hothers⟩
  by_cases hkind : kind = other
  · subst hkind
    rw [marker?, hself]
    exact hc id.text fun htext => hne ⟨rfl, HandleId.text_inj.1 htext⟩
  · rw [marker?, marker?, hothers other hkind]

theorem remarks_mark (w : World) (kind : SyncKind) (id : HandleId) (k : SyncKind) (i : HandleId)
    (owner : String) (life : Interval) :
    Exchange.Remarks kind id w.time ⟨.mark k i owner life, (w.mark k i owner life).1⟩
        (w.marker? kind id) ((w.mark k i owner life).2.marker? kind id) ∧
      (w.mark k i owner life).2.time = w.time := by
  rw [mark, Cache.putIfAbsent]
  cases hlive : (w.markers k).live? w.time i.text with
  | some e =>
      rcases Cache.live?_eq_some.1 hlive with ⟨hheld, hlive⟩
      refine ⟨?_, (w.markers_setMarkers k _).2.1⟩
      by_cases hsame : k = kind ∧ i = id
      · rcases hsame with ⟨rfl, rfl⟩
        have hmarker : w.marker? k i = some e := hheld
        have hafter : (w.setMarkers k (w.markers k)).marker? k i = some e := by
          rw [marker?, (w.markers_setMarkers k _).1, hheld]
        rw [hmarker, hafter]
        exact .refused hlive
      · rw [marker?_setMarkers (fun _ _ => rfl) hsame]
        exact .other hsame
  | none =>
      refine ⟨?_, (w.markers_setMarkers k _).2.1⟩
      by_cases hsame : k = kind ∧ i = id
      · rcases hsame with ⟨rfl, rfl⟩
        rw [marker?, marker?, (w.markers_setMarkers k _).1, Cache.held?_put, if_pos rfl]
        refine .put ?_
        intro e hheld
        by_contra hne
        rw [Bool.not_eq_false] at hne
        rw [Cache.live?_eq_some.2 ⟨hheld, hne⟩] at hlive
        cases hlive
      · rw [marker?_setMarkers (fun key hkey => Cache.held?_put.trans (if_neg hkey)) hsame]
        exact .other hsame

theorem remarks_unmark (w : World) (kind : SyncKind) (id : HandleId) (k : SyncKind) (i : HandleId) :
    Exchange.Remarks kind id w.time ⟨.unmark k i, ()⟩ (w.marker? kind id)
        ((w.unmark k i).marker? kind id) ∧
      (w.unmark k i).time = w.time := by
  rw [unmark]
  refine ⟨?_, (w.markers_setMarkers k _).2.1⟩
  by_cases hsame : k = kind ∧ i = id
  · rcases hsame with ⟨rfl, rfl⟩
    have hafter : (w.setMarkers k ((w.markers k).remove w.time i.text).2).marker? k i = none := by
      rw [marker?, (w.markers_setMarkers k _).1, Cache.held?_remove, if_pos rfl]
    rw [hafter]
    exact .takenOff
  · have hc : ∀ key, i.text ≠ key →
        ((w.markers k).remove w.time i.text).2.held? key = (w.markers k).held? key :=
      fun key hkey => (Cache.held?_remove _ _).trans (if_neg hkey)
    rw [marker?_setMarkers hc hsame]
    exact .other hsame

/-- Every reply of the world changes the marker of a handle in one of these ways, and no time is lost. -/
theorem Answers.remarks {fails : StoreCall → Prop} {r : Request} {reply : r.Reply}
    (h : Answers fails r w reply w') (kind : SyncKind) (id : HandleId) :
    Exchange.Remarks kind id w'.time ⟨r, reply⟩ (w.marker? kind id) (w'.marker? kind id) ∧
      w.time ≤ w'.time := by
  rcases h with ⟨c, length, -, hreply⟩
  have hle : w.time ≤ (w.advance length).time := Nat.le_add_right _ _
  cases r with
  | mark k i owner life =>
      have hmark := (w.advance length).nextTurn.remarks_mark kind id k i owner life
      rw [World.reply] at hreply
      rw [hreply] at hmark
      rcases hmark with ⟨hremarks, htime⟩
      exact ⟨htime ▸ hremarks, htime ▸ hle⟩
  | unmark k i =>
      have hunmark := (w.advance length).nextTurn.remarks_unmark kind id k i
      cases hreply
      rcases hunmark with ⟨hremarks, htime⟩
      exact ⟨htime ▸ hremarks, htime ▸ hle⟩
  | store call =>
      rw [World.reply] at hreply
      cases hfails : c.storeFailure (w.advance length).turn call <;> rw [hfails] at hreply <;>
        cases hreply <;> exact ⟨.other fun h => h, hle⟩
  | pending call =>
      have hw : w' = ((w.advance length).nextTurn.callPending call).2 := by
        rw [World.reply] at hreply
        rw [hreply]
      rw [hw]
      cases call <;> exact ⟨.other fun h => h, hle⟩
  | _ =>
      cases hreply
      exact ⟨.other fun h => h, hle⟩

theorem Answers.time_le {fails : StoreCall → Prop} {r : Request} {reply : r.Reply}
    (h : Answers fails r w reply w') : w.time ≤ w'.time :=
  (h.remarks .data ⟨""⟩).2

end World

/-! ## Turns -/

section

variable {kind : SyncKind} {id : HandleId}

/-- A member of which this is the record put the marker of a handle and did not take it off since. -/
def Holding (kind : SyncKind) (id : HandleId) (past : List Exchange) : Prop :=
  Since (fun e => ∃ life, e.Puts kind id life) (Exchange.TakesOff kind id) past

/-- A member put the marker of a handle, to live until the given time, and did not take it off since. -/
def Carries (kind : SyncKind) (id : HandleId) (i : Nat) (turns : List (Turn World)) (ends : Nat) :
    Prop :=
  Since
    (fun t => t.member = i ∧ ∃ life, t.exchange.Puts kind id life ∧
      ends = t.after.time + life.nanos)
    (fun t => t.member = i ∧ t.exchange.TakesOff kind id) turns

/-- Every marker of a handle that is taken off is so by a member that carries it and before its life is
over. -/
def TakenOffInTime (kind : SyncKind) (id : HandleId) (turns : List (Turn World)) : Prop :=
  ∀ past t rest ends, turns = past ++ t :: rest → t.exchange.TakesOff kind id →
    Carries kind id t.member past ends → t.after.time < ends

theorem holding_snoc {past : List Exchange} {e : Exchange} :
    Holding kind id (past ++ [e]) ↔
      (∃ life, e.Puts kind id life) ∨ (Holding kind id past ∧ ¬ e.TakesOff kind id) :=
  since_snoc

/-- The record of a member tells whether it carries the marker. -/
theorem holding_recordOf {i : Nat} {turns : List (Turn World)} :
    Holding kind id (recordOf i turns) ↔ ∃ ends, Carries kind id i turns ends := by
  induction turns using List.reverseRecOn with
  | nil => exact ⟨fun h => absurd h not_since_nil, fun ⟨_, h⟩ => absurd h not_since_nil⟩
  | append_singleton turns t ih =>
      rw [recordOf_snoc]
      by_cases hi : t.member = i
      · rw [if_pos hi, holding_snoc, ih]
        constructor
        · rintro (⟨life, hputs⟩ | ⟨⟨ends, hcarries⟩, htakes⟩)
          · exact ⟨_, since_snoc.2 (Or.inl ⟨hi, life, hputs, rfl⟩)⟩
          · exact ⟨ends, since_snoc.2 (Or.inr ⟨hcarries, fun h => htakes h.2⟩)⟩
        · rintro ⟨ends, hcarries⟩
          rcases since_snoc.1 hcarries with ⟨-, life, hputs, -⟩ | ⟨hcarries, htakes⟩
          · exact Or.inl ⟨life, hputs⟩
          · exact Or.inr ⟨⟨ends, hcarries⟩, fun h => htakes ⟨hi, h⟩⟩
      · rw [if_neg hi, ih]
        refine exists_congr fun ends => ?_
        rw [Carries, Carries, since_snoc]
        constructor
        · exact fun h => Or.inr ⟨h, fun hown => hi hown.1⟩
        · rintro (hown | ⟨h, -⟩)
          · exact absurd hown.1 hi
          · exact h

end
end CmInventory
