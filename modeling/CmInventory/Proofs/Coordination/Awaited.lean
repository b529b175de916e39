import CmInventory.Proofs.Program.Ensures

/-!
# The cache of awaited plugins

The cache is described by what it holds under each key, whether that is still live or not
(`World.held?`). A call only changes what is held under its own key (`World.held?_callPending`), and each
call has a law that says what it makes of that: `World.held?_put`, `World.strike_cases`,
`World.take_cases`. What is no longer live may be dropped at any time, so that expiry can only take away
from what is held.
-/

namespace CmInventory

/-! ## Sets of names -/

theorem Dictionary.isEmpty_iff {β : Type} {d : Dictionary β} :
    d.isEmpty = true ↔ ∀ key, d.find? key = none := by
  constructor
  · intro h key
    have hnil : d.entries = [] := List.isEmpty_iff.1 h
    rw [Dictionary.find?, hnil]
    rfl
  · intro h
    refine List.isEmpty_iff.2 (List.eq_nil_iff_forall_not_mem.2 ?_)
    rintro ⟨key, value⟩ hmem
    rw [Dictionary.mem_entries_iff, h key] at hmem
    cases hmem

namespace NameSet

/-- Whether a name is in the set. -/
def Has (s : NameSet) (name : String) : Prop :=
  s.find? name ≠ none

theorem isEmpty_iff {s : NameSet} : s.isEmpty = true ↔ ∀ name, ¬ s.Has name := by
  simp [Dictionary.isEmpty_iff, Has]

theorem has_ofNames {names : List String} {name : String} : (ofNames names).Has name ↔ name ∈ names := by
  suffices hgen : ∀ s : NameSet,
      (names.foldl (fun s n => s.insert n ()) s).Has name ↔ s.Has name ∨ name ∈ names by
    simpa [Has, ofNames, Dictionary.find?_empty] using hgen .empty
  induction names with
  | nil => simp
  | cons n rest ih =>
      intro s
      rw [List.foldl_cons, ih, Has, Dictionary.find?_insert]
      by_cases hn : n = name
      · simp [hn]
      · have hn' : ¬ name = n := fun h => hn h.symm
        simp [hn, hn', Has]

theorem has_without {s : NameSet} {other name : String} :
    (s.without other).Has name ↔ name ≠ other ∧ s.Has name := by
  rw [without, Has, Dictionary.find?_erase]
  by_cases h : other = name
  · simp [h]
  · have h' : name ≠ other := fun e => h e.symm
    simp [h, h', Has]

end NameSet

/-! ## Caches -/

/-- An entry that is live was live before. -/
theorem CacheEntry.isLive_of_le {β : Type} {e : CacheEntry β} {now later : Nat}
    (h : e.isLive later = true) (hle : now ≤ later) : e.isLive now = true := by
  rcases e with ⟨value, expiry⟩
  cases expiry with
  | none => rfl
  | some t => exact decide_eq_true (Nat.lt_of_le_of_lt hle (of_decide_eq_true h))

namespace Cache

variable {β : Type} {c : Cache β} {now : Nat} {key other : String}

/-- What a cache holds under a key, live or not. -/
def held? (c : Cache β) (key : String) : Option (CacheEntry β) :=
  c.entries.find? key

theorem live?_eq : c.live? now key = (c.held? key).filter fun e => e.isLive now := rfl

theorem live?_eq_some {e : CacheEntry β} :
    c.live? now key = some e ↔ c.held? key = some e ∧ e.isLive now = true := by
  rw [live?_eq, Option.filter_eq_some_iff]

theorem held?_put {value : β} {life : Option Interval} :
    (c.put now key value life).held? other =
      if key = other then some (.startingAt now value life) else c.held? other :=
  Dictionary.find?_insert _ _ _ _

theorem held?_remove (c : Cache β) (now : Nat) :
    (c.remove now key).2.held? other = if key = other then none else c.held? other :=
  Dictionary.find?_erase _ _ _

/-- Settling a key drops what is held under it unless that is live. -/
theorem held?_settle :
    (c.settle now key).held? other = if key = other then c.live? now key else c.held? other := by
  rw [settle, live?_eq, held?, held?, held?]
  cases h : c.entries.find? key with
  | none =>
      by_cases hkey : key = other
      · rw [if_pos hkey, ← hkey]
        exact h
      · rw [if_neg hkey]
  | some e =>
      by_cases hlive : e.isLive now = true
      · simp only [hlive, if_true, Option.filter_some]
        by_cases hkey : key = other
        · rw [if_pos hkey, ← hkey, h]
        · rw [if_neg hkey]
      · simp only [hlive, Option.filter_some]
        exact Dictionary.find?_erase _ _ _

theorem updateIfPresent_live {e : CacheEntry β} {life : Option Interval} {f : β → β}
    (h : c.live? now key = some e) :
    c.updateIfPresent now key life f = (some (f e.value), c.put now key (f e.value) life) := by
  rw [updateIfPresent, h]

theorem updateIfPresent_absent {life : Option Interval} {f : β → β} (h : c.live? now key = none) :
    c.updateIfPresent now key life f = (none, c.settle now key) := by
  rw [updateIfPresent, h]

end Cache

/-! ## Calls -/

/-- The key that a call is about. -/
def PendingCall.key : PendingCall → String
  | .put key .. | .strike key .. | .get key | .take key => key

namespace World

variable {w : World} {key other plugin : String} {plugins : NameSet} {life : Interval}

/-- What is held for the subscriptions of a key, live or not. -/
def held? (w : World) (key : String) : Option (CacheEntry NameSet) :=
  w.pending.held? key

/-- What is awaited for the subscriptions of a key. -/
def awaited? (w : World) (key : String) : Option NameSet :=
  (w.pending.live? w.time key).map (·.value)

theorem held?_of_awaited? (h : w.awaited? key = some plugins) :
    ∃ e, w.held? key = some e ∧ e.value = plugins ∧ e.isLive w.time = true := by
  rcases Option.map_eq_some_iff.1 h with ⟨e, hlive, hvalue⟩
  rcases Cache.live?_eq_some.1 hlive with ⟨hheld, hlive⟩
  exact ⟨e, hheld, hvalue, hlive⟩

theorem awaited?_of_held? {e : CacheEntry NameSet} (h : w.held? key = some e)
    (hlive : e.isLive w.time = true) : w.awaited? key = some e.value := by
  rw [awaited?, Cache.live?_eq_some.2 ⟨h, hlive⟩]
  rfl

/-- What is awaited is told from what is held and the time. -/
theorem awaited?_congr {w' : World} (hheld : w.held? key = w'.held? key) (htime : w.time = w'.time) :
    w.awaited? key = w'.awaited? key := by
  have hlive : w.pending.live? w.time key = w'.pending.live? w'.time key := by
    rw [Cache.live?_eq, Cache.live?_eq, htime]
    exact congrArg _ hheld
  rw [awaited?, awaited?, hlive]

theorem awaited?_of_unheld (h : w.held? key = none) : w.awaited? key = none := by
  rw [awaited?, Cache.live?_eq]
  exact congrArg (fun e => (Option.filter (fun e => e.isLive w.time) e).map (·.value)) h

/-- A call leaves what is held under other keys as it is. -/
theorem held?_callPending {call : PendingCall} (h : call.key ≠ other) :
    (w.callPending call).2.held? other = w.held? other := by
  cases call with
  | put key plugins life => exact Cache.held?_put.trans (if_neg h)
  | strike key plugin life =>
      rw [callPending]
      cases hlive : w.pending.live? w.time key with
      | none =>
          rw [Cache.updateIfPresent_absent hlive]
          exact Cache.held?_settle.trans (if_neg h)
      | some e =>
          rw [Cache.updateIfPresent_live hlive]
          exact Cache.held?_put.trans (if_neg h)
  | get key => exact Cache.held?_settle.trans (if_neg h)
  | take key => exact (Cache.held?_remove w.pending w.time).trans (if_neg h)

theorem held?_put :
    (w.callPending (.put key plugins life)).2.held? key =
      some (.startingAt w.time plugins (some life)) :=
  Cache.held?_put.trans (if_pos rfl)

/-- A plugin is struck off what is awaited, which lives anew. Where nothing is awaited nothing is held
afterwards. -/
theorem strike_cases (w : World) (key plugin : String) (life : Interval) :
    (∃ awaited, w.awaited? key = some awaited ∧
        (w.callPending (.strike key plugin life)).1 = some (awaited.without plugin) ∧
        (w.callPending (.strike key plugin life)).2.held? key =
          some (.startingAt w.time (awaited.without plugin) (some life))) ∨
      (w.awaited? key = none ∧ (w.callPending (.strike key plugin life)).1 = none ∧
        (w.callPending (.strike key plugin life)).2.held? key = none) := by
  rw [callPending, awaited?]
  cases hlive : w.pending.live? w.time key with
  | none =>
      rw [Cache.updateIfPresent_absent hlive]
      exact Or.inr ⟨rfl, rfl, Cache.held?_settle.trans ((if_pos rfl).trans hlive)⟩
  | some e =>
      rw [Cache.updateIfPresent_live hlive]
      exact Or.inl ⟨e.value, rfl, rfl, Cache.held?_put.trans (if_pos rfl)⟩

/-- What is awaited is taken, and nothing is held afterwards. -/
theorem take_cases (w : World) (key : String) :
    (w.callPending (.take key)).1 = w.awaited? key ∧ (w.callPending (.take key)).2.held? key = none :=
  ⟨rfl, (Cache.held?_remove w.pending w.time).trans (if_pos rfl)⟩

/-- Looking at what is awaited drops it if it is no longer live. -/
theorem held?_get : (w.callPending (.get key)).2.held? key = w.pending.live? w.time key :=
  Cache.held?_settle.trans (if_pos rfl)

theorem callPending_rest (w : World) (call : PendingCall) :
    (w.callPending call).2.store = w.store ∧ (w.callPending call).2.time = w.time ∧
      (w.callPending call).2.published = w.published := by
  cases call <;> exact ⟨rfl, rfl, rfl⟩

/-! ## Replies of the world -/

variable {fails : StoreCall → Prop} {w' : World}

theorem pending_setMarkers (w : World) (kind : SyncKind) (c : Cache String) :
    (w.setMarkers kind c).pending = w.pending := by
  cases kind <;> rfl

/-- Only the calls of this cache change what it holds. -/
theorem Answers.held?_eq {r : Request} {reply : r.Reply} (h : Answers fails r w reply w')
    (hr : ∀ call, r ≠ .pending call) (key : String) : w'.held? key = w.held? key := by
  rcases h with ⟨c, length, -, hreply⟩
  have hw : w' = (World.reply c r (w.advance length)).2 := by rw [hreply]
  have hpending : w'.pending = w.pending := by
    rw [hw]
    cases r with
    | pending call => exact absurd rfl (hr call)
    | store call =>
        rw [World.reply]
        cases c.storeFailure (w.advance length).turn call <;> rfl
    | mark kind id owner life => exact pending_setMarkers _ _ _
    | unmark kind id => exact pending_setMarkers _ _ _
    | _ => rfl
  rw [World.held?, World.held?, hpending]

/-- A call of this cache is answered from what it held, at some time. -/
theorem Answers.callPending {call : PendingCall} {reply : call.Answer}
    (h : Answers fails (.pending call) w reply w') :
    ∃ v : World, (∀ key, v.held? key = w.held? key) ∧ v.callPending call = (reply, w') := by
  rcases h with ⟨c, length, -, hreply⟩
  exact ⟨(w.advance length).nextTurn, fun _ => rfl, hreply⟩

end World
end CmInventory
