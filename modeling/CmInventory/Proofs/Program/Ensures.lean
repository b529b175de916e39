import CmInventory.Inventory.Error
import CmInventory.Program.World
import Mathlib.Data.List.Perm.Basic

/-!
# What programs ensure

A program is judged request by request. A `Setting` says what a program may ask for in a state, and which
replies and states may follow. `Program.Ensures E Q p s` holds when `p`, started in `s`, only asks for what
it may and ends as `Q` says, whatever the replies are.

The rules follow the constructors of programs, so that the judgement of an operation is put together from
those of its parts. An `Action` is judged by its `run`.

`World.Answers` is the setting that the world makes: the replies that it gives under some circumstances,
any time after the request before.
-/

namespace CmInventory

/-- What may be asked for in a state, and what may come of it. -/
structure Setting (σ : Type) where
  may : Request → σ → Prop
  answers : (r : Request) → σ → r.Reply → σ → Prop

namespace Program

variable {α β σ : Type} {E : Setting σ} {s : σ}

/-- A program started in `s` only asks for what it may, and ends as `Q` says. -/
def Ensures (E : Setting σ) (Q : α → σ → Prop) : Program α → σ → Prop
  | .done a, s => Q a s
  | .ask r next, s =>
      E.may r s ∧ ∀ reply s', E.answers r s reply s' → (next reply).Ensures E Q s'

/-! ## Rules -/

@[simp] theorem ensures_done {Q : α → σ → Prop} {a : α} :
    (Program.done a).Ensures E Q s ↔ Q a s := Iff.rfl

theorem ensures_bind {Q : β → σ → Prop} {p : Program α} {f : α → Program β} :
    (p >>= f).Ensures E Q s ↔ p.Ensures E (fun a s' => (f a).Ensures E Q s') s := by
  induction p generalizing s with
  | done a => exact Iff.rfl
  | ask r next ih =>
      refine and_congr Iff.rfl ?_
      exact forall_congr' fun reply => forall_congr' fun s' => imp_congr Iff.rfl (ih reply)

theorem Ensures.mono {Q R : α → σ → Prop} {p : Program α} (h : p.Ensures E Q s)
    (hQR : ∀ a s', Q a s' → R a s') : p.Ensures E R s := by
  induction p generalizing s with
  | done a => exact hQR a s h
  | ask r next ih =>
      rcases h with ⟨hmay, hnext⟩
      refine ⟨hmay, ?_⟩
      intro reply s' hans
      exact ih reply (hnext reply s' hans)

theorem ensures_congr {Q R : α → σ → Prop} {p : Program α} (h : ∀ a s', Q a s' ↔ R a s') :
    p.Ensures E Q s ↔ p.Ensures E R s :=
  ⟨fun hp => hp.mono fun a s' => (h a s').1, fun hp => hp.mono fun a s' => (h a s').2⟩

/-- One program after the other, with what holds in between. -/
theorem Ensures.bind {Q : α → σ → Prop} {R : β → σ → Prop} {p : Program α} {f : α → Program β}
    (h : p.Ensures E Q s) (hf : ∀ a s', Q a s' → (f a).Ensures E R s') :
    (p >>= f).Ensures E R s :=
  ensures_bind.2 (h.mono hf)

/-- Programs for the items of a list, with what holds after each item. -/
theorem ensures_mapM {f : α → Program β} {I : List α → List β → σ → Prop} {xs : List α}
    (hstep : ∀ xs ys s x, I xs ys s →
      (f x).Ensures E (fun y s' => I (xs ++ [x]) (ys ++ [y]) s') s) (h : I [] [] s) :
    (xs.mapM f).Ensures E (I xs) s := by
  -- Generalized over the items that were done before.
  suffices hgen : ∀ before results s, I before results s →
      (xs.mapM f).Ensures E (fun ys s' => I (before ++ xs) (results ++ ys) s') s from hgen [] [] s h
  induction xs with
  | nil =>
      intro before results s h
      simpa using h
  | cons x xs ih =>
      intro before results s h
      rw [List.mapM_cons]
      refine (hstep before results s x h).bind ?_
      intro y s₁ h₁
      refine (ih _ _ _ h₁).bind ?_
      intro ys s₂ h₂
      simpa using h₂

/-- A draw gives one of the items and the others. It asks for nothing if there are no items. -/
theorem ensures_draw {items : List β} {Q : Option (β × List β) → σ → Prop}
    (hmay : ∀ last, E.may (.choose last) s) (hnone : items = [] → Q none s)
    (hdrawn : ∀ item others last i s', (item :: others).Perm items →
      E.answers (.choose last) s i s' → Q (some (item, others)) s') :
    (draw items).Ensures E Q s := by
  cases items with
  | nil => exact hnone rfl
  | cons item rest =>
      refine ⟨hmay _, ?_⟩
      intro i s' hans
      exact hdrawn _ _ _ _ _ (List.getElem_cons_eraseIdx_perm i.isLt) hans

/-- A program that is run in surroundings of the setting ends as it ensures. -/
theorem Ensures.run {Q : α → σ → Prop} {p : Program α} {reply : Surroundings σ}
    (h : p.Ensures E Q s)
    (hreply : ∀ r s, E.answers r s (reply r s).1 (reply r s).2) :
    Q (p.run reply s).1 (p.run reply s).2 := by
  induction p generalizing s with
  | done a => exact h
  | ask r next ih =>
      rw [run_ask]
      exact ih _ (h.2 _ _ (hreply r s))

end Program

/-! ## Actions -/

namespace Action

variable {α β σ : Type} {E : Setting σ} {s : σ}

@[simp] theorem run_ofExcept (result : Except InventoryError α) :
    (ofExcept result).run = .done result := rfl

@[simp] theorem run_lift (p : Program α) : (lift p).run = p >>= fun a => .done (.ok a) := rfl

@[simp] theorem run_store (call : StoreCall) :
    (store call).run = Program.store call >>= fun answer => .done (answer.mapError .ofStore) := rfl

@[simp] theorem run_plugin (call : PluginCall) :
    (plugin call).run = Program.plugin call >>= fun answer => .done (answer.mapError .plugin) := rfl

theorem run_lift_iff {p : Program α} {reply : Program.Surroundings σ} {s' : σ} {a : α} :
    (lift p).run.run reply s = (.ok a, s') ↔ p.run reply s = (a, s') := by
  rw [run_lift, Program.run_bind, Program.run_done, Prod.mk.injEq, Except.ok.injEq, Prod.ext_iff]

theorem run_lift_ok (p : Program α) (reply : Program.Surroundings σ) (s : σ) :
    ∃ a, ((lift p).run.run reply s).1 = .ok a :=
  ⟨_, congrArg Prod.fst (run_lift_iff.2 (Prod.eta _).symm)⟩

/-- What holds at the end of an action that goes on with `f` unless it failed. -/
def Goes (E : Setting σ) (f : α → Action β) (Q : Except InventoryError β → σ → Prop) :
    Except InventoryError α → σ → Prop
  | .ok a, s => (f a).run.Ensures E Q s
  | .error e, s => Q (.error e) s

@[simp] theorem goes_ok {f : α → Action β} {Q : Except InventoryError β → σ → Prop} {a : α} :
    Goes E f Q (.ok a) s ↔ (f a).run.Ensures E Q s := Iff.rfl

theorem ensures_bind {x : Action α} {f : α → Action β} {Q : Except InventoryError β → σ → Prop} :
    (x >>= f).run.Ensures E Q s ↔ x.run.Ensures E (Goes E f Q) s := by
  have hrun : (x >>= f).run = Bind.bind x.run (ExceptT.bindCont f) := rfl
  rw [hrun, Program.ensures_bind]
  constructor
  · intro h
    refine h.mono ?_
    intro result s' hres
    cases result with
    | ok a => exact hres
    | error e => exact hres
  · intro h
    refine h.mono ?_
    intro result s' hres
    cases result with
    | ok a => exact hres
    | error e => exact hres

/-- An action after another one, with what holds in between. -/
theorem ensures_bind_of {x : Action α} {f : α → Action β}
    {Q : Except InventoryError α → σ → Prop} {R : Except InventoryError β → σ → Prop}
    (h : x.run.Ensures E Q s) (hok : ∀ a s', Q (.ok a) s' → (f a).run.Ensures E R s')
    (herror : ∀ e s', Q (.error e) s' → R (.error e) s') : (x >>= f).run.Ensures E R s := by
  refine ensures_bind.2 (h.mono ?_)
  intro result s' hres
  cases result with
  | ok a => exact hok a s' hres
  | error e => exact herror e s' hres

/-! ### Single steps -/

/-- What holds once the store has answered, in an action that ends if the call failed and goes on as `R` says
otherwise. -/
def OnAnswer (Q : Except InventoryError β → σ → Prop) (R : α → σ → Prop) :
    Except StoreError α → σ → Prop
  | .ok answer, s => R answer s
  | .error e, s => Q (.error (.ofStore e)) s

theorem ensures_store_bind {call : StoreCall} {f : call.Answer → Action β}
    {Q : Except InventoryError β → σ → Prop} :
    (store call >>= f).run.Ensures E Q s ↔
      (Program.store call).Ensures E (OnAnswer Q fun answer s' => (f answer).run.Ensures E Q s') s := by
  rw [ensures_bind, run_store, Program.ensures_bind]
  refine Program.ensures_congr fun answer s' => ?_
  cases answer <;> exact Iff.rfl

theorem ensures_lift_bind {p : Program α} {f : α → Action β} {Q : Except InventoryError β → σ → Prop} :
    (lift p >>= f).run.Ensures E Q s ↔ p.Ensures E (fun a s' => (f a).run.Ensures E Q s') s := by
  rw [ensures_bind, run_lift, Program.ensures_bind]
  exact Iff.rfl

theorem ensures_ofExcept_bind {result : Except InventoryError α} {f : α → Action β}
    {Q : Except InventoryError β → σ → Prop} :
    (ofExcept result >>= f).run.Ensures E Q s ↔ Goes E f Q result s := by
  rw [ensures_bind, run_ofExcept, Program.ensures_done]

/-- An action of which the end is given another result. -/
theorem ensures_bind_pure {x : Action α} {b : β} {Q : Except InventoryError β → σ → Prop} :
    (x >>= fun _ => pure b).run.Ensures E Q s ↔
      x.run.Ensures E (fun result => Q (result.map fun _ => b)) s := by
  rw [ensures_bind]
  refine Program.ensures_congr fun result s' => ?_
  cases result <;> exact Iff.rfl

end Action

/-! ## The setting of the world -/

/-- Whether a request neither calls the store nor publishes. -/
def Request.IsQuiet : Request → Prop
  | .store _ | .publish _ => False
  | _ => True

/-- Whether a request calls the store. -/
def Request.callsStore : Request → Bool
  | .store _ => true
  | _ => false

namespace World

variable {fails : StoreCall → Prop} {w w' : World}

/-- What the world may reply, when only the calls that `fails` allows may fail for reasons of the store.
Time may have passed since the request before. -/
def Answers (fails : StoreCall → Prop) (r : Request) (w : World) (reply : r.Reply) (w' : World) :
    Prop :=
  ∃ (c : Circumstances) (length : Interval),
    (∀ n call e, c.storeFailure n call = some e → fails call) ∧
      World.reply c r (w.advance length) = (reply, w')

/-- A call of the store fails for reasons of the store and changes nothing, or it is performed. -/
theorem Answers.store {call : StoreCall} {reply : Except StoreError call.Answer}
    (h : Answers fails (.store call) w reply w') :
    w'.published = w.published ∧
      ((∃ e, fails call ∧ reply = .error e ∧ w'.store = w.store) ∨
        (reply, w'.store) = w.store.perform call) := by
  rcases h with ⟨c, length, hfails, hreply⟩
  rw [World.reply] at hreply
  cases hc : c.storeFailure (w.advance length).turn call with
  | some e =>
      rw [hc] at hreply
      cases hreply
      exact ⟨rfl, Or.inl ⟨e, hfails _ _ _ hc, rfl, rfl⟩⟩
  | none =>
      rw [hc] at hreply
      simp only [callStore] at hreply
      cases hreply
      exact ⟨rfl, Or.inr rfl⟩

theorem Answers.publish {event : Published} {reply : Unit}
    (h : Answers fails (.publish event) w reply w') :
    w'.store = w.store ∧ w'.published = w.published ++ [event] := by
  rcases h with ⟨c, length, -, hreply⟩
  cases hreply
  exact ⟨rfl, rfl⟩

theorem store_setMarkers (w : World) (kind : SyncKind) (c : Cache String) :
    (w.setMarkers kind c).store = w.store ∧ (w.setMarkers kind c).published = w.published := by
  cases kind <;> exact ⟨rfl, rfl⟩

theorem store_callPending (w : World) (call : PendingCall) :
    (w.callPending call).2.store = w.store ∧
      (w.callPending call).2.published = w.published := by
  cases call <;> exact ⟨rfl, rfl⟩

/-- The store and the events are left as they are by every other request. -/
theorem Answers.quiet {r : Request} {reply : r.Reply} (hr : r.IsQuiet)
    (h : Answers fails r w reply w') :
    w'.store = w.store ∧ w'.published = w.published := by
  rcases h with ⟨c, length, -, hreply⟩
  have hw : w' = (World.reply c r (w.advance length)).2 := by rw [hreply]
  rw [hw]
  cases r with
  | store call => exact hr.elim
  | publish event => exact hr.elim
  | mark kind id owner life => exact store_setMarkers _ _ _
  | unmark kind id => exact store_setMarkers _ _ _
  | pending call => exact store_callPending _ call
  | plugin call => exact ⟨rfl, rfl⟩
  | now => exact ⟨rfl, rfl⟩
  | newEventId => exact ⟨rfl, rfl⟩
  | choose last => exact ⟨rfl, rfl⟩

/-- Circumstances in which the store does not fail and no plugin answers. -/
def undisturbed : Circumstances where
  clock _ := default
  eventId _ := default
  choice _ := 0
  storeFailure _ _ := none
  plugin _ _ := .error .emptyBody

theorem answers_undisturbed (fails : StoreCall → Prop) (r : Request) (w : World) :
    Answers fails r w (reply undisturbed r w).1 (reply undisturbed r w).2 := by
  refine ⟨undisturbed, .zero, ?_, rfl⟩
  intro n call e hfails
  cases hfails

/-- A call of the store that does not fail for reasons of the store. -/
theorem answers_store {call : StoreCall} {reply : Except StoreError call.Answer} {store : Store}
    (fails : StoreCall → Prop) (w : World) (h : w.store.perform call = (reply, store)) :
    Answers fails (.store call) w reply { w.nextTurn with store := store } := by
  have hans := answers_undisturbed fails (.store call) w
  have hreply : World.reply undisturbed (.store call) w =
      (reply, { w.nextTurn with store := store }) := by
    change w.nextTurn.callStore call = _
    have hsame : w.nextTurn.store = w.store := rfl
    rw [callStore, hsame, h]
  rwa [hreply] at hans

end World

/-! ## Runs under given circumstances -/

/-- The setting of a program that runs alone under given circumstances. -/
def Setting.under (c : Circumstances) : Setting World :=
  ⟨fun _ _ => True, fun r w reply w' => World.reply c r w = (reply, w')⟩

section

variable {α : Type} {c : Circumstances} {w : World}

theorem under_request {r : Request} {Q : r.Reply → World → Prop}
    (h : Q (World.reply c r w).1 (World.reply c r w).2) :
    (Program.request r).Ensures (.under c) Q w := by
  refine ⟨trivial, ?_⟩
  intro reply w' hreply
  rw [hreply] at h
  exact h

theorem Program.Ensures.under {Q : α → World → Prop} {p : Program α} (h : p.Ensures (.under c) Q w) :
    Q (p.run (World.reply c) w).1 (p.run (World.reply c) w).2 :=
  h.run fun _ _ => rfl

/-- What holds after the run under given circumstances is ensured under them. -/
theorem Program.ensures_under {Q : α → World → Prop} {p : Program α}
    (h : Q (p.run (World.reply c) w).1 (p.run (World.reply c) w).2) : p.Ensures (.under c) Q w := by
  induction p generalizing w with
  | done a => exact h
  | ask r next ih =>
      refine ⟨trivial, ?_⟩
      intro reply w' hreply
      refine ih reply ?_
      rwa [run_ask, hreply] at h

/-- A call of the store that does not fail is performed. -/
theorem World.reply_store {call : StoreCall} {answer : Except StoreError call.Answer} {store : Store}
    (hc : c.storeFailure w.turn call = none) (h : w.store.perform call = (answer, store)) :
    World.reply c (.store call) w = (answer, { w.nextTurn with store := store }) := by
  have hsame : w.nextTurn.store = w.store := rfl
  rw [World.reply, hc]
  change w.nextTurn.callStore call = _
  rw [callStore, hsame, h]

/-- A call of the store where no call fails. -/
theorem under_performed {call : StoreCall} {answer : Except StoreError call.Answer} {store : Store}
    {Q : Except StoreError call.Answer → World → Prop} (hc : ∀ n call, c.storeFailure n call = none)
    (h : w.store.perform call = (answer, store)) (hQ : Q answer { w.nextTurn with store := store }) :
    (Program.store call).Ensures (.under c) Q w := by
  refine under_request ?_
  rw [World.reply_store (hc _ _) h]
  exact hQ

/-- A call of the store in a run, if it meets no failure. -/
theorem World.run_call {call : StoreCall} {answer : Except StoreError call.Answer} {store : Store}
    {next : Except StoreError call.Answer → Program α} (hc : c.storeFailure w.turn call = none)
    (h : w.store.perform call = (answer, store)) :
    (Program.ask (.store call) next).run (reply c) w =
      (next answer).run (reply c) { w.nextTurn with store := store } := by
  rw [Program.run_ask, reply_store hc h]

/-- A call of the store in a run without failures of the store. -/
theorem World.run_store {call : StoreCall} {answer : Except StoreError call.Answer} {store : Store}
    {next : Except StoreError call.Answer → Program α} (hc : ∀ n call, c.storeFailure n call = none)
    (h : w.store.perform call = (answer, store)) :
    (Program.ask (.store call) next).run (reply c) w =
      (next answer).run (reply c) { w.nextTurn with store := store } :=
  run_call (hc _ _) h

theorem World.answers_of_reply {r : Request} {reply : r.Reply} {w' : World}
    (h : World.reply c r w = (reply, w')) : World.Answers (fun _ => True) r w reply w' :=
  ⟨c, .zero, fun _ _ _ _ => trivial, h⟩

open Classical in
/-- Of the circumstances only those failures matter that meet the request. -/
theorem World.answers_of_failures {fails : StoreCall → Prop} {r : Request} {reply : r.Reply} {w' : World}
    {length : Interval}
    (hr : ∀ n call e, r = .store call → c.storeFailure n call = some e → fails call)
    (h : World.reply c r (w.advance length) = (reply, w')) : World.Answers fails r w reply w' := by
  refine ⟨{ c with storeFailure := fun n call => if fails call then c.storeFailure n call else none },
    length, ?_, ?_⟩
  · intro n call e hfails
    by_contra hnot
    exact absurd (hfails.symm.trans (if_neg hnot)) (by simp)
  · cases r with
    | store call =>
        by_cases hfails : fails call
        · simp only [World.reply, if_pos hfails]
          exact h
        · have hnone : ∀ n, c.storeFailure n call = none := by
            intro n
            by_contra hsome
            rcases Option.ne_none_iff_exists'.1 hsome with ⟨e, he⟩
            exact hfails (hr n call e rfl he)
          rw [World.reply, hnone] at h
          simp only [World.reply, if_neg hfails]
          exact h
    | _ => exact h

end
end CmInventory
