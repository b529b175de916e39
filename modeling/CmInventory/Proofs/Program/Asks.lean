import CmInventory.Proofs.Program.Interleaving

/-!
# What programs ask for

Of some programs nothing matters but which requests they can make: `Program.Asks P p` says that `p` makes
only requests that satisfy `P`, whatever the replies are. It is a judgement in a setting without states, so
that the rules of the other judgements hold of it. Where such requests keep a fact the program keeps it
(`Program.Asks.ensures`).
-/

namespace CmInventory

/-- The setting in which only some requests may be made, and nothing is known of the replies. -/
def Setting.asking (P : Request → Prop) : Setting Unit :=
  ⟨fun r _ => P r, fun _ _ _ _ => True⟩

/-- A program asks only for requests that satisfy `P`. -/
def Program.Asks {α : Type} (P : Request → Prop) (p : Program α) : Prop :=
  p.Ensures (.asking P) (fun _ _ => True) ()

section

variable {α β σ : Type} {P R : Request → Prop}

namespace Program

theorem asks_done (a : α) : (Program.done a).Asks P := trivial

theorem asks_request {r : Request} (h : P r) : (request r).Asks P :=
  ⟨h, fun _ _ _ => trivial⟩

theorem asks_ask {r : Request} {next : r.Reply → Program α} :
    (Program.ask r next).Asks P ↔ P r ∧ ∀ reply, (next reply).Asks P :=
  ⟨fun h => ⟨h.1, fun reply => h.2 reply () trivial⟩, fun h => ⟨h.1, fun reply _ _ => h.2 reply⟩⟩

theorem Asks.bind {p : Program α} {f : α → Program β} (hp : p.Asks P) (hf : ∀ a, (f a).Asks P) :
    (p >>= f).Asks P :=
  Ensures.bind hp fun a _ _ => hf a

theorem Asks.mapM {f : α → Program β} {xs : List α} (h : ∀ x ∈ xs, (f x).Asks P) :
    (xs.mapM f).Asks P := by
  induction xs with
  | nil => exact asks_done []
  | cons x xs ih =>
      rw [List.mapM_cons]
      refine (h x (by simp)).bind fun y => ?_
      refine (ih fun z hz => h z (by simp [hz])).bind fun ys => ?_
      exact asks_done (y :: ys)

theorem Asks.mono {p : Program α} (h : p.Asks P) (hPR : ∀ r, P r → R r) : p.Asks R := by
  induction p with
  | done a => exact trivial
  | ask r next ih =>
      rcases asks_ask.1 h with ⟨hr, hnext⟩
      exact asks_ask.2 ⟨hPR r hr, fun reply => ih reply (hnext reply)⟩

/-- A fact that is kept by all requests that a program makes is kept by the program. -/
theorem Asks.ensures {E : Setting σ} {I : σ → Prop} {p : Program α} {s : σ} (h : p.Asks P) (hs : I s)
    (hkeeps : ∀ r s, P r → I s → E.may r s ∧ ∀ reply s', E.answers r s reply s' → I s') :
    p.Ensures E (fun _ => I) s := by
  induction p generalizing s with
  | done a => exact hs
  | ask r next ih =>
      rcases asks_ask.1 h with ⟨hr, hnext⟩
      rcases hkeeps r s hr hs with ⟨hmay, hkept⟩
      exact ⟨hmay, fun reply s' hans => ih reply (hnext reply) (hkept reply s' hans)⟩

end Program

namespace Action

theorem asks_bind {x : Action α} {f : α → Action β} (hx : x.run.Asks P)
    (hf : ∀ a, (f a).run.Asks P) : (x >>= f).run.Asks P :=
  ensures_bind_of hx (fun a _ _ => hf a) fun _ _ _ => trivial

theorem asks_lift {p : Program α} (h : p.Asks P) : (lift p).run.Asks P :=
  h.bind fun _ => Program.asks_done _

theorem asks_store {call : StoreCall} (h : P (.store call)) : (store call).run.Asks P :=
  (Program.asks_request h).bind fun _ => Program.asks_done _

theorem asks_plugin {call : PluginCall} (h : P (.plugin call)) : (plugin call).run.Asks P :=
  (Program.asks_request h).bind fun _ => Program.asks_done _

end Action

end
end CmInventory
