import CmInventory.Program.Request

/-!
# Programs

An operation of the inventory is a program: it is done with a result, or it asks for something and goes
on depending on the reply. What the surroundings reply is left open, so that the same program runs alone,
in turn with those of other members, or against replies that were laid down in advance.

Main definitions:

- `Program` with its monad structure, which is lawful;
- `Program.run`: a program with surroundings that answer from a state.
-/

namespace CmInventory

/-- A program with a result in `α`. -/
inductive Program (α : Type) where
  | done (result : α)
  | ask (request : Request) (next : request.Reply → Program α)

namespace Program

variable {α β σ : Type}

/-- One program after the other. -/
def andThen : Program α → (α → Program β) → Program β
  | .done a, f => f a
  | .ask r next, f => .ask r fun reply => (next reply).andThen f

instance : Monad Program where
  pure := .done
  bind := andThen

@[simp] theorem pure_eq (a : α) : (pure a : Program α) = .done a := rfl

@[simp] theorem done_bind (a : α) (f : α → Program β) : (Program.done a >>= f) = f a := rfl

@[simp] theorem ask_bind (r : Request) (next : r.Reply → Program α) (f : α → Program β) :
    (Program.ask r next >>= f) = .ask r fun reply => next reply >>= f := rfl

theorem bind_done (p : Program α) : (p >>= Program.done) = p := by
  induction p with
  | done a => rfl
  | ask r next ih => exact congrArg (Program.ask r) (funext ih)

theorem bind_bind {γ : Type} (p : Program α) (f : α → Program β) (g : β → Program γ) :
    (p >>= f >>= g) = (p >>= fun a => f a >>= g) := by
  induction p with
  | done a => rfl
  | ask r next ih => exact congrArg (Program.ask r) (funext ih)

instance : LawfulMonad Program :=
  LawfulMonad.mk' Program bind_done (fun _ _ => rfl) bind_bind

def request (r : Request) : Program r.Reply :=
  .ask r .done

/-! ## Running -/

/-- How surroundings with states in `σ` reply to requests. -/
abbrev Surroundings (σ : Type) := (r : Request) → σ → r.Reply × σ

/-- The result of a program and the state of the surroundings after it. -/
def run (reply : Surroundings σ) : Program α → σ → α × σ
  | .done a, s => (a, s)
  | .ask r next, s =>
      match reply r s with
      | (answer, s) => (next answer).run reply s

@[simp] theorem run_done (reply : Surroundings σ) (a : α) (s : σ) :
    (Program.done a).run reply s = (a, s) := rfl

@[simp] theorem run_ask (reply : Surroundings σ) (r : Request) (next : r.Reply → Program α)
    (s : σ) :
    (Program.ask r next).run reply s = (next (reply r s).1).run reply (reply r s).2 := rfl

theorem run_bind (reply : Surroundings σ) (p : Program α) (f : α → Program β) (s : σ) :
    (p >>= f).run reply s = (f (p.run reply s).1).run reply (p.run reply s).2 := by
  induction p generalizing s with
  | done a => rfl
  | ask r next ih => exact ih _ _

/-! ## Single requests -/

def store (call : StoreCall) : Program (Except StoreError call.Answer) :=
  request (.store call)

def pending (call : PendingCall) : Program call.Answer :=
  request (.pending call)

def plugin (call : PluginCall) : Program (Except PluginError call.Answer) :=
  request (.plugin call)

def now : Program Instant :=
  request .now

/-- An item of a list chosen at random, and the items without it. -/
def draw : List β → Program (Option (β × List β))
  | [] => return none
  | item :: rest => do
      let i ← request (.choose rest.length)
      return some ((item :: rest).get i, (item :: rest).eraseIdx i)

end Program
end CmInventory
