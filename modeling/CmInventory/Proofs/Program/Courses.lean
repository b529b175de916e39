import CmInventory.Proofs.Coordination.Markers
import CmInventory.Proofs.Program.Logged

/-!
# Courses of a run

What the plugins answer for each handle is fixed by `Fates`. All else that a run of one member depends on, the
readings of the clock, fresh ids, random choices and how much time passes before each request, is a `Course`, and
one set of fates allows for many of them. Programs are judged for all of these at once, in the setting
`Setting.fated`, up to a time at which the run is over.
-/

namespace CmInventory

/-- What the plugins answer, handle by handle. -/
structure Fates where
  modules : HandleId → Except PluginError (List ModuleReference)
  read : HandleId → Except PluginError PluginReply

/-- Circumstances, and how much time passes before each request. -/
structure Course where
  circumstances : Circumstances
  pause : Nat → Interval

namespace Course

/-- How the world replies in a course. -/
def reply (k : Course) : Program.Surroundings World := fun r w =>
  World.reply k.circumstances r (w.advance (k.pause w.turn))

/-- The store does not fail, and the plugins answer as they are fated to. -/
structure Follows (k : Course) (f : Fates) : Prop where
  stores : ∀ n call, k.circumstances.storeFailure n call = none
  modules : ∀ n h, k.circumstances.plugin n (.modules h) = f.modules h.id
  read : ∀ n h resource datastore, k.circumstances.plugin n (.read h resource datastore) = f.read h.id

end Course

/-- Whether a reply is as the plugins are fated to answer. -/
def Fates.Gives (f : Fates) : (r : Request) → r.Reply → Prop
  | .plugin (.modules h), reply => reply = f.modules h.id
  | .plugin (.read h _ _), reply => reply = f.read h.id
  | _, _ => True

/-- What may come of a request before a time that ends the run. -/
def Fates.Answers (f : Fates) (ends : Nat) (r : Request) (w : World) (reply : r.Reply) (w' : World) : Prop :=
  World.Answers (fun _ => False) r w reply w' ∧ f.Gives r reply ∧ w'.time ≤ ends

/-- The setting of a member that works alone while the plugins answer as they are fated to. -/
def Setting.fated (f : Fates) (ends : Nat) : Setting World :=
  ⟨fun _ _ => True, f.Answers ends⟩

section

variable {f : Fates} {k : Course} {ends : Nat} {w : World}

theorem Course.answers (k : Course) (r : Request) (w : World) :
    World.Answers (fun _ => True) r w (k.reply r w).1 (k.reply r w).2 :=
  ⟨k.circumstances, k.pause w.turn, fun _ _ _ _ => trivial, rfl⟩

theorem Course.time_le (k : Course) (r : Request) (w : World) : w.time ≤ (k.reply r w).2.time :=
  (k.answers r w).time_le

theorem Course.Follows.answers (hk : k.Follows f) {r : Request} (hends : (k.reply r w).2.time ≤ ends) :
    f.Answers ends r w (k.reply r w).1 (k.reply r w).2 := by
  refine ⟨⟨k.circumstances, k.pause w.turn, fun n call e hfails => ?_, rfl⟩, ?_, hends⟩
  · rw [hk.stores] at hfails
    cases hfails
  · cases r with
    | plugin call =>
        cases call with
        | modules h => exact hk.modules _ h
        | read h resource datastore => exact hk.read _ h resource datastore
    | _ => trivial

variable {α : Type} {p : Program α}

/-- A judgement for all courses is one of each run, up to the time at which the run is over. -/
theorem Course.Follows.judged (hk : k.Follows f) {Q : α → Logged World → Prop} {log : List (Turn World)}
    (h : p.Ensures (.logged (f.Answers ends)) Q (w, log)) (hends : (p.run k.reply w).2.time ≤ ends) :
    Q (p.run k.reply w).1 ((p.run k.reply w).2, log ++ p.turns k.reply w) :=
  h.of_logged (fun r w hle => Nat.le_trans (k.time_le r w) hle) (fun _ _ hle => hk.answers hle) hends

theorem Course.Follows.run_eq (hk : k.Follows f) {q : Program α} {log : List (Turn World)}
    (h : Program.Agree (.logged (f.Answers ends)) p q (w, log)) (hends : (p.run k.reply w).2.time ≤ ends) :
    q.run k.reply w = p.run k.reply w :=
  h.run_eq (fun r w hle => Nat.le_trans (k.time_le r w) hle) (fun _ _ hle => hk.answers hle) hends

/-- What all requests keep that a program makes, a run of it keeps. -/
theorem Course.keeps (k : Course) {P : Request → Prop} {I : World → Prop} (hasks : p.Asks P) (hw : I w)
    (hkeeps : ∀ (r : Request) v reply v', P r → I v → World.Answers (fun _ => True) r v reply v' → I v') :
    I (p.run k.reply w).2 := by
  let E : Setting World := ⟨fun _ _ => True, World.Answers fun _ => True⟩
  have hensures : p.Ensures E (fun _ => I) w :=
    hasks.ensures hw fun r v hr hv => ⟨trivial, fun reply v' hans => hkeeps r v reply v' hr hv hans⟩
  exact hensures.run k.answers

/-- No time passes while the world replies. -/
theorem World.time_reply (c : Circumstances) (r : Request) (w : World) : (World.reply c r w).2.time = w.time := by
  cases r with
  | store call =>
      rw [World.reply]
      cases c.storeFailure w.turn call <;> rfl
  | mark kind id owner life => exact (w.nextTurn.remarks_mark kind id kind id owner life).2
  | unmark kind id => exact (w.nextTurn.remarks_unmark kind id kind id).2
  | pending call => cases call <;> rfl
  | _ => rfl

/-- Time stands still in a course without pauses. -/
theorem Course.time_run (hpause : ∀ n, k.pause n = .zero) : (p.run k.reply w).2.time = w.time := by
  induction p generalizing w with
  | done a => rfl
  | ask r next ih =>
      rw [Program.run_ask, ih, Course.reply, World.time_reply, hpause]
      rfl

end
end CmInventory
