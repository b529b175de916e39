import CmInventory.Proofs.Program.Asks

/-!
# Programs with a log

What a program does alone is sometimes told by its turns rather than by its last state: how often a request
failed, or what was stored when a record went. In the setting `Setting.logged` the state comes with the turns
so far. A run of one member is an interleaving of one program, and `Interleaved.logged` says of it what was
judged in this setting.

A judgement that was made without a log, in a setting that allows for no more answers than some requests can
get, holds of a program that makes only such requests (`Program.Ensures.within`).
-/

namespace CmInventory

variable {α σ τ : Type} {answers : (r : Request) → σ → r.Reply → σ → Prop}

/-- The state with the turns so far. -/
abbrev Logged (σ : Type) := σ × List (Turn σ)

/-- The setting of one member in which all turns are logged. -/
def Setting.logged (answers : (r : Request) → σ → r.Reply → σ → Prop) : Setting (Logged σ) :=
  ⟨fun _ _ => True, fun r s reply s' =>
    answers r s.1 reply s'.1 ∧ s'.2 = s.2 ++ [⟨0, r, reply, s.1, s'.1⟩]⟩

theorem logged_request {r : Request} {s : Logged σ} {Q : r.Reply → Logged σ → Prop}
    (h : ∀ reply s', answers r s.1 reply s' → Q reply (s', s.2 ++ [⟨0, r, reply, s.1, s'⟩])) :
    (Program.request r).Ensures (.logged answers) Q s := by
  refine ⟨trivial, ?_⟩
  rintro reply ⟨s', log⟩ ⟨answered, hlog⟩
  have hlog : log = s.2 ++ [⟨0, r, reply, s.1, s'⟩] := hlog
  rw [hlog]
  exact h reply s' answered

/-- A run of one member is judged with the log of its turns. -/
theorem Interleaved.logged {p : Program α} {qs : List (Program α)} {s s' : σ} {turns : List (Turn σ)}
    {Q : α → Logged σ → Prop} (h : Interleaved answers [p] s turns qs s')
    (hp : p.Ensures (.logged answers) Q (s, [])) :
    ∃ q, qs = [q] ∧ q.Ensures (.logged answers) Q (s', turns) := by
  induction h with
  | start => exact ⟨p, rfl, hp⟩
  | @turn turns qs s₁ s₂ i r next reply _ asked answered ih =>
      rcases ih with ⟨q, rfl, hq⟩
      -- There is no other member.
      obtain rfl : i = 0 := by
        have hlt := (List.getElem?_eq_some_iff.1 asked).1
        simpa using hlt
      rw [List.getElem?_cons_zero, Option.some.injEq] at asked
      subst asked
      exact ⟨next reply, rfl, hq.2 reply (s₂, _) ⟨answered, rfl⟩⟩

namespace Program

variable {E : Setting σ} {E' : Setting τ} {P : Request → Prop} {p : Program α}

/-- A fact of the state and the log that is kept by all requests that a program makes. -/
theorem Asks.logged {I : Logged σ → Prop} {s : Logged σ} (hasks : p.Asks P) (hs : I s)
    (hkeeps : ∀ (r : Request) s reply s', P r → I s → answers r s.1 reply s' →
      I (s', s.2 ++ [⟨0, r, reply, s.1, s'⟩])) :
    p.Ensures (.logged answers) (fun _ => I) s := by
  refine hasks.ensures hs fun r s hr hs => ⟨trivial, ?_⟩
  rintro reply ⟨s', log⟩ ⟨answered, hlog⟩
  have hlog : log = s.2 ++ [⟨0, r, reply, s.1, s'⟩] := hlog
  rw [hlog]
  exact hkeeps r s reply s' hr hs answered

theorem Ensures.and {Q R : α → σ → Prop} {s : σ} (hq : p.Ensures E Q s) (hr : p.Ensures E R s) :
    p.Ensures E (fun a s' => Q a s' ∧ R a s') s := by
  induction p generalizing s with
  | done a => exact ⟨hq, hr⟩
  | ask r next ih =>
      refine ⟨hq.1, ?_⟩
      intro reply s' hans
      exact ih reply (hq.2 reply s' hans) (hr.2 reply s' hans)

/-- A program that may ask for anything. -/
theorem ensures_trivial {s : σ} (hmay : ∀ r s, E.may r s) : p.Ensures E (fun _ _ => True) s := by
  induction p generalizing s with
  | done a => trivial
  | ask r next ih => exact ⟨hmay r s, fun reply s' _ => ih reply⟩

theorem ensures_forall {ι : Type} {Q : ι → α → σ → Prop} {s : σ} (hmay : ∀ r s, E.may r s)
    (h : ∀ i, p.Ensures E (Q i) s) : p.Ensures E (fun a s' => ∀ i, Q i a s') s := by
  induction p generalizing s with
  | done a => exact h
  | ask r next ih => exact ⟨hmay r s, fun reply s' hans => ih reply fun i => (h i).2 reply s' hans⟩

/-- What a program ensures in one setting it ensures in another one, if the answers to its requests are
allowed for in the first. -/
theorem Ensures.within {Q : α → σ → Prop} {t : τ} (f : τ → σ) (hasks : p.Asks P)
    (h : p.Ensures E Q (f t)) (hmay : ∀ r t, P r → E'.may r t)
    (hanswers : ∀ r t reply t', P r → E'.answers r t reply t' → E.answers r (f t) reply (f t')) :
    p.Ensures E' (fun a t' => Q a (f t')) t := by
  induction p generalizing t with
  | done a => exact h
  | ask r next ih =>
      rcases asks_ask.1 hasks with ⟨hr, hnext⟩
      refine ⟨hmay r t hr, ?_⟩
      intro reply t' hans
      exact ih reply (hnext reply) (h.2 reply (f t') (hanswers r t reply t' hr hans))

/-- A judgement with a log holds without one, of some log of answers of the setting. -/
theorem Ensures.unlogged {Q : α → Logged σ → Prop} {s : σ} {log : List (Turn σ)}
    (h : p.Ensures (.logged answers) Q (s, log)) (hmay : ∀ r s, E.may r s)
    (hanswers : ∀ r s reply s', E.answers r s reply s' → answers r s reply s') :
    p.Ensures E (fun a s' => ∃ more, Q a (s', log ++ more) ∧
      ∀ t ∈ more, E.answers t.request t.before t.reply t.after) s := by
  induction p generalizing s log with
  | done a => exact ⟨[], by rwa [List.append_nil], by simp⟩
  | ask r next ih =>
      refine ⟨hmay r s, ?_⟩
      intro reply s' hans
      have hnext := h.2 reply (s', log ++ [⟨0, r, reply, s, s'⟩]) ⟨hanswers r s reply s' hans, rfl⟩
      refine (ih reply hnext).mono ?_
      rintro a s'' ⟨more, hQ, hmore⟩
      refine ⟨⟨0, r, reply, s, s'⟩ :: more, by simpa using hQ, ?_⟩
      intro t ht
      rcases List.mem_cons.1 ht with rfl | ht
      · exact hans
      · exact hmore t ht

/-! ## Runs -/

/-- The turns of a program that is run alone. -/
def turns (reply : Surroundings σ) : Program α → σ → List (Turn σ)
  | .done _, _ => []
  | .ask r next, s =>
      ⟨0, r, (reply r s).1, s, (reply r s).2⟩ :: (next (reply r s).1).turns reply (reply r s).2

/-- A turn that comes after the first request is answered. -/
theorem mem_turns_ask {reply : Surroundings σ} {r : Request} {next : r.Reply → Program α} {s s' : σ}
    {answer : r.Reply} {t : Turn σ} (hreply : reply r s = (answer, s'))
    (ht : t ∈ (next answer).turns reply s') : t ∈ (Program.ask r next).turns reply s := by
  rw [turns, hreply]
  exact List.mem_cons_of_mem _ ht

section

variable {reply : Surroundings σ} {P : σ → Prop} {s : σ} {log : List (Turn σ)}

/-- What cannot begin in a run holds from the start of it if it holds in the end. -/
theorem holds_of_run (hback : ∀ r s, P (reply r s).2 → P s) (hend : P (p.run reply s).2) : P s := by
  induction p generalizing s with
  | done a => exact hend
  | ask r next ih => exact hback r s (ih _ hend)

/-- A run is judged with the log of its turns. The surroundings need to be as the setting has them only up to
the end of the run. -/
theorem Ensures.of_logged {Q : α → Logged σ → Prop} (h : p.Ensures (.logged answers) Q (s, log))
    (hback : ∀ r s, P (reply r s).2 → P s)
    (hanswers : ∀ r s, P (reply r s).2 → answers r s (reply r s).1 (reply r s).2)
    (hend : P (p.run reply s).2) :
    Q (p.run reply s).1 ((p.run reply s).2, log ++ p.turns reply s) := by
  induction p generalizing s log with
  | done a => simpa [turns] using h
  | ask r next ih =>
      have hnext := hanswers r s (holds_of_run hback hend)
      have hrest := ih _ (h.2 _ (_, log ++ [⟨0, r, (reply r s).1, s, (reply r s).2⟩]) ⟨hnext, rfl⟩) hend
      rwa [List.append_assoc] at hrest

end

/-- What is judged with the log of a run holds at the end of it. -/
theorem Ensures.logged_under {c : Circumstances} {w : World} {Q : α → Logged World → Prop}
    (hp : p.Ensures (.logged (Setting.under c).answers) Q (w, [])) :
    Q (p.run (World.reply c) w).1 ((p.run (World.reply c) w).2, p.turns (World.reply c) w) :=
  hp.of_logged (P := fun _ => True) (fun _ _ h => h) (fun _ _ _ => rfl) trivial

/-- A judgement without a log. -/
theorem Ensures.logged {Q : α → σ → Prop} {s : Logged σ}
    (h : p.Ensures ⟨fun _ _ => True, answers⟩ Q s.1) :
    p.Ensures (.logged answers) (fun a s' => Q a s'.1) s :=
  h.within Prod.fst (ensures_trivial fun _ _ => trivial) (fun _ _ _ => trivial) fun _ _ _ _ _ hans => hans.1

/-! ## Programs that agree -/

/-- Two programs that ask for the same and come to the same, as long as they are answered as a setting says. -/
inductive Agree (E : Setting σ) : Program α → Program α → σ → Prop
  | done {a : α} {s : σ} : Agree E (.done a) (.done a) s
  | ask {r : Request} {next next' : r.Reply → Program α} {s : σ}
      (replied : ∀ reply s', E.answers r s reply s' → Agree E (next reply) (next' reply) s') :
      Agree E (.ask r next) (.ask r next') s

/-- Programs that differ only after some part of them agree, if they do from where that part ends. -/
theorem Ensures.agree {β : Type} {Q : α → σ → Prop} {f g : α → Program β} {s : σ} (h : p.Ensures E Q s)
    (hfg : ∀ a s', Q a s' → Agree E (f a) (g a) s') : Agree E (p >>= f) (p >>= g) s := by
  induction p generalizing s with
  | done a => exact hfg a s h
  | ask r next ih => exact .ask fun reply s' hans => ih reply (h.2 reply s' hans)

/-- Programs that agree run alike in surroundings that are as the setting has them up to the end of the run. -/
theorem Agree.run_eq {q : Program α} {reply : Surroundings σ} {P : σ → Prop} {s : σ} {log : List (Turn σ)}
    (h : Agree (.logged answers) p q (s, log)) (hback : ∀ r s, P (reply r s).2 → P s)
    (hanswers : ∀ r s, P (reply r s).2 → answers r s (reply r s).1 (reply r s).2)
    (hend : P (p.run reply s).2) : q.run reply s = p.run reply s := by
  induction p generalizing q s log with
  | done a =>
      cases h
      rfl
  | ask r next ih =>
      cases h with
      | ask replied =>
          have hnext := hanswers r s (holds_of_run hback hend)
          exact ih _ (replied _ (_, log ++ [⟨0, r, (reply r s).1, s, (reply r s).2⟩]) ⟨hnext, rfl⟩) hend

end Program
end CmInventory
