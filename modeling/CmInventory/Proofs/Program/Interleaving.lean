import CmInventory.Proofs.Program.Ensures
import Mathlib.Data.List.Induction

/-!
# Interleavings

Several members run their programs in surroundings that they share. In each turn one request of one member
is answered; between two requests of a member any number of turns of others may come.

What every interleaving keeps is shown by a `Discipline`. It gives each member a view, made only from the
replies that the member got, and says what a member may ask for in the light of its view. Each program is
judged by itself, in the setting `Discipline.own` of views; that the shared state is kept has to be shown
for single requests. `Interleaved.kept` puts the two together.
-/

namespace CmInventory

/-- A turn: a member asked for something, and was answered. -/
structure Turn (σ : Type) where
  member : Nat
  request : Request
  reply : request.Reply
  before : σ
  after : σ

/-- In a list there is an item of one kind, and none of another kind after it. -/
def Since {α : Type} (P Q : α → Prop) (xs : List α) : Prop :=
  ∃ before a after, xs = before ++ a :: after ∧ P a ∧ ∀ b ∈ after, ¬ Q b

section

variable {α : Type} {P Q : α → Prop}

theorem not_since_nil : ¬ Since P Q [] := by
  rintro ⟨before, a, after, heq, -⟩
  simp at heq

theorem since_snoc {xs : List α} {a : α} : Since P Q (xs ++ [a]) ↔ P a ∨ (Since P Q xs ∧ ¬ Q a) := by
  constructor
  · rintro ⟨before, b, after, heq, hP, hQ⟩
    rcases List.eq_nil_or_concat after with rfl | ⟨rest, last, rfl⟩
    · rcases List.append_inj' heq rfl with ⟨-, hlast⟩
      cases hlast
      exact Or.inl hP
    · have heq : xs ++ [a] = (before ++ b :: rest) ++ [last] := by simpa using heq
      rcases List.append_inj' heq rfl with ⟨rfl, hlast⟩
      cases hlast
      refine Or.inr ⟨⟨before, b, rest, rfl, hP, fun c hc => hQ c ?_⟩, hQ a ?_⟩
      · simp [hc]
      · simp
  · rintro (hP | ⟨⟨before, b, after, rfl, hP, hQ⟩, ha⟩)
    · exact ⟨xs, a, [], rfl, hP, by simp⟩
    · refine ⟨before, b, after ++ [a], by simp, hP, ?_⟩
      intro c hc
      rcases List.mem_append.1 hc with hc | hc
      · exact hQ c hc
      · rw [List.mem_singleton.1 hc]
        exact ha

theorem Since.mono {P' Q' : α → Prop} {xs : List α} (h : Since P Q xs) (hP : ∀ a ∈ xs, P a → P' a)
    (hQ : ∀ a ∈ xs, Q' a → Q a) : Since P' Q' xs := by
  rcases h with ⟨before, a, after, rfl, ha, hafter⟩
  refine ⟨before, a, after, rfl, hP a (by simp) ha, ?_⟩
  intro b hb hb'
  exact hafter b hb (hQ b (by simp [hb]) hb')

/-- Of items of two kinds, if there are any, the last one is of one of the kinds. -/
theorem since_or_since {xs : List α} (h : ∃ a ∈ xs, Q a) : Since P Q xs ∨ Since Q P xs := by
  induction xs using List.reverseRecOn with
  | nil => simp at h
  | append_singleton xs b ih =>
      rw [since_snoc, since_snoc]
      by_cases hQ : Q b
      · exact Or.inr (Or.inl hQ)
      by_cases hP : P b
      · exact Or.inl (Or.inl hP)
      obtain ⟨a, ha, hQa⟩ := h
      have ha : a ∈ xs := by
        rcases List.mem_append.1 ha with ha | ha
        · exact ha
        · rw [List.mem_singleton.1 ha] at hQa
          exact absurd hQa hQ
      exact (ih ⟨a, ha, hQa⟩).imp (fun h => Or.inr ⟨h, hQ⟩) fun h => Or.inr ⟨h, hP⟩

/-- What begins before an item that ends it does not last. -/
theorem since_append_cons {xs ys : List α} {a : α} (hP : ¬ P a) (hQ : Q a) :
    Since P Q (xs ++ a :: ys) ↔ Since P Q ys := by
  induction ys using List.reverseRecOn with
  | nil =>
      rw [since_snoc]
      exact ⟨fun h => (h.elim hP fun h => h.2 hQ).elim, fun h => absurd h not_since_nil⟩
  | append_singleton ys b ih =>
      rw [show xs ++ a :: (ys ++ [b]) = (xs ++ a :: ys) ++ [b] by simp, since_snoc, since_snoc, ih]

end

section

variable {α σ τ : Type} {answers : (r : Request) → σ → r.Reply → σ → Prop}

/-- The programs `ps`, started in `s`, may have come by these turns to the programs that are left of them,
and their surroundings to the given state. -/
inductive Interleaved (answers : (r : Request) → σ → r.Reply → σ → Prop) (ps : List (Program α))
    (s : σ) : List (Turn σ) → List (Program α) → σ → Prop
  | start : Interleaved answers ps s [] ps s
  | turn {turns : List (Turn σ)} {qs : List (Program α)} {s₁ s₂ : σ} {i : Nat} {r : Request}
      {next : r.Reply → Program α} {reply : r.Reply} (before : Interleaved answers ps s turns qs s₁)
      (asked : qs[i]? = some (.ask r next)) (answered : answers r s₁ reply s₂) :
      Interleaved answers ps s (turns ++ [⟨i, r, reply, s₁, s₂⟩]) (qs.set i (next reply)) s₂

/-- One more turn, of the given member. -/
theorem Interleaved.snoc {ps qs : List (Program α)} {s s₁ s₂ : σ} {turns : List (Turn σ)} {r : Request}
    {next : r.Reply → Program α} {reply : r.Reply} (h : Interleaved answers ps s turns qs s₁) (i : Nat)
    (asked : qs[i]? = some (.ask r next)) (answered : answers r s₁ reply s₂) :
    Interleaved answers ps s (turns ++ [⟨i, r, reply, s₁, s₂⟩]) (qs.set i (next reply)) s₂ :=
  .turn h asked answered

/-- The turns of one member. -/
def turnsOf (i : Nat) (turns : List (Turn σ)) : List (Turn σ) :=
  turns.filter fun t => t.member = i

theorem turnsOf_snoc (i : Nat) (turns : List (Turn σ)) (t : Turn σ) :
    turnsOf i (turns ++ [t]) = if t.member = i then turnsOf i turns ++ [t] else turnsOf i turns := by
  by_cases h : t.member = i <;> simp [turnsOf, h]

theorem turnsOf_other {i : Nat} {turns : List (Turn σ)} {t : Turn σ} (h : t.member ≠ i) :
    turnsOf i (turns ++ [t]) = turnsOf i turns := by
  rw [turnsOf_snoc, if_neg h]

/-- What holds of the shared state at all times if every answer keeps it. -/
theorem Interleaved.invariant {I : σ → Prop} {ps qs : List (Program α)} {s s' : σ}
    {turns : List (Turn σ)} (h : Interleaved answers ps s turns qs s') (hs : I s)
    (hkeeps : ∀ r s reply s', I s → answers r s reply s' → I s') :
    I s' ∧ ∀ t ∈ turns, I t.before ∧ I t.after ∧ answers t.request t.before t.reply t.after := by
  induction h with
  | start => exact ⟨hs, by simp⟩
  | @turn turns qs s₁ s₂ i r next reply _ asked answered ih =>
      rcases ih with ⟨hs₁, hturns⟩
      have hs₂ := hkeeps r s₁ reply s₂ hs₁ answered
      refine ⟨hs₂, ?_⟩
      intro t ht
      rcases List.mem_append.1 ht with ht | ht
      · exact hturns t ht
      · rw [List.mem_singleton.1 ht]
        exact ⟨hs₁, hs₂, answered⟩

/-- What holds of the turns so far and the shared state, if it holds at the start and every turn keeps
it. -/
theorem Interleaved.along {P : List (Turn σ) → σ → Prop} {ps qs : List (Program α)} {s s' : σ}
    {turns : List (Turn σ)} (h : Interleaved answers ps s turns qs s') (hstart : P [] s)
    (hturn : ∀ before, ∀ t ∈ turns, P before t.before → P (before ++ [t]) t.after) : P turns s' := by
  induction h with
  | start => exact hstart
  | @turn turns qs s₁ s₂ i r next reply _ asked answered ih =>
      have hearlier : P turns s₁ := ih fun before t ht => hturn before t (List.mem_append_left _ ht)
      exact hturn turns ⟨i, r, reply, s₁, s₂⟩ (by simp) hearlier

/-- What holds of the turns so far and the shared state, if it holds at the start and every turn keeps it
where it stands. -/
theorem Interleaved.alongside {P : List (Turn σ) → σ → Prop} {ps qs : List (Program α)} {s s' : σ}
    {turns : List (Turn σ)} (h : Interleaved answers ps s turns qs s') (hstart : P [] s)
    (hturn : ∀ before t after, turns = before ++ t :: after →
      answers t.request t.before t.reply t.after → P before t.before → P (before ++ [t]) t.after) :
    P turns s' := by
  induction h with
  | start => exact hstart
  | @turn turns qs s₁ s₂ i r next reply _ asked answered ih =>
      have hearlier : P turns s₁ := by
        refine ih fun before t after heq => hturn before t (after ++ [⟨i, r, reply, s₁, s₂⟩]) ?_
        rw [heq, List.append_assoc, List.cons_append]
      exact hturn turns ⟨i, r, reply, s₁, s₂⟩ [] rfl answered hearlier

/-- Up to any of its turns a run is a run, and the turn is answered in the state that was reached. -/
theorem Interleaved.upto {ps qs : List (Program α)} {s s' : σ} {turns : List (Turn σ)}
    (h : Interleaved answers ps s turns qs s') {before after : List (Turn σ)} {t : Turn σ}
    (ht : turns = before ++ t :: after) :
    (∃ qs', Interleaved answers ps s before qs' t.before) ∧
      answers t.request t.before t.reply t.after := by
  induction h generalizing after with
  | start => exact absurd ht (by simp)
  | @turn turns qs s₁ s₂ i r next reply earlier asked answered ih =>
      rcases List.eq_nil_or_concat after with rfl | ⟨rest, last, rfl⟩
      · rcases List.append_inj' ht rfl with ⟨rfl, hlast⟩
        cases hlast
        exact ⟨⟨qs, earlier⟩, answered⟩
      · have ht : turns ++ [⟨i, r, reply, s₁, s₂⟩] = (before ++ t :: rest) ++ [last] := by
          simpa using ht
        exact ih (List.append_inj' ht rfl).1

/-- After any of its turns a run has come to the state that the turn left. -/
theorem Interleaved.through {ps qs : List (Program α)} {s s' : σ} {turns : List (Turn σ)}
    (h : Interleaved answers ps s turns qs s') {before after : List (Turn σ)} {t : Turn σ}
    (ht : turns = before ++ t :: after) : ∃ qs', Interleaved answers ps s (before ++ [t]) qs' t.after := by
  induction h generalizing after with
  | start => exact absurd ht (by simp)
  | @turn turns qs s₁ s₂ i r next reply earlier asked answered ih =>
      rcases List.eq_nil_or_concat after with rfl | ⟨rest, last, rfl⟩
      · rcases List.append_inj' ht rfl with ⟨rfl, hlast⟩
        cases hlast
        exact ⟨_, .turn earlier asked answered⟩
      · have ht : turns ++ [⟨i, r, reply, s₁, s₂⟩] = (before ++ t :: rest) ++ [last] := by
          simpa using ht
        exact ih (List.append_inj' ht rfl).1

/-- What one turn brings about and the turns of another kind alone can undo holds at the end, if there was
none of these since. -/
theorem Interleaved.since {P Q : Turn σ → Prop} {I : σ → Prop} {ps qs : List (Program α)} {s s' : σ}
    {turns : List (Turn σ)} (h : Interleaved answers ps s turns qs s') (hsince : Since P Q turns)
    (hbegins : ∀ t ∈ turns, answers t.request t.before t.reply t.after → P t → I t.after)
    (hgoesOn : ∀ t ∈ turns, answers t.request t.before t.reply t.after → ¬ Q t → I t.before →
      I t.after) : I s' := by
  refine h.alongside (P := fun past s => Since P Q past → I s) ?_ ?_ hsince
  · exact fun hnone => absurd hnone not_since_nil
  · intro before t after heq answered hbefore hsince
    have hmem : t ∈ turns := by simp [heq]
    rcases since_snoc.1 hsince with hP | ⟨hearlier, hQ⟩
    · exact hbegins t hmem answered hP
    · exact hgoesOn t hmem answered hQ (hbefore hearlier)

/-- Every turn is one of a member. -/
theorem Interleaved.member_lt {ps qs : List (Program α)} {s s' : σ} {turns : List (Turn σ)}
    (h : Interleaved answers ps s turns qs s') :
    qs.length = ps.length ∧ ∀ t ∈ turns, t.member < ps.length := by
  induction h with
  | start => exact ⟨rfl, by simp⟩
  | @turn turns qs s₁ s₂ i r next reply _ asked answered ih =>
      rcases ih with ⟨hlength, hmembers⟩
      refine ⟨by rw [List.length_set, hlength], ?_⟩
      intro t ht
      rcases List.mem_append.1 ht with ht | ht
      · exact hmembers t ht
      · have hlt : i < qs.length := (List.getElem?_eq_some_iff.1 asked).1
        rw [List.mem_singleton.1 ht, ← hlength]
        exact hlt

/-- What is left of a program after turns of its member. -/
inductive Leads : Program α → List (Turn σ) → Program α → Prop
  | none (p : Program α) : Leads p [] p
  | turn {i : Nat} {r : Request} {next : r.Reply → Program α} {reply : r.Reply} {s s' : σ}
      {turns : List (Turn σ)} {q : Program α} (rest : Leads (next reply) turns q) :
      Leads (.ask r next) (⟨i, r, reply, s, s'⟩ :: turns) q

theorem Leads.snoc {p : Program α} {turns : List (Turn σ)} {i : Nat} {r : Request}
    {next : r.Reply → Program α} {s s' : σ} (h : Leads p turns (.ask r next)) (reply : r.Reply) :
    Leads p (turns ++ [⟨i, r, reply, s, s'⟩]) (next reply) := by
  -- Induction on the turns before; the new turn comes after the last of them.
  generalize hq : Program.ask r next = q at h
  induction h with
  | none p =>
      subst hq
      exact .turn (.none _)
  | turn rest ih => exact .turn (ih hq)

/-- Every member comes to what is left of its program by its own turns. -/
theorem Interleaved.leads {ps qs : List (Program α)} {s s' : σ} {turns : List (Turn σ)}
    (h : Interleaved answers ps s turns qs s') :
    ∀ i (q : Program α), qs[i]? = some q → ∃ p, ps[i]? = some p ∧ Leads p (turnsOf i turns) q := by
  induction h with
  | start => exact fun i q hq => ⟨q, hq, .none q⟩
  | @turn turns qs s₁ s₂ i r next reply _ asked answered ih =>
      intro j q hq
      rw [List.getElem?_set] at hq
      by_cases hj : i = j
      · subst hj
        -- The member that asked is one turn further, and all others are where they were.
        have hlt : i < qs.length := (List.getElem?_eq_some_iff.1 asked).1
        rw [if_pos rfl, if_pos hlt, Option.some.injEq] at hq
        rcases ih i _ asked with ⟨p, hp, hleads⟩
        rw [turnsOf_snoc, if_pos rfl, ← hq]
        exact ⟨p, hp, hleads.snoc reply⟩
      · rw [if_neg hj] at hq
        rw [turnsOf_other hj]
        exact ih j q hq

/-! ## Disciplines -/

/-- A way in which members work together. -/
structure Discipline (τ : Type) (answers : (r : Request) → σ → r.Reply → σ → Prop) where
  /-- The view of a member that did nothing yet. -/
  start : τ
  /-- The view after another reply. -/
  note : (r : Request) → r.Reply → τ → τ
  /-- What a member may ask for. -/
  may : Request → τ → Prop
  /-- What a member can rely on in the reply to a request. -/
  told : (r : Request) → r.Reply → Prop
  /-- What holds of every view. -/
  orderly : τ → Prop
  /-- What holds of the shared state at all times. -/
  holds : σ → Prop
  orderly_start : orderly start
  orderly_note : ∀ {r view} reply, orderly view → may r view → told r reply →
    orderly (note r reply view)
  keeps : ∀ {r view s reply s'}, may r view → holds s → answers r s reply s' →
    holds s' ∧ told r reply

namespace Discipline

variable (D : Discipline τ answers)

/-- The setting of a member that only knows its own view. -/
def own : Setting τ :=
  ⟨D.may, fun r view reply view' => D.told r reply ∧ view' = D.note r reply view⟩

/-- The view of a member after its turns. -/
def view (turns : List (Turn σ)) : τ :=
  turns.foldl (fun view t => D.note t.request t.reply view) D.start

theorem own_request {r : Request} {view : τ} {Q : r.Reply → τ → Prop} (hmay : D.may r view)
    (h : ∀ reply, D.told r reply → Q reply (D.note r reply view)) :
    (Program.request r).Ensures D.own Q view := by
  refine ⟨hmay, ?_⟩
  rintro reply _ ⟨htold, rfl⟩
  exact h reply htold

theorem view_snoc (turns : List (Turn σ)) (t : Turn σ) :
    D.view (turns ++ [t]) = D.note t.request t.reply (D.view turns) := by
  simp [view]

end Discipline

/-- A turn that followed a discipline. -/
structure Turn.Follows (t : Turn σ) (D : Discipline τ answers) : Prop where
  allowed : ∃ view, D.may t.request view
  before : D.holds t.before
  after : D.holds t.after
  told : D.told t.request t.reply
  answered : answers t.request t.before t.reply t.after

/-- Members whose programs follow a discipline by themselves follow it together. -/
theorem Interleaved.kept {D : Discipline τ answers} {ps qs : List (Program α)} {s s' : σ}
    {turns : List (Turn σ)} {Q : Nat → α → τ → Prop} (h : Interleaved answers ps s turns qs s')
    (hs : D.holds s) (hps : ∀ i (p : Program α), ps[i]? = some p → p.Ensures D.own (Q i) D.start) :
    D.holds s' ∧ (∀ t ∈ turns, t.Follows D) ∧ (∀ i, D.orderly (D.view (turnsOf i turns))) ∧
      ∀ i (q : Program α), qs[i]? = some q → q.Ensures D.own (Q i) (D.view (turnsOf i turns)) := by
  induction h with
  | start => exact ⟨hs, by simp, fun _ => D.orderly_start, hps⟩
  | @turn turns qs s₁ s₂ i r next reply _ asked answered ih =>
      rcases ih with ⟨hholds, hturns, horderly, hprograms⟩
      have hask := hprograms i _ asked
      rcases hask with ⟨hmay, hnext⟩
      rcases D.keeps hmay hholds answered with ⟨hholds', htold⟩
      refine ⟨hholds', ?_, ?_, ?_⟩
      · intro t ht
        rcases List.mem_append.1 ht with ht | ht
        · exact hturns t ht
        · rw [List.mem_singleton.1 ht]
          exact ⟨⟨_, hmay⟩, hholds, hholds', htold, answered⟩
      · intro j
        rw [turnsOf_snoc]
        split
        · rename_i hj
          have hj : i = j := hj
          subst hj
          rw [D.view_snoc]
          exact D.orderly_note reply (horderly i) hmay htold
        · exact horderly j
      -- The program of the member that asked goes on by its own judgement; no other one has moved.
      · intro j q hq
        rw [turnsOf_snoc]
        rw [List.getElem?_set] at hq
        by_cases hj : i = j
        · subst hj
          have hlt : i < qs.length := (List.getElem?_eq_some_iff.1 asked).1
          rw [if_pos rfl, if_pos hlt, Option.some.injEq] at hq
          rw [if_pos rfl, D.view_snoc, ← hq]
          exact hnext reply _ ⟨htold, rfl⟩
        · rw [if_neg hj] at hq
          rw [if_neg hj]
          exact hprograms j q hq

end

/-! ## Runs turn by turn -/

section

variable {α : Type} {fails : StoreCall → Prop} {ps qs : List (Program α)} {w₀ w : World} {s s' : Store}
  {turns : List (Turn World)}

/-- One more turn, in which a call of the store is performed. -/
theorem Interleaved.call {call : StoreCall} {next : Except StoreError call.Answer → Program α}
    {reply : Except StoreError call.Answer} (h : Interleaved (World.Answers fails) ps w₀ turns qs w) (i : Nat)
    (hw : w.store = s) (asked : qs[i]? = some (.ask (.store call) next))
    (hperform : s.perform call = (reply, s')) :
    ∃ w', Interleaved (World.Answers fails) ps w₀ (turns ++ [⟨i, .store call, reply, w, w'⟩])
        (qs.set i (next reply)) w' ∧ w'.store = s' :=
  ⟨_, h.snoc i asked (World.answers_store fails w (hw ▸ hperform)), rfl⟩

/-- One more turn, in which something else is asked for than a call of the store. -/
theorem Interleaved.aside {r : Request} {next : r.Reply → Program α}
    (h : Interleaved (World.Answers fails) ps w₀ turns qs w) (i : Nat) (hw : w.store = s)
    (asked : qs[i]? = some (.ask r next)) (hr : r.callsStore = false := by rfl) :
    ∃ w', Interleaved (World.Answers fails) ps w₀
        (turns ++ [⟨i, r, (World.reply World.undisturbed r w).1, w, w'⟩])
        (qs.set i (next (World.reply World.undisturbed r w).1)) w' ∧ w'.store = s := by
  have answered := World.answers_undisturbed fails r w
  refine ⟨_, h.snoc i asked answered, ?_⟩
  cases r with
  | store call => cases hr
  | publish event => exact (World.Answers.publish answered).1.trans hw
  | _ => exact (World.Answers.quiet (by trivial) answered).1.trans hw

end

end CmInventory
