import CmInventory.Proofs.Program.Interleaving
import Mathlib.Data.List.Induction

/-!
# Records of members

What a member asks for may depend on all that it asked for and was told before. The record of a member
keeps this, and a program is judged by its record in the setting `Setting.recorded`. What holds of each
member by itself holds in every interleaving (`Interleaved.asked`); in particular, if every member does one
thing less often than another one, all of them together do (`countP_le_of_asked`).
-/

namespace CmInventory

/-- A request and the reply to it. -/
structure Exchange where
  request : Request
  reply : request.Reply

/-- The setting of a member that knows its own record. -/
def Setting.recorded (may : Request → List Exchange → Prop) : Setting (List Exchange) :=
  ⟨may, fun r past reply past' => past' = past ++ [⟨r, reply⟩]⟩

variable {α σ : Type} {answers : (r : Request) → σ → r.Reply → σ → Prop}

theorem recorded_request {may : Request → List Exchange → Prop} {r : Request} {past : List Exchange}
    {Q : r.Reply → List Exchange → Prop} (hmay : may r past)
    (h : ∀ reply, Q reply (past ++ [⟨r, reply⟩])) :
    (Program.request r).Ensures (.recorded may) Q past := by
  refine ⟨hmay, ?_⟩
  rintro reply _ rfl
  exact h reply

/-- What was asked for and answered in a turn. -/
def Turn.exchange (t : Turn σ) : Exchange :=
  ⟨t.request, t.reply⟩

/-- The record of a member after turns. -/
def recordOf (i : Nat) (turns : List (Turn σ)) : List Exchange :=
  (turnsOf i turns).map Turn.exchange

theorem recordOf_snoc (i : Nat) (turns : List (Turn σ)) (t : Turn σ) :
    recordOf i (turns ++ [t]) =
      if t.member = i then recordOf i turns ++ [t.exchange] else recordOf i turns := by
  rw [recordOf, turnsOf_snoc]
  split
  · rw [List.map_append]
    rfl
  · rfl

/-- A turn of a member is in its record, and the other way round. -/
theorem mem_recordOf {i : Nat} {turns : List (Turn σ)} {e : Exchange} :
    e ∈ recordOf i turns ↔ ∃ t ∈ turns, t.member = i ∧ t.exchange = e := by
  simp [recordOf, turnsOf, and_assoc]

/-- Every member asks only for what its program may ask for in the light of its record, and ends as its
program ensures. -/
theorem Interleaved.asked {may : Nat → Request → List Exchange → Prop} {Q : Nat → α → List Exchange → Prop}
    {ps qs : List (Program α)} {s s' : σ} {turns : List (Turn σ)}
    (h : Interleaved answers ps s turns qs s')
    (hps : ∀ i (p : Program α), ps[i]? = some p → p.Ensures (.recorded (may i)) (Q i) []) :
    (∀ before t after, turns = before ++ t :: after →
        may t.member t.request (recordOf t.member before)) ∧
      ∀ i (q : Program α), qs[i]? = some q →
        q.Ensures (.recorded (may i)) (Q i) (recordOf i turns) := by
  induction h with
  | start => exact ⟨by simp, hps⟩
  | @turn turns qs s₁ s₂ i r next reply _ asked answered ih =>
      rcases ih with ⟨hturns, hprograms⟩
      rcases hprograms i _ asked with ⟨hmay, hnext⟩
      refine ⟨?_, ?_⟩
      · intro before t after heq
        -- The turn is the new one, or it is one of those before.
        rcases List.eq_nil_or_concat after with rfl | ⟨rest, last, rfl⟩
        · rcases List.append_inj' heq rfl with ⟨rfl, ht⟩
          cases ht
          exact hmay
        · have heq : turns ++ [⟨i, r, reply, s₁, s₂⟩] = (before ++ t :: rest) ++ [last] := by
            simpa using heq
          exact hturns before t rest (List.append_inj' heq rfl).1
      · intro j q hq
        rw [recordOf_snoc]
        rw [List.getElem?_set] at hq
        by_cases hj : i = j
        · subst hj
          have hlt : i < qs.length := (List.getElem?_eq_some_iff.1 asked).1
          rw [if_pos rfl, if_pos hlt, Option.some.injEq] at hq
          rw [if_pos rfl, ← hq]
          exact hnext reply _ rfl
        · rw [if_neg hj] at hq
          rw [if_neg hj]
          exact hprograms j q hq

/-- Of two members each asks for what it may by its own record. -/
theorem Interleaved.asked_pair {may₀ may₁ : Request → List Exchange → Prop}
    {Q₀ Q₁ : α → List Exchange → Prop} {p q : Program α} {qs : List (Program α)} {s s' : σ}
    {turns : List (Turn σ)} (h : Interleaved answers [p, q] s turns qs s')
    (hp : p.Ensures (.recorded may₀) Q₀ []) (hq : q.Ensures (.recorded may₁) Q₁ []) :
    (∀ before t after, turns = before ++ t :: after →
      (t.member = 0 ∧ may₀ t.request (recordOf 0 before)) ∨
        (t.member = 1 ∧ may₁ t.request (recordOf 1 before))) ∧
      ∃ p' q', qs = [p', q'] ∧ p'.Ensures (.recorded may₀) Q₀ (recordOf 0 turns) ∧
        q'.Ensures (.recorded may₁) Q₁ (recordOf 1 turns) := by
  have hps : ∀ i (r : Program α), [p, q][i]? = some r →
      r.Ensures (.recorded (if i = 0 then may₀ else may₁)) (if i = 0 then Q₀ else Q₁) [] := by
    intro i r hr
    match i with
    | 0 =>
        cases hr
        exact hp
    | 1 =>
        cases hr
        exact hq
    | i + 2 => cases hr
  rcases h.asked (Q := fun i => if i = 0 then Q₀ else Q₁) hps with ⟨hturns, hprograms⟩
  refine ⟨fun before t after heq => ?_, ?_⟩
  · have hmay := hturns before t after heq
    have hlt : t.member < 2 := h.member_lt.2 t (by simp [heq])
    split at hmay
    · rename_i hzero
      rw [hzero] at hmay
      exact Or.inl ⟨hzero, hmay⟩
    · rename_i hne
      have hone : t.member = 1 := by omega
      rw [hone] at hmay
      exact Or.inr ⟨hone, hmay⟩
  · obtain ⟨p', q', rfl⟩ : ∃ p' q', qs = [p', q'] := List.length_eq_two.1 h.member_lt.1
    exact ⟨p', q', rfl, hprograms 0 p' rfl, hprograms 1 q' rfl⟩

/-! ## Counting -/

/-- The turns of the members up to the `n`th are those of the members before and those of the `n`th. -/
theorem countP_member_lt_succ (p : Turn σ → Bool) (turns : List (Turn σ)) (n : Nat) :
    (turns.countP fun t => decide (t.member < n + 1) && p t) =
      (turns.countP fun t => decide (t.member < n) && p t) + (turnsOf n turns).countP p := by
  induction turns with
  | nil => rfl
  | cons t rest ih =>
      have hcons : turnsOf n (t :: rest) =
          if t.member = n then t :: turnsOf n rest else turnsOf n rest := by
        by_cases h : t.member = n <;> simp [turnsOf, h]
      rw [List.countP_cons, List.countP_cons, ih, hcons]
      rcases Nat.lt_trichotomy t.member n with hlt | heq | hgt
      · have hle : t.member < n + 1 := Nat.lt_succ_of_lt hlt
        rw [if_neg (Nat.ne_of_lt hlt)]
        simp only [hlt, hle, decide_true, Bool.true_and]
        omega
      · rw [if_pos heq, List.countP_cons]
        simp [heq]
        omega
      · have hge : ¬ t.member < n + 1 := by omega
        have hge' : ¬ t.member < n := by omega
        rw [if_neg (Nat.ne_of_gt hgt)]
        simp [hge, hge']

theorem exists_member_lt (turns : List (Turn σ)) : ∃ n, ∀ t ∈ turns, t.member < n := by
  induction turns with
  | nil => exact ⟨0, by simp⟩
  | cons t rest ih =>
      rcases ih with ⟨n, hn⟩
      refine ⟨max n (t.member + 1), ?_⟩
      intro u hu
      rcases List.mem_cons.1 hu with rfl | hu
      · omega
      · have := hn u hu
        omega

/-- What holds of the counts of each member holds of the counts of all. -/
theorem countP_le_of_turnsOf {p q : Turn σ → Bool} {turns : List (Turn σ)}
    (h : ∀ i, (turnsOf i turns).countP p ≤ (turnsOf i turns).countP q) :
    turns.countP p ≤ turns.countP q := by
  have hupto : ∀ n, (turns.countP fun t => decide (t.member < n) && p t) ≤
      turns.countP fun t => decide (t.member < n) && q t := by
    intro n
    induction n with
    | zero => simp
    | succ n ih =>
        rw [countP_member_lt_succ, countP_member_lt_succ]
        exact Nat.add_le_add ih (h n)
  rcases exists_member_lt turns with ⟨n, hn⟩
  have hall : ∀ r : Turn σ → Bool,
      (turns.countP fun t => decide (t.member < n) && r t) = turns.countP r := by
    intro r
    refine List.countP_congr ?_
    intro t ht
    simp [hn t ht]
  rw [← hall p, ← hall q]
  exact hupto n

/-- Members of whom each does one thing only when it did another one more often before. -/
theorem countP_le_of_asked {p q : Exchange → Bool} {turns : List (Turn σ)}
    (h : ∀ before t after, turns = before ++ t :: after → p t.exchange = true →
      (recordOf t.member before).countP p < (recordOf t.member before).countP q) :
    (turns.countP fun t => p t.exchange) ≤ turns.countP fun t => q t.exchange := by
  refine countP_le_of_turnsOf fun i => ?_
  have hmap : ∀ r : Exchange → Bool, ∀ ts : List (Turn σ),
      ((turnsOf i ts).countP fun t => r t.exchange) = (recordOf i ts).countP r := by
    intro r ts
    rw [recordOf, List.countP_map]
    rfl
  rw [hmap, hmap]
  induction turns using List.reverseRecOn with
  | nil => exact Nat.le_refl _
  | append_singleton turns t ih =>
      have hbefore := ih fun before u after heq => h before u (after ++ [t]) (by simp [heq])
      rw [recordOf_snoc]
      split
      · rename_i hi
        rw [List.countP_append, List.countP_append]
        cases hp : p t.exchange with
        | false =>
            rw [List.countP_cons_of_neg (by simp [hp]), List.countP_nil]
            omega
        | true =>
            have hlt := h turns t [] rfl hp
            rw [hi] at hlt
            rw [List.countP_cons_of_pos hp, List.countP_nil]
            omega
      · exact hbefore

end CmInventory
