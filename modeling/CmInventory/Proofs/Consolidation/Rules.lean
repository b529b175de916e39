import CmInventory.Inventory.Consolidation
import CmInventory.Proofs.Program.Ensures

/-!
# Judging the consolidation

Taking in an answer and ending the wait for answers are judged in different settings: by what a member
knows, by what a request is about, and by the run of the world. Each judgement goes through the same
requests in the same order, so that one rule for each of the two operations (`ensures_answer`,
`ensures_timeOut`) says what has to be shown of the single requests. They are instances of rules that keep
what the statuses are that a report is made of (`ensures_answer_told`, `ensures_timeOut_told`).
-/

namespace CmInventory

variable {σ α : Type} {E : Setting σ} {s : σ}

/-- What holds at the end of an action of which something is known unless it fails. -/
def Action.Gives (P : α → σ → Prop) (Q : Except InventoryError Bool → σ → Prop) :
    Except InventoryError α → σ → Prop
  | .ok a, s => P a s
  | .error e, s => Q (.error e) s

/-- What holds at the end of an action that leaves a fact as it is unless it fails. -/
def Action.Keeps (P : σ → Prop) (Q : Except InventoryError Bool → σ → Prop) :
    Except InventoryError α → σ → Prop :=
  Action.Gives (fun _ => P) Q

namespace Inventory

variable {c : Consolidation} {a : PluginAnswer} {Q : Except InventoryError Bool → σ → Prop}

/-- The statuses to report are those of the answer, or they are asked for. -/
theorem ensures_reportedStatuses {P : σ → Prop} (h : P s)
    (hstatuses : c.isStored = true → P s →
      (Action.store (.statuses a.clientId a.subscriptionName)).run.Ensures E (Action.Keeps P Q) s) :
    (reportedStatuses c a).run.Ensures E (Action.Keeps P Q) s := by
  rw [reportedStatuses]
  split
  · rename_i hstored
    exact hstatuses hstored h
  · exact h

/-- What becomes of an answer whose plugin was struck off, `left` being what is still awaited. -/
def conclude (c : Consolidation) (a : PluginAnswer) (left : Option NameSet) : Action Bool := do
  match left with
  | none => return false
  | some awaited =>
      if !awaited.isEmpty || !c.config.notifications then return false
      else
        let statuses ← reportedStatuses c a
        if statuses.any fun s => s.verdict = .pending then return false
        else
          match ← take a.key with
          | none => return false
          | some _ =>
              Action.lift (report c a a.eventType statuses)
              return true

theorem answer_eq (c : Consolidation) (a : PluginAnswer) :
    answer c a = (do
      let left ← Action.lift (Program.pending (.strike a.key a.plugin c.config.pendingLife))
      if c.isStored then Action.store (.saveAnswer a)
      conclude c a left) := by
  rw [answer]
  refine congrArg _ (funext fun left => ?_)
  cases left <;> rfl

/-- The end of an answer. `Told statuses` holds once it is known what the report would be made of. -/
theorem ensures_conclude_told {left : Option NameSet} {P : σ → Prop}
    {Told : List DeviceStatus → σ → Prop} (h : P s)
    (hwait : ∀ s', P s' → (∀ awaited, left = some awaited → awaited.isEmpty = true →
      c.config.notifications = false) → Q (.ok false) s')
    (htell : ∀ awaited s', left = some awaited → awaited.isEmpty = true → P s' →
      (reportedStatuses c a).run.Ensures E (Action.Gives Told Q) s')
    (hpending : ∀ statuses s', Told statuses s' → (∃ st ∈ statuses, st.verdict = .pending) →
      Q (.ok false) s')
    (htake : ∀ statuses s', Told statuses s' → (∀ st ∈ statuses, st.verdict ≠ .pending) →
      (Program.pending (.take a.key)).Ensures E
        (fun taken s'' => match taken with
          | none => Q (.ok false) s''
          | some _ => (report c a a.eventType statuses).Ensures E (fun _ => Q (.ok true)) s'') s') :
    (conclude c a left).run.Ensures E Q s := by
  cases left with
  | none => exact hwait _ h fun _ hleft => by cases hleft
  | some awaited =>
      rw [conclude]
      split
      · rename_i hcond
        refine hwait _ h ?_
        intro left hleft hempty
        cases hleft
        simpa [hempty] using hcond
      · rename_i hcond
        have hempty : awaited.isEmpty = true := by
          cases he : awaited.isEmpty
          · simp [he] at hcond
          · rfl
        refine Action.ensures_bind_of (htell awaited s rfl hempty h) ?_ fun _ _ he => he
        intro statuses s₁ h₁
        have h₁ : Told statuses s₁ := h₁
        split
        · rename_i hany
          exact hpending statuses s₁ h₁ (by simpa using hany)
        · rename_i hany
          rw [Action.ensures_bind, take, Action.run_lift, Program.ensures_bind]
          refine (htake statuses s₁ h₁ (by simpa using hany)).mono ?_
          intro taken s₂ h₂
          rw [Program.ensures_done, Action.goes_ok]
          cases taken with
          | none => exact h₂
          | some _ =>
              dsimp only at h₂ ⊢
              rw [Action.ensures_bind, Action.run_lift, Program.ensures_bind]
              exact h₂

/-- The rule for an answer that keeps what the statuses are. `Struck left` holds once the plugin was struck off,
and `Saved left` once the statuses were stored as well, if they are stored at all. -/
theorem ensures_answer_told (Struck Saved : Option NameSet → σ → Prop)
    (Told : List DeviceStatus → σ → Prop)
    (hstrike : (Program.pending (.strike a.key a.plugin c.config.pendingLife)).Ensures E Struck s)
    (hsave : c.isStored = true → ∀ left s', Struck left s' →
      (Action.store (.saveAnswer a)).run.Ensures E (Action.Keeps (Saved left) Q) s')
    (hunsaved : c.isStored = false → ∀ left s', Struck left s' → Saved left s')
    (hwait : ∀ left s', Saved left s' → (∀ awaited, left = some awaited → awaited.isEmpty = true →
      c.config.notifications = false) → Q (.ok false) s')
    (htell : ∀ awaited s', awaited.isEmpty = true → Saved (some awaited) s' →
      (reportedStatuses c a).run.Ensures E (Action.Gives Told Q) s')
    (hpending : ∀ statuses s', Told statuses s' → (∃ st ∈ statuses, st.verdict = .pending) →
      Q (.ok false) s')
    (htake : ∀ statuses s', Told statuses s' → (∀ st ∈ statuses, st.verdict ≠ .pending) →
      (Program.pending (.take a.key)).Ensures E
        (fun taken s'' => match taken with
          | none => Q (.ok false) s''
          | some _ => (report c a a.eventType statuses).Ensures E (fun _ => Q (.ok true)) s'') s') :
    (answer c a).run.Ensures E Q s := by
  rw [answer_eq, Action.ensures_bind, Action.run_lift, Program.ensures_bind]
  refine hstrike.mono ?_
  intro left s₁ h₁
  have hconclude : ∀ s', Saved left s' → (conclude c a left).run.Ensures E Q s' := by
    intro s' h
    refine ensures_conclude_told h (hwait left) ?_ hpending htake
    rintro awaited s₂ rfl hempty h₂
    exact htell awaited s₂ hempty h₂
  rw [Program.ensures_done, Action.goes_ok]
  dsimp only
  split
  · rename_i hstored
    exact Action.ensures_bind_of (hsave hstored left s₁ h₁) (fun _ s' h => hconclude s' h)
      fun _ _ he => he
  · rename_i hstored
    exact hconclude s₁ (hunsaved (Bool.eq_false_iff.2 hstored) left s₁ h₁)

/-- The rule for an answer. `Struck left` holds once the plugin was struck off, `left` being what is still
awaited. -/
theorem ensures_answer (Struck : Option NameSet → σ → Prop)
    (hstrike : (Program.pending (.strike a.key a.plugin c.config.pendingLife)).Ensures E Struck s)
    (hsave : c.isStored = true → ∀ left s', Struck left s' →
      (Action.store (.saveAnswer a)).run.Ensures E (Action.Keeps (Struck left) Q) s')
    (hwait : ∀ left s', Struck left s' → Q (.ok false) s')
    (hstatuses : c.isStored = true → ∀ left s', Struck left s' →
      (Action.store (.statuses a.clientId a.subscriptionName)).run.Ensures E
        (Action.Keeps (Struck left) Q) s')
    (htake : ∀ awaited s', awaited.isEmpty = true → Struck (some awaited) s' →
      (Program.pending (.take a.key)).Ensures E
        (fun taken s'' => match taken with
          | none => Q (.ok false) s''
          | some _ => ∀ statuses,
              (report c a a.eventType statuses).Ensures E (fun _ => Q (.ok true)) s'') s') :
    (answer c a).run.Ensures E Q s := by
  refine ensures_answer_told Struck Struck
    (fun _ s' => ∃ awaited, awaited.isEmpty = true ∧ Struck (some awaited) s') hstrike hsave
    (fun _ _ _ h => h) (fun left s' h _ => hwait left s' h) ?_ ?_ ?_
  · intro awaited s₁ hempty h₁
    exact (ensures_reportedStatuses h₁ fun hstored => hstatuses hstored _ s₁).mono fun
      | .ok _, _, h => ⟨awaited, hempty, h⟩
      | .error _, _, h => h
  · rintro _ s' ⟨awaited, -, h⟩ -
    exact hwait _ s' h
  · rintro statuses s' ⟨awaited, hempty, h⟩ -
    refine (htake awaited s' hempty h).mono ?_
    intro taken s'' h'
    cases taken with
    | none => exact h'
    | some _ => exact h' statuses

/-- The rule for the end of the wait that keeps what the statuses are. `Taken` holds once the entry was taken out. -/
theorem ensures_timeOut_told (Taken : σ → Prop) (Told : List DeviceStatus → σ → Prop)
    (htake : (Program.pending (.take a.key)).Ensures E
      (fun taken s' => match taken with
        | none => Q (.ok false) s'
        | some _ => Taken s') s)
    (htell : ∀ s', Taken s' → (reportedStatuses c a).run.Ensures E (Action.Gives Told Q) s')
    (hreport : ∀ statuses s', Told statuses s' →
      (report c a subscriptionCreated statuses).Ensures E (fun _ => Q (.ok true)) s') :
    (timeOut c a).run.Ensures E Q s := by
  rw [timeOut, Action.ensures_bind, take, Action.run_lift, Program.ensures_bind]
  refine htake.mono ?_
  intro taken s₁ h₁
  rw [Program.ensures_done, Action.goes_ok]
  cases taken with
  | none => exact h₁
  | some _ =>
      dsimp only at h₁ ⊢
      refine Action.ensures_bind_of (htell s₁ h₁) ?_ fun _ _ he => he
      intro statuses s₂ h₂
      rw [Action.ensures_bind, Action.run_lift, Program.ensures_bind]
      exact hreport statuses s₂ h₂

/-- The rule for the end of the wait. `Taken` holds once the entry was taken out. -/
theorem ensures_timeOut (Taken : σ → Prop)
    (htake : (Program.pending (.take a.key)).Ensures E
      (fun taken s' => match taken with
        | none => Q (.ok false) s'
        | some _ => Taken s') s)
    (hstatuses : c.isStored = true → ∀ s', Taken s' →
      (Action.store (.statuses a.clientId a.subscriptionName)).run.Ensures E (Action.Keeps Taken Q) s')
    (hreport : ∀ statuses s', Taken s' →
      (report c a subscriptionCreated statuses).Ensures E (fun _ => Q (.ok true)) s') :
    (timeOut c a).run.Ensures E Q s := by
  refine ensures_timeOut_told Taken (fun _ => Taken) htake ?_ hreport
  intro s₁ h₁
  exact (ensures_reportedStatuses h₁ fun hstored => hstatuses hstored s₁).mono fun
    | .ok _, _, h => h
    | .error _, _, h => h

end Inventory
end CmInventory
