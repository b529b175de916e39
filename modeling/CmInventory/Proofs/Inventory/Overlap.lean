import CmInventory.Proofs.Inventory.Accesses

/-!
# Two changes of one handle at a time

Each change writes the status that it makes of the one it read, as long as the handle is still in the
lifecycle state that it was read in. The other fields may have changed since. So two changes that both
report success leave what they would leave one after the other, unless one of them wrote while the other one
stood between its read and its write, and the other one writes back what it changed
(`overlapping_changes_iff`).
-/

namespace CmInventory

variable {i j : Nat} {xs ys : List Access} {zs : List (Nat × Access)}

/-! ## One change after the other -/

/-- Statuses that are found are the same but for readings of the clock. -/
def SameFound (x y : Except StoreError HandleStatus) : Prop :=
  x.map HandleStatus.timeless = y.map HandleStatus.timeless

namespace Change

variable {a b c : Change} {found last : Except StoreError HandleStatus} {s : HandleStatus}

/-- What one change and then another one make of a status. -/
def bothEffects (a b : Change) (found : Except StoreError HandleStatus) :
    Except StoreError HandleStatus :=
  (found.map (a.effect default)).map (b.effect default)

/-- Whether two changes report success one after the other. -/
def BothAccept (a b : Change) (found : Except StoreError HandleStatus) : Prop :=
  a.Accepts found ∧ b.Accepts (found.map (a.effect default))

/-- The times at which a change is made do not matter. -/
theorem sameFound_effect {x y : Except StoreError HandleStatus} {now later : Instant}
    (h : SameFound x y) : SameFound (x.map (c.effect now)) (y.map (c.effect later)) := by
  cases x with
  | error e =>
      cases y with
      | error e' => exact h
      | ok t => cases h
  | ok s =>
      cases y with
      | error e' => cases h
      | ok t => exact congrArg Except.ok (effect_timeless (Except.ok.inj h))

theorem accepts_timeless {x y : Except StoreError HandleStatus} (h : SameFound x y) :
    c.Accepts x ↔ c.Accepts y := by
  cases x with
  | error e =>
      cases y with
      | error e' =>
          have he : e = e' := Except.error.inj h
          rw [he]
      | ok t => cases h
  | ok s =>
      cases y with
      | error e' => cases h
      | ok t =>
          have hall := HandleStatus.timeless_eq_iff.1 (Except.ok.inj h)
          rcases hall with ⟨hlife, hreason, hsync, -, -⟩
          cases c with
          | move topic snapshot target =>
              have hsame := nextReason_congr snapshot target hlife hreason
              simp [Accepts, hlife, hsame]
          | markSynchronized => simp [Accepts, hlife]
          | setDataSync enabled => simp [Accepts, hlife, hsync]

/-- A change whose accesses come one right after the other does what its effect says. -/
theorem Performed.alone (h : c.Performed xs) (ht : Timeline found xs last) :
    c.Accepts found ∧ ∃ now, last = found.map (c.effect now) := by
  cases h with
  | unseen hnext haccepts =>
      have hlast : last = found := ht
      refine ⟨haccepts found, default, ?_⟩
      rw [hlast]
      cases found with
      | error e => rfl
      | ok s =>
          have heffect : c.effect default s = s := effect_of_none (hnext s)
          simp [Except.map, heffect]
  | @seen s hnext haccepts =>
      rcases ht with ⟨rfl, rfl⟩
      have heffect : c.effect default s = s := effect_of_none hnext
      exact ⟨haccepts, default, by simp [Except.map, heffect]⟩
  | @written s next now hnext =>
      rcases ht with ⟨rfl, -, rfl⟩
      exact ⟨accepts_of_next? hnext, now, by simp [Except.map, effect_of_some hnext]⟩

/-- What is left of two changes that were made one after the other. -/
def InTurn (a b : Change) (found last : Except StoreError HandleStatus) : Prop :=
  BothAccept a b found ∧ SameFound last (bothEffects a b found)

theorem inTurn_of_append (ha : a.Performed xs) (hb : b.Performed ys)
    (ht : Timeline found (xs ++ ys) last) : InTurn a b found last := by
  rcases timeline_append.1 ht with ⟨mid, hfirst, hsecond⟩
  rcases ha.alone hfirst with ⟨haccepts, now, rfl⟩
  rcases hb.alone hsecond with ⟨hbccepts, later, rfl⟩
  refine ⟨⟨haccepts, ?_⟩, sameFound_effect (sameFound_effect rfl)⟩
  exact (accepts_timeless (sameFound_effect rfl)).1 hbccepts

/-! ## One change written over the other -/

/-- What is left when `b` wrote over what `a` wrote since `b` read. Both read the status at the start, and
`a` left the handle in its lifecycle state. -/
def WrittenOver (a b : Change) (found last : Except StoreError HandleStatus) : Prop :=
  ∃ s next next' now later, found = .ok s ∧ a.next? s = some next ∧ b.next? s = some next' ∧
    (next now).lifecycle = s.lifecycle ∧ last = .ok (next' later)

/-- What is left of two changes, depending on how their accesses came. -/
inductive Together (i j : Nat) (a b : Change) (zs : List (Nat × Access))
    (found last : Except StoreError HandleStatus) : Prop
  | inTurn (hno : ¬ WritesWithin i j zs) (hno' : ¬ WritesWithin j i zs)
      (h : InTurn a b found last ∨ InTurn b a found last) : Together i j a b zs found last
  | secondOver (hwithin : WritesWithin i j zs) (hno : ¬ WritesWithin j i zs)
      (h : WrittenOver a b found last) : Together i j a b zs found last
  | firstOver (hwithin : WritesWithin j i zs) (hno : ¬ WritesWithin i j zs)
      (h : WrittenOver b a found last) : Together i j a b zs found last

theorem Together.swap (h : Together i j a b zs found last) : Together j i b a zs found last := by
  cases h with
  | inTurn hno hno' h => exact .inTurn hno' hno h.symm
  | secondOver hwithin hno h => exact .firstOver hwithin hno h
  | firstOver hwithin hno h => exact .secondOver hwithin hno h

theorem together_unseen (hij : i ≠ j) (ha : a.Performed []) (hb : b.Performed ys)
    (hz : Shuffle i j [] ys zs) (ht : Timeline found (zs.map (·.2)) last) :
    Together i j a b zs found last := by
  rcases hz.not_within hij (by simp) with ⟨hno, hno'⟩
  refine .inTurn hno hno' (Or.inl (inTurn_of_append ha hb ?_))
  simpa [hz.eq_of_nil, Function.comp_def] using ht

/-- A change that only reads comes before the other one writes, or after it. -/
theorem together_seen (hij : i ≠ j) (ha : a.Performed [.read s]) (hb : b.Performed ys)
    (hz : Shuffle i j [.read s] ys zs) (ht : Timeline found (zs.map (·.2)) last) :
    Together i j a b zs found last := by
  rcases hz.not_within hij (by simp [Access.isWrite]) with ⟨hno, hno'⟩
  refine .inTurn hno hno' ?_
  have hfirst : Timeline found (.read s :: ys) last → InTurn a b found last ∨ InTurn b a found last :=
    fun h => Or.inl (inTurn_of_append ha hb h)
  have hlast : Timeline found (ys ++ [.read s]) last →
      InTurn a b found last ∨ InTurn b a found last :=
    fun h => Or.inr (inTurn_of_append hb ha h)
  cases hz with
  | left _ hz =>
      refine hfirst ?_
      simpa [hz.eq_of_nil, Function.comp_def] using ht
  -- The other change started first. Its read may be put behind this one, its write may not.
  | right _ hz =>
      cases hb with
      | seen =>
          refine hlast ?_
          simpa [hz.swap.eq_of_nil] using ht
      | written =>
          cases hz with
          | left _ hz =>
              refine hfirst (timeline_read_read.1 ?_)
              simpa [hz.eq_of_nil] using ht
          | right _ hz =>
              refine hlast ?_
              simpa [hz.swap.eq_of_nil] using ht

/-- Two changes that both write, and the first of which reads first. -/
theorem together_written {s t : HandleStatus} {next next' : Instant → HandleStatus}
    {now later : Instant} (hij : i ≠ j) (hnext : a.next? s = some next) (hnext' : b.next? t = some next')
    (hz : Shuffle i j [.write s.lifecycle (next now)] [.read t, .write t.lifecycle (next' later)] zs)
    (ht : Timeline found (.read s :: zs.map (·.2)) last) :
    Together i j a b ((i, .read s) :: zs) found last := by
  cases hz with
  | left _ hz =>
      have hzs := hz.eq_of_nil
      subst hzs
      have hinTurn : InTurn a b found last :=
        inTurn_of_append (.written now hnext) (.written later hnext') ht
      refine .inTurn ?_ ?_ (Or.inl hinTurn) <;>
        simp [WritesWithin, List.sublist_cons_iff, Access.isWrite, hij, hij.symm]
  | right _ hz =>
      cases hz with
      -- Both read before any of them wrote. The one that writes last finds the state that it expects.
      | left _ hz =>
          have hzs := hz.eq_of_nil
          subst hzs
          rcases ht with ⟨rfl, heq, -, ⟨u, hu, hlife⟩, rfl⟩
          cases heq
          cases hu
          refine .secondOver ?_ ?_ ⟨s, next, next', now, later, rfl, hnext, hnext', hlife, rfl⟩ <;>
            simp [WritesWithin, List.sublist_cons_iff, Access.isWrite, hij, hij.symm]
      | right _ hz =>
          have hzs := hz.swap.eq_of_nil
          subst hzs
          rcases ht with ⟨rfl, heq, -, ⟨u, hu, hlife⟩, rfl⟩
          cases heq
          cases hu
          refine .firstOver ?_ ?_ ⟨s, next', next, later, now, rfl, hnext', hnext, hlife, rfl⟩ <;>
            simp [WritesWithin, List.sublist_cons_iff, Access.isWrite, hij, hij.symm]

/-- Either two changes came one after the other, or one wrote within the other. -/
theorem Performed.together (hij : i ≠ j) (ha : a.Performed xs) (hb : b.Performed ys)
    (hz : Shuffle i j xs ys zs) (ht : Timeline found (zs.map (·.2)) last) :
    Together i j a b zs found last := by
  have hji := hij.symm
  cases ha with
  | unseen hnone haccepts => exact together_unseen hij (.unseen hnone haccepts) hb hz ht
  | seen hnone haccepts => exact together_seen hij (.seen hnone haccepts) hb hz ht
  | written now hnext =>
      cases hb with
      | unseen hnone haccepts =>
          exact (together_unseen hji (.unseen hnone haccepts) (.written now hnext) hz.swap ht).swap
      | seen hnone haccepts =>
          exact (together_seen hji (.seen hnone haccepts) (.written now hnext) hz.swap ht).swap
      | written later hnext' =>
          cases hz with
          | left _ hz => exact together_written hij hnext hnext' hz ht
          | right _ hz => exact (together_written hji hnext' hnext hz.swap ht).swap

/-- Whether a change notes that the data are in step, and another one switches data synchronization. -/
def Restores (later earlier : Change) : Prop :=
  later = .markSynchronized ∧ ∃ enabled, earlier = .setDataSync enabled

/-- Whether a change that was written over another change of a status leaves nothing of what the other one
changed. A switch of data synchronization starts the synchronization over, and what a move to another state
says of the data is what was read. -/
def Undoes (later earlier : Change) (s : HandleStatus) : Prop :=
  match later, earlier with
  | .markSynchronized, .setDataSync _ | .move .., .setDataSync _ => True
  | .move .., .markSynchronized => s.syncState ≠ .synchronized ∨ s.operational.lastSync = none
  | _, _ => False

/-- Only changes of ready handles leave a handle in its lifecycle state. -/
theorem ready_of_kept {next : Instant → HandleStatus} {now : Instant} (hnext : a.next? s = some next)
    (hkept : (next now).lifecycle = s.lifecycle) :
    s.lifecycle = .ready ∧ ((a = .markSynchronized ∧ next = s.markSynchronized) ∨
      ∃ enabled, a = .setDataSync enabled ∧ s.dataSync ≠ enabled ∧ next = s.setDataSync enabled) := by
  cases a with
  | move topic snapshot target =>
      rw [next?] at hnext
      split at hnext
      · cases hnext
      · rename_i hstay
        rcases Option.map_eq_some_iff.1 hnext with ⟨reason, -, rfl⟩
        exact (hstay (Or.inr (Or.inl hkept.symm))).elim
  | markSynchronized =>
      rw [next?] at hnext
      split at hnext
      · rename_i hready
        exact ⟨hready, Or.inl ⟨rfl, (Option.some.inj hnext).symm⟩⟩
      · cases hnext
  | setDataSync enabled =>
      rw [next?] at hnext
      split at hnext
      · cases hnext
      · rename_i hstay
        rcases not_or.1 hstay with ⟨hdiffers, hready⟩
        exact ⟨not_not.1 hready, Or.inr ⟨enabled, rfl, hdiffers, (Option.some.inj hnext).symm⟩⟩

/-- A move is made alike of statuses with the same state and reason. -/
theorem move_alike {topic : String} {snapshot : Handle} {target : Lifecycle} {t : HandleStatus}
    {next : Instant → HandleStatus} (hnext : (move topic snapshot target).next? s = some next)
    (hlife : t.lifecycle = s.lifecycle) (hreason : t.lockReason = s.lockReason) :
    ∃ reason, s.lifecycle ≠ target ∧ next = Inventory.nextStatus s target reason ∧
      (move topic snapshot target).next? t = some (Inventory.nextStatus t target reason) := by
  rw [next?] at hnext
  split at hnext
  · cases hnext
  · rename_i hstay
    rcases Option.map_eq_some_iff.1 hnext with ⟨reason, hoption, rfl⟩
    simp only [not_or, Bool.not_eq_false] at hstay
    rcases hstay with ⟨hdeleted, hne, hcan⟩
    refine ⟨reason, hne, rfl, next?_move topic hdeleted (by rwa [hlife]) (by rwa [hlife]) ?_⟩
    rw [nextReason_congr snapshot target hlife hreason]
    exact hoption

section

variable {next next' : Instant → HandleStatus} {now later : Instant} (hnext : a.next? s = some next)
  (hnext' : b.next? s = some next') (hkept : (next now).lifecycle = s.lifecycle)

include hnext hnext' hkept

/-- What the later change writes is what both leave in turn, unless it undoes the earlier one. -/
theorem written_eq_iff :
    (next' later).timeless = (b.effect default (a.effect default s)).timeless ↔ ¬ b.Undoes a s := by
  rcases ready_of_kept hnext hkept with ⟨hready, ⟨rfl, rfl⟩ | ⟨enabled, rfl, hdiffers, rfl⟩⟩
  · rw [effect_of_some hnext]
    cases b with
    | move topic snapshot target =>
        have halike := move_alike (t := s.markSynchronized default) hnext' rfl rfl
        rcases halike with ⟨reason, hne, rfl, hagain⟩
        have htarget : target ≠ .ready := fun h => hne (hready.trans h.symm)
        rw [effect_of_some hagain, HandleStatus.timeless_eq_iff]
        simp [Undoes, Inventory.nextStatus, htarget, HandleStatus.markSynchronized,
          HandleStatus.syncState, ← Option.isSome_iff_ne_none]
    | markSynchronized =>
        have hagain : markSynchronized.next? (s.markSynchronized default) =
            some (s.markSynchronized default).markSynchronized := if_pos hready
        rw [next?, if_pos hready] at hnext'
        cases hnext'
        rw [effect_of_some hagain, HandleStatus.timeless_eq_iff]
        simp [Undoes, HandleStatus.markSynchronized]
    | setDataSync other =>
        rw [next?] at hnext'
        split at hnext'
        · cases hnext'
        · rename_i hstay
          cases hnext'
          have hagain : (setDataSync other).next? (s.markSynchronized default) =
              some ((s.markSynchronized default).setDataSync other) := if_neg hstay
          rw [effect_of_some hagain, HandleStatus.timeless_eq_iff]
          simp [Undoes, HandleStatus.markSynchronized, HandleStatus.setDataSync]
  · rw [effect_of_some hnext]
    cases b with
    | move topic snapshot target =>
        have halike := move_alike (t := s.setDataSync enabled default) hnext' rfl rfl
        rcases halike with ⟨reason, hne, rfl, hagain⟩
        rw [effect_of_some hagain, HandleStatus.timeless_eq_iff]
        simp [Undoes, Inventory.nextStatus, HandleStatus.setDataSync, hdiffers]
    | markSynchronized =>
        have hagain : markSynchronized.next? (s.setDataSync enabled default) =
            some (s.setDataSync enabled default).markSynchronized := if_pos hready
        rw [next?, if_pos hready] at hnext'
        cases hnext'
        rw [effect_of_some hagain, HandleStatus.timeless_eq_iff]
        simp [Undoes, HandleStatus.markSynchronized, HandleStatus.setDataSync, hdiffers]
    | setDataSync other =>
        rw [next?] at hnext'
        split at hnext'
        · cases hnext'
        · rename_i hstay
          cases hnext'
          -- There are only two ways to switch, so that both changes switch alike.
          have hother : s.dataSync ≠ other := fun h => hstay (Or.inl h)
          have hsame : enabled = other :=
            Bool.not_inj ((Bool.eq_not.2 hdiffers).symm.trans (Bool.eq_not.2 hother))
          subst hsame
          have hagain : (setDataSync enabled).next? (s.setDataSync enabled default) = none :=
            if_pos (Or.inl rfl)
          rw [effect_of_none hagain, HandleStatus.timeless_eq_iff]
          simp [Undoes, HandleStatus.setDataSync]

/-- Both changes report success in turn. -/
theorem bothAccept_of_written : BothAccept a b (.ok s) := by
  refine ⟨accepts_of_next? hnext, ?_⟩
  change b.Accepts (.ok (a.effect default s))
  rcases ready_of_kept hnext hkept with ⟨hready, hkind⟩
  have heffect : (a.effect default s).lifecycle = .ready ∧
      (a.effect default s).lockReason = s.lockReason := by
    rw [effect_of_some hnext]
    rcases hkind with ⟨rfl, rfl⟩ | ⟨enabled, rfl, -, rfl⟩
    · exact ⟨hready, rfl⟩
    · exact ⟨hready, rfl⟩
  rcases heffect with ⟨hlife, hreason⟩
  cases b with
  | move topic snapshot target =>
      rcases move_alike hnext' (hlife.trans hready.symm) hreason with ⟨reason, -, -, hagain⟩
      exact accepts_of_next? hagain
  | markSynchronized => exact ⟨_, rfl, hlife⟩
  | setDataSync other => exact ⟨_, rfl, Or.inr hlife⟩

/-- What a move writes over another change is also what the other change leaves of it, which then fails. -/
theorem written_eq_of_move (hmove : ∃ topic snapshot target, b = .move topic snapshot target) :
    (∀ later, (next' later).timeless = (a.effect default (b.effect default s)).timeless) ∧
      ¬ a.Accepts (.ok (b.effect default s)) := by
  rcases hmove with ⟨topic, snapshot, target, rfl⟩
  rcases ready_of_kept hnext hkept with ⟨hready, hkind⟩
  rcases move_alike hnext' rfl rfl with ⟨reason, hne, rfl, -⟩
  have htarget : target ≠ .ready := fun h => hne (hready.trans h.symm)
  -- After the move the handle is not ready any more, and the other change is refused.
  have hstay : a.next? (Inventory.nextStatus s target reason default) = none ∧
      ¬ a.Accepts (.ok (Inventory.nextStatus s target reason default)) := by
    rcases hkind with ⟨rfl, -⟩ | ⟨enabled, rfl, hdiffers, -⟩
    · simp [next?, Accepts, Inventory.nextStatus, htarget]
    · simp [next?, Accepts, Inventory.nextStatus, htarget, hdiffers]
  rw [effect_of_some hnext', effect_of_none hstay.1]
  refine ⟨?_, hstay.2⟩
  intro later
  rw [HandleStatus.timeless_eq_iff]
  exact ⟨rfl, rfl, rfl, rfl, rfl⟩

/-- A note that the data are in step brings back what a switch of data synchronization had changed. -/
theorem written_ne_of_note (hnote : b.Restores a) :
    (next' later).timeless ≠ (a.effect default (b.effect default s)).timeless := by
  rcases hnote with ⟨rfl, enabled, rfl⟩
  rcases ready_of_kept hnext hkept with ⟨hready, ⟨heq, -⟩ | ⟨other, heq, hdiffers, -⟩⟩
  · cases heq
  cases heq
  have hagain : (setDataSync enabled).next? (s.markSynchronized default) =
      some ((s.markSynchronized default).setDataSync enabled) := by
    refine if_neg ?_
    rintro (hsame | hne)
    · exact hdiffers hsame
    · exact hne hready
  rw [next?, if_pos hready] at hnext'
  cases hnext'
  have heffect : markSynchronized.effect default s = s.markSynchronized default :=
    effect_of_some (if_pos hready)
  rw [heffect, effect_of_some hagain, ne_eq, HandleStatus.timeless_eq_iff]
  rintro ⟨-, -, hsync, -⟩
  exact hdiffers hsync

end

/-- The changes that undo another one. -/
theorem Undoes.kind (h : b.Undoes a s) :
    (∃ topic snapshot target, b = .move topic snapshot target) ∨ b.Restores a := by
  cases b with
  | move topic snapshot target => exact Or.inl ⟨topic, snapshot, target, rfl⟩
  | markSynchronized =>
      cases a with
      | setDataSync enabled => exact Or.inr ⟨rfl, enabled, rfl⟩
      | _ => exact h.elim
  | setDataSync other => cases a <;> exact h.elim

/-- The status is one that both orders leave, unless a note that the data are in step was written over a
switch of data synchronization. -/
theorem WrittenOver.sameFound_iff (h : WrittenOver a b found last) :
    (SameFound last (bothEffects a b found) ∨ SameFound last (bothEffects b a found)) ↔
      ¬ b.Restores a := by
  rcases h with ⟨s, next, next', now, later, rfl, hnext, hnext', hkept, rfl⟩
  have hinOrder : (next' later).timeless = (b.effect default (a.effect default s)).timeless ↔
      ¬ b.Undoes a s := written_eq_iff hnext hnext' hkept
  constructor
  · rintro hsame hnote
    rcases hsame with hsame | hsame
    · refine hinOrder.1 (Except.ok.inj hsame) ?_
      rcases hnote with ⟨rfl, enabled, rfl⟩
      exact trivial
    · exact written_ne_of_note hnext hnext' hkept hnote (Except.ok.inj hsame)
  · intro hnote
    by_cases hundoes : b.Undoes a s
    · have hmove := hundoes.kind.resolve_right hnote
      exact Or.inr (congrArg Except.ok ((written_eq_of_move hnext hnext' hkept hmove).1 later))
    · exact Or.inl (congrArg Except.ok (hinOrder.2 hundoes))

/-- The status is one that is left by the two orders in which both succeed, unless the later change undid
the earlier one. -/
theorem WrittenOver.inTurn_iff (h : WrittenOver a b found last) :
    (InTurn a b found last ∨ InTurn b a found last) ↔
      ¬ ∃ s, found = .ok s ∧ b.Undoes a s := by
  rcases h with ⟨s, next, next', now, later, rfl, hnext, hnext', hkept, rfl⟩
  have hinOrder : (next' later).timeless = (b.effect default (a.effect default s)).timeless ↔
      ¬ b.Undoes a s := written_eq_iff hnext hnext' hkept
  constructor
  · rintro hturn ⟨t, ht, hundoes⟩
    cases ht
    rcases hturn with ⟨-, hsame⟩ | ⟨⟨-, haccepts⟩, hsame⟩
    · exact hinOrder.1 (Except.ok.inj hsame) hundoes
    · rcases hundoes.kind with hmove | hnote
      · exact (written_eq_of_move hnext hnext' hkept hmove).2 haccepts
      · exact written_ne_of_note hnext hnext' hkept hnote (Except.ok.inj hsame)
  · intro hno
    have hundoes : ¬ b.Undoes a s := fun hundoes => hno ⟨s, rfl, hundoes⟩
    exact Or.inl ⟨bothAccept_of_written hnext hnext' hkept, congrArg Except.ok (hinOrder.2 hundoes)⟩

end Change

/-! ## Overlapping changes -/

/-- The results of two changes that are made one after the other, and the world after them. -/
def World.afterBoth (c : Circumstances) (id : HandleId) (first second : Change) (w : World) :
    (Operation.Result × Operation.Result) × World :=
  Program.run (World.reply c)
    (do
      let one ← (first.operation id).program
      let other ← (second.operation id).program
      return (one, other)) w

/-- Two worlds in which a handle has the same status but for readings of the clock. -/
def World.SameStatus (id : HandleId) (w w' : World) : Prop :=
  SameFound (w.store.status id) (w'.store.status id)

/-- Whether two changes both report success when they are made one after the other, and leave the status that
a handle has in another world. -/
def World.SucceedInTurn (c : Circumstances) (id : HandleId) (first second : Change) (w w' : World) :
    Prop :=
  ((w.afterBoth c id first second).1.1.isSuccess = true ∧
      (w.afterBoth c id first second).1.2.isSuccess = true) ∧
    w'.SameStatus id (w.afterBoth c id first second).2

variable {c : Circumstances} {id : HandleId} {a b : Change} {w₀ w : World}

/-- What two changes leave that are made one after the other. -/
theorem World.afterBoth_spec (hc : ∀ n call, c.storeFailure n call = none) (hs : w₀.store.Sound) :
    ((w₀.afterBoth c id a b).1.1.isSuccess = true ∧ (w₀.afterBoth c id a b).1.2.isSuccess = true ↔
        Change.BothAccept a b (w₀.store.status id)) ∧
      SameFound ((w₀.afterBoth c id a b).2.store.status id)
        (Change.bothEffects a b (w₀.store.status id)) := by
  refine World.run_of_ensures (Q := fun (results : Operation.Result × Operation.Result) w =>
    (results.1.isSuccess = true ∧ results.2.isSuccess = true ↔
        Change.BothAccept a b (w₀.store.status id)) ∧
      SameFound (w.store.status id) (Change.bothEffects a b (w₀.store.status id))) ?_ ?_
  · intro n call e hfails
    rw [hc] at hfails
    cases hfails
  · refine (Inventory.ensures_done hs).bind ?_
    intro one w₁ hone
    refine (Inventory.ensures_done hone.sound).bind ?_
    intro other w₂ hother
    rcases hone.status with ⟨now, hfirst⟩
    rcases hother.status with ⟨later, hsecond⟩
    rw [Program.pure_eq, Program.ensures_done, hsecond, hfirst]
    refine ⟨?_, Change.sameFound_effect (Change.sameFound_effect rfl)⟩
    rw [hone.success_iff, hother.success_iff, hfirst, Change.BothAccept]
    exact and_congr_right fun _ => Change.accepts_timeless (Change.sameFound_effect rfl)

/-- What is left of two changes that report success, depending on how their accesses came. -/
theorem together_of_interleaved {turns : List (Turn World)} {ra rb : Operation.Result}
    (hs : w₀.store.Sound)
    (h : Interleaved (World.Answers fun _ => True)
      [(a.operation id).program, (b.operation id).program] w₀ turns [.done ra, .done rb] w)
    (ha : ra.isSuccess = true) (hb : rb.isSuccess = true) :
    Change.Together 0 1 a b (accesses id turns) (w₀.store.status id) (w.store.status id) := by
  have hprograms : ∀ i (p : Program Operation.Result),
      [(a.operation id).program, (b.operation id).program][i]? = some p →
        p.Ensures (watching id).own (fun result acts => result.isSuccess = true →
          (if i = 0 then a else b).Performed acts) (watching id).start := by
    intro i p hp
    match i with
    | 0 =>
        cases hp
        exact Inventory.watched_change
    | 1 =>
        cases hp
        exact Inventory.watched_change
    | i + 2 => cases hp
  rcases h.kept hs hprograms with ⟨-, hfollows, -, hends⟩
  have hfirst : a.Performed ((watching id).view (turnsOf 0 turns)) := hends 0 _ rfl ha
  have hsecond : b.Performed ((watching id).view (turnsOf 1 turns)) := hends 1 _ rfl hb
  exact Change.Performed.together Nat.zero_ne_one hfirst hsecond (shuffle_accesses h.member_lt.2)
    (h.timeline hfollows)

/-- Two changes of one handle overlap in any way, and both report success. The handle has a status that the
changes made one after the other would leave, unless one of them is a switch of data synchronization that
was written between the read and the write of a note that the data are in step. It has a status that they
would leave in an order in which both succeed, unless a change was written between the read and the write
of another one that undoes it. -/
theorem overlapping_changes_iff {turns : List (Turn World)} {ra rb : Operation.Result}
    (hc : ∀ n call, c.storeFailure n call = none) (hs : w₀.store.Sound)
    (h : Interleaved (World.Answers fun _ => True)
      [(a.operation id).program, (b.operation id).program] w₀ turns [.done ra, .done rb] w)
    (ha : ra.isSuccess = true) (hb : rb.isSuccess = true) :
    (w.SameStatus id (w₀.afterBoth c id a b).2 ∨ w.SameStatus id (w₀.afterBoth c id b a).2 ↔
      ¬ (WritesWithin 0 1 (accesses id turns) ∧ b.Restores a ∨
        WritesWithin 1 0 (accesses id turns) ∧ a.Restores b)) ∧
    (w₀.SucceedInTurn c id a b w ∨ w₀.SucceedInTurn c id b a w ↔
      ¬ (WritesWithin 0 1 (accesses id turns) ∧ (∃ s, w₀.store.status id = .ok s ∧ b.Undoes a s) ∨
        WritesWithin 1 0 (accesses id turns) ∧ ∃ s, w₀.store.status id = .ok s ∧ a.Undoes b s)) := by
  have htogether := together_of_interleaved hs h ha hb
  have hsame : ∀ {first second}, w.SameStatus id (w₀.afterBoth c id first second).2 ↔
      SameFound (w.store.status id) (Change.bothEffects first second (w₀.store.status id)) := by
    intro first second
    have hspec := (@World.afterBoth_spec c id first second w₀ hc hs).2
    exact ⟨fun h => h.trans hspec, fun h => h.trans hspec.symm⟩
  have hturn : ∀ {first second}, w₀.SucceedInTurn c id first second w ↔
      Change.InTurn first second (w₀.store.status id) (w.store.status id) := by
    intro first second
    have hspec := (@World.afterBoth_spec c id first second w₀ hc hs).1
    exact and_congr hspec hsame
  -- From here on only the statuses at the start and at the end matter.
  rw [hsame, hsame, hturn, hturn]
  cases htogether with
  | inTurn hno hno' hin =>
      refine ⟨iff_of_true (hin.imp And.right And.right) ?_, iff_of_true hin ?_⟩
      · rintro (⟨hwithin, -⟩ | ⟨hwithin, -⟩)
        · exact hno hwithin
        · exact hno' hwithin
      · rintro (⟨hwithin, -⟩ | ⟨hwithin, -⟩)
        · exact hno hwithin
        · exact hno' hwithin
  | secondOver hwithin hno hover =>
      simp only [hwithin, hno, true_and, false_and, or_false]
      exact ⟨hover.sameFound_iff, hover.inTurn_iff⟩
  | firstOver hwithin hno hover =>
      simp only [hwithin, hno, true_and, false_and, false_or]
      exact ⟨or_comm.trans hover.sameFound_iff, or_comm.trans hover.inTurn_iff⟩

/-! ## A switch that is lost -/

/-- A ready handle whose data are to be synchronized. -/
def syncingHandle : Handle :=
  { (default : Handle) with
    id := ⟨"a"⟩
    status :=
      { (default : HandleStatus) with
        lifecycle := .ready
        dataSync := true
        operational := .initial true } }

/-- The handle once data synchronization is switched off. -/
def switchedHandle : Handle :=
  { syncingHandle with status := syncingHandle.status.setDataSync false default }

/-- The handle once its data are noted to be in step. -/
def notedHandle : Handle :=
  { syncingHandle with status := syncingHandle.status.markSynchronized default }

/-- A world with that handle in its store. -/
def syncingWorld : World :=
  { World.empty with store := Store.empty.putHandle syncingHandle }

/-- Between the read and the write of a note that the data are in step, data synchronization is switched
off. Both report success, and it is on. -/
theorem overlapping_changes_lose_switch :
    ∃ turns ra rb w,
      Interleaved (World.Answers fun _ => True)
        [(Change.markSynchronized.operation ⟨"a"⟩).program,
          ((Change.setDataSync false).operation ⟨"a"⟩).program] syncingWorld turns
        [.done ra, .done rb] w ∧
      ra.isSuccess = true ∧ rb.isSuccess = true ∧
      w.store.status ⟨"a"⟩ = .ok notedHandle.status ∧ notedHandle.status.dataSync = true ∧
      ¬ (w.SameStatus ⟨"a"⟩
          (syncingWorld.afterBoth World.undisturbed ⟨"a"⟩ .markSynchronized (.setDataSync false)).2 ∨
        w.SameStatus ⟨"a"⟩
          (syncingWorld.afterBoth World.undisturbed ⟨"a"⟩ (.setDataSync false) .markSynchronized).2) := by
  have hs₀ : syncingWorld.store.Sound := Store.sound_empty.putHandle syncingHandle
  have hs₁ : (syncingWorld.store.putHandle switchedHandle).Sound := hs₀.putHandle switchedHandle
  have hr₀ : syncingWorld.store.record? ⟨"a"⟩ = some syncingHandle :=
    (Store.record?_putHandle _ _ _).trans (if_pos rfl)
  have hr₁ : (syncingWorld.store.putHandle switchedHandle).record? ⟨"a"⟩ = some switchedHandle :=
    (Store.record?_putHandle _ _ _).trans (if_pos rfl)
  have hread : syncingWorld.store.perform (.status ⟨"a"⟩) =
      (.ok syncingHandle.status, syncingWorld.store) := by
    rw [Store.perform, hs₀.status_eq, hr₀]
  have hswitch : syncingWorld.store.perform (.saveStatusIf ⟨"a"⟩ .ready switchedHandle.status) =
      (.ok true, syncingWorld.store.putHandle switchedHandle) := by
    rw [Store.perform, hs₀.replaceStatus_eq, hr₀]
    rfl
  have hnote : (syncingWorld.store.putHandle switchedHandle).perform
      (.saveStatusIf ⟨"a"⟩ .ready notedHandle.status) =
      (.ok true, (syncingWorld.store.putHandle switchedHandle).putHandle notedHandle) := by
    rw [Store.perform, hs₁.replaceStatus_eq, hr₁]
    rfl
  have h₀ := @Interleaved.start _ _ (World.Answers fun _ => True)
    [(Change.markSynchronized.operation ⟨"a"⟩).program,
      ((Change.setDataSync false).operation ⟨"a"⟩).program] syncingWorld
  have h₁ := h₀.snoc 0 rfl (World.answers_store _ _ hread)
  have h₂ := h₁.snoc 1 rfl (World.answers_store _ _ hread)
  have h₃ := h₂.snoc 1 rfl (World.answers_undisturbed _ .now _)
  have h₄ := h₃.snoc 1 rfl (World.answers_store _ _ hswitch)
  have h₅ := h₄.snoc 0 rfl (World.answers_undisturbed _ .now _)
  have h₆ := h₅.snoc 0 rfl (World.answers_store _ _ hnote)
  have hcalm : ∀ n call, World.undisturbed.storeFailure n call = none := fun _ _ => rfl
  have hiff := (overlapping_changes_iff hcalm hs₀ h₆ rfl rfl).1
  refine ⟨_, _, _, _, h₆, rfl, rfl, ?_, rfl, ?_⟩
  · exact (hs₁.status_putHandle notedHandle ⟨"a"⟩).trans (if_pos rfl)
  · rw [hiff, not_not]
    refine Or.inr ⟨?_, rfl, false, rfl⟩
    simp [accesses, accessOf, WritesWithin, Access.isWrite]

end CmInventory
