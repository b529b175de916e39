import CmInventory.Proofs.Inventory.Demands
import CmInventory.Proofs.Program.Logged
import CmInventory.Proofs.Program.Recorded

/-!
# Marking handles for deletion

Before handles are deleted they are moved to deleting. Any call of the store may fail while this is done, and
what fails for one handle does not keep the others from being moved. Of one handle it matters in which state
it is, what its events tell, and how often it failed to be moved (`Seen`). An entry of the batch comes to one
of four ends for its own handle (`MarkOutcome`) and leaves all other handles as they are; from this follows what
a whole batch makes of a handle (`MarkedSoFar`), and of which handles there is a snapshot in the end
(`ensures_markDeleting_of`).
-/

namespace CmInventory

/-- The moves that the events of a handle tell of, in their order. -/
def stagesOf (id : HandleId) (events : List Published) : List (Option Lifecycle × Lifecycle) :=
  (movesOf id events).map fun e => (e.oldState, e.newState)

theorem stagesOf_snoc (id : HandleId) (events : List Published) (topic key : String)
    (e : LifecycleEvent) :
    stagesOf id (events ++ [⟨topic, key, .lifecycle e⟩]) =
      stagesOf id events ++ if e.handleId = id then [(e.oldState, e.newState)] else [] := by
  rw [stagesOf, movesOf_append, movesOf_lifecycle, List.map_append]
  split <;> rfl

/-- An event of another handle adds nothing. -/
theorem stagesOf_snoc_other {id other : HandleId} {events : List Published} {p : Published}
    (hp : p.IsOf other) (hne : other ≠ id) : stagesOf id (events ++ [p]) = stagesOf id events := by
  rcases p with ⟨topic, key, event⟩
  rcases hp with ⟨e, rfl, rfl⟩
  rw [stagesOf_snoc, if_neg hne, List.append_nil]

/-- Whether a call failed that reads or writes the status of a handle in order to move it. -/
def Exchange.failsToMove (id : HandleId) : Exchange → Bool
  | ⟨.store (.status i), .error _⟩ | ⟨.store (.saveStatusIf i _ _), .error _⟩ => i = id
  | _ => false

/-- How often a handle failed to be moved in turns. -/
def failedMoves (id : HandleId) (turns : List (Turn World)) : Nat :=
  turns.countP fun t => t.exchange.failsToMove id

/-- The setting of one member in which every call of the store may fail. -/
abbrev Setting.faulty : Setting (Logged World) :=
  .logged (World.Answers fun _ => True)

/-! ## One handle -/

/-- What is seen of a stored handle: its state, the moves that were told, and how often it failed to be
moved. In all turns so far the handle was stored. -/
structure Seen (id : HandleId) (state : Lifecycle) (stages : List (Option Lifecycle × Lifecycle))
    (failures : Nat) (s : Logged World) : Prop where
  sound : s.1.store.Sound
  state : s.1.store.lifecycle? id = some state
  stages : stagesOf id s.1.published = stages
  failures : failedMoves id s.2 = failures
  stored : ∀ t ∈ s.2, t.before.store.lifecycle? id ≠ none ∧ t.after.store.lifecycle? id ≠ none

section

variable {id : HandleId} {state : Lifecycle} {stages : List (Option Lifecycle × Lifecycle)}
  {failures : Nat} {s : Logged World}

theorem Seen.turn (h : Seen id state stages failures s) {r : Request} {reply : r.Reply} {w : World}
    {state' : Lifecycle} {stages' : List (Option Lifecycle × Lifecycle)}
    (hans : World.Answers (fun _ => True) r s.1 reply w) (hstate : w.store.lifecycle? id = some state')
    (hstages : stagesOf id w.published = stages') :
    Seen id state' stages'
      (failures + if (⟨r, reply⟩ : Exchange).failsToMove id then 1 else 0)
      (w, s.2 ++ [⟨0, r, reply, s.1, w⟩]) := by
  refine ⟨hans.sound h.sound, hstate, hstages, ?_, ?_⟩
  · rw [failedMoves, List.countP_append, List.countP_singleton, ← h.failures]
    rfl
  · intro t ht
    rcases List.mem_append.1 ht with ht | ht
    · exact h.stored t ht
    · rw [List.mem_singleton.1 ht, h.state, hstate]
      simp

/-- A turn that does not touch a handle leaves it as it is seen. -/
theorem Seen.idle (h : Seen id state stages failures s) {r : Request} {reply : r.Reply} {w : World}
    (hans : World.Answers (fun _ => True) r s.1 reply w)
    (hstate : w.store.lifecycle? id = s.1.store.lifecycle? id)
    (hstages : stagesOf id w.published = stagesOf id s.1.published)
    (hfails : (⟨r, reply⟩ : Exchange).failsToMove id = false) :
    Seen id state stages failures (w, s.2 ++ [⟨0, r, reply, s.1, w⟩]) := by
  have hturn := h.turn hans (hstate.trans h.state) (hstages.trans h.stages)
  rw [hfails] at hturn
  exact hturn

theorem seen_quiet {r : Request} {Q : r.Reply → Logged World → Prop}
    (h : Seen id state stages failures s) (hr : r.IsQuiet)
    (hQ : ∀ reply s', Seen id state stages failures s' → Q reply s') :
    (Program.request r).Ensures .faulty Q s := by
  refine logged_request fun reply w hans => hQ reply _ ?_
  rcases World.Answers.quiet hr hans with ⟨hstore, hpublished⟩
  refine h.idle hans (by rw [hstore]) (by rw [hpublished]) ?_
  cases r with
  | store call => exact hr.elim
  | _ => rfl

theorem seen_status {Q : Except StoreError HandleStatus → Logged World → Prop}
    (h : Seen id state stages failures s)
    (hfailed : ∀ e s', Seen id state stages (failures + 1) s' → Q (.error e) s')
    (hread : ∀ status s', status.lifecycle = state → Seen id state stages failures s' →
      Q (.ok status) s') :
    (Program.store (.status id)).Ensures .faulty Q s := by
  refine logged_request fun reply w hans => ?_
  rcases World.Answers.store hans with ⟨hpublished, ⟨e, -, rfl, hstore⟩ | hperform⟩
  · have hturn := h.turn hans (by rw [hstore, h.state]) (by rw [hpublished, h.stages])
    simp only [Exchange.failsToMove, decide_true, if_true] at hturn
    exact hfailed e _ hturn
  · rcases Prod.mk.inj hperform with ⟨hreply, hstore⟩
    rw [h.sound.status_eq] at hreply
    have hstate := h.state
    rw [Store.lifecycle?] at hstate
    rcases Option.map_eq_some_iff.1 hstate with ⟨g, hg, hlife⟩
    rw [hg] at hreply
    subst hreply
    have hsame : w.store = s.1.store := hstore
    exact hread g.status _ hlife (h.idle hans (by rw [hsame]) (by rw [hpublished]) rfl)

/-- The status of a handle that is in the expected state is written, unless the call fails. -/
theorem seen_write {status : HandleStatus} {Q : Except StoreError Bool → Logged World → Prop}
    (h : Seen id state stages failures s)
    (hfailed : ∀ e s', Seen id state stages (failures + 1) s' → Q (.error e) s')
    (hwritten : ∀ s', Seen id status.lifecycle stages failures s' → Q (.ok true) s') :
    (Program.store (.saveStatusIf id state status)).Ensures .faulty Q s := by
  refine logged_request fun reply w hans => ?_
  rcases World.Answers.store hans with ⟨hpublished, ⟨e, -, rfl, hstore⟩ | hperform⟩
  · have hturn := h.turn hans (by rw [hstore, h.state]) (by rw [hpublished, h.stages])
    simp only [Exchange.failsToMove, decide_true, if_true] at hturn
    exact hfailed e _ hturn
  · have hstate := h.state
    rw [Store.lifecycle?] at hstate
    rcases Option.map_eq_some_iff.1 hstate with ⟨g, hg, hlife⟩
    rw [Store.perform, h.sound.replaceStatus_eq, hg] at hperform
    simp only [hlife, if_true] at hperform
    rcases Prod.mk.inj hperform with ⟨rfl, hstore⟩
    have hafter : w.store.lifecycle? id = some status.lifecycle := by
      rw [hstore, Inventory.lifecycle?_putHandle_status h.sound hg, if_pos rfl]
    have hturn := h.turn hans hafter (hpublished ▸ h.stages)
    exact hwritten _ hturn

theorem seen_announce {topic : String} {new : Lifecycle} {old : Option Lifecycle}
    {Q : Unit → Logged World → Prop} (h : Seen id state stages failures s)
    (hQ : ∀ s', Seen id state (stages ++ [(old, new)]) failures s' → Q () s') :
    (Inventory.announce topic id old new).Ensures .faulty Q s := by
  refine Inventory.ensures_announce_iff.2 (seen_quiet h trivial fun eventId s₁ h₁ => ?_)
  refine seen_quiet h₁ trivial fun now s₂ h₂ => ?_
  refine logged_request fun reply w hans => hQ _ ?_
  rcases World.Answers.publish hans with ⟨hstore, hpublished⟩
  refine h₂.turn hans (by rw [hstore, h₂.state]) ?_
  rw [hpublished, stagesOf_snoc, if_pos rfl, h₂.stages]

/-! ## Work on other handles -/

/-- Work on another handle leaves a handle as it is seen. -/
theorem Seen.of_worksOn (h : Seen id state stages failures s) {kind : SyncKind} {other : HandleId}
    {r : Request} {reply : r.Reply} {w : World} (hr : r.WorksOn kind other) (hne : other ≠ id)
    (hans : World.Answers (fun _ => True) r s.1 reply w) :
    Seen id state stages failures (w, s.2 ++ [⟨0, r, reply, s.1, w⟩]) := by
  have hcall : ∀ {call : StoreCall} {answer : Except StoreError call.Answer},
      World.Answers (fun _ => True) (.store call) s.1 answer w →
      ((s.1.store.perform call).2.lifecycle? id = s.1.store.lifecycle? id) →
        w.store.lifecycle? id = s.1.store.lifecycle? id ∧
          stagesOf id w.published = stagesOf id s.1.published := by
    intro call answer hans hperformed
    rcases World.Answers.store hans with ⟨hpublished, ⟨e, -, -, hstore⟩ | hperform⟩
    · exact ⟨by rw [hstore], by rw [hpublished]⟩
    · have hstore : w.store = (s.1.store.perform call).2 := (Prod.ext_iff.1 hperform).2
      exact ⟨by rw [hstore, hperformed], by rw [hpublished]⟩
  cases r with
  | store call =>
      have hsame : (s.1.store.perform call).2.lifecycle? id = s.1.store.lifecycle? id := by
        cases call with
        | saveStatusIf i expected status =>
            obtain rfl : i = other := hr
            have hperform := Prod.eta (s.1.store.perform (.saveStatusIf i expected status))
            have hrecord := h.sound.record?_of_saveStatusIf hperform fun heq => absurd heq hne
            rw [Store.lifecycle?, Store.lifecycle?, hrecord]
        | status i => rfl
        | saveData i data => rfl
        | saveModules i modules => rfl
        | _ => exact hr.elim
      rcases hcall hans hsame with ⟨hstate, hstages⟩
      refine h.idle hans hstate hstages ?_
      cases call with
      | status i =>
          obtain rfl : i = other := hr
          cases reply with
          | error e => exact decide_eq_false hne
          | ok status => rfl
      | saveStatusIf i expected status =>
          obtain rfl : i = other := hr
          cases reply with
          | error e => exact decide_eq_false hne
          | ok written => rfl
      | _ => rfl
  | publish p =>
      rcases World.Answers.publish hans with ⟨hstore, hpublished⟩
      refine h.idle hans (by rw [hstore]) ?_ rfl
      rw [hpublished, stagesOf_snoc_other hr hne]
  | mark k i owner life => exact hr.elim
  | unmark k i => exact hr.elim
  | pending call => exact hr.elim
  | _ =>
      rcases World.Answers.quiet (by trivial) hans with ⟨hstore, hpublished⟩
      exact h.idle hans (by rw [hstore]) (by rw [hpublished]) rfl

/-! ## Entries -/

/-- What an entry of a batch comes to for its own handle, and whether that is deleting afterwards. -/
inductive MarkOutcome (id : HandleId) (state : Lifecycle)
    (stages : List (Option Lifecycle × Lifecycle)) (failures : Nat) : Bool → Logged World → Prop
  /-- A call of the store failed. -/
  | failed {s : Logged World} (seen : Seen id state stages (failures + 1) s) :
      MarkOutcome id state stages failures false s
  /-- A handle that is deleted may not be moved. -/
  | refused {s : Logged World} (hstate : state = .deleted) (seen : Seen id state stages failures s) :
      MarkOutcome id state stages failures false s
  | already {s : Logged World} (hstate : state = .deleting) (seen : Seen id state stages failures s) :
      MarkOutcome id state stages failures true s
  | moved {s : Logged World} (alive : state ≠ .deleted) (before : state ≠ .deleting)
      (seen : Seen id .deleting (stages ++ [(some state, .deleting)]) failures s) :
      MarkOutcome id state stages failures true s

/-- What a move to deleting leaves behind before it is announced. -/
def MarkMoved (id : HandleId) (state : Lifecycle) (stages : List (Option Lifecycle × Lifecycle))
    (failures : Nat) : Except InventoryError (Option Lifecycle) → Logged World → Prop
  | .ok (some old), s =>
      old = state ∧ state ≠ .deleted ∧ state ≠ .deleting ∧ Seen id .deleting stages failures s
  | .ok none, s => MarkOutcome id state stages failures true s
  | .error _, s => MarkOutcome id state stages failures false s

namespace Inventory

theorem ensures_move_deleting {snapshot : Handle} (h : Seen snapshot.id state stages failures s) :
    (move snapshot .deleting).run.Ensures .faulty (MarkMoved snapshot.id state stages failures) s := by
  refine (ensures_move_iff (by decide)).2 ?_
  refine seen_status h (fun e s₁ h₁ => .failed h₁) fun status s₁ hstatus h₁ => ?_
  refine ⟨fun hdeleting => .already (hstatus ▸ hdeleting) h₁, ?refused, ?unexplained, ?writes⟩
  case refused =>
    intro _ hmove
    refine .refused ?_ h₁
    by_contra halive
    exact hmove (canMoveTo_deleting (hstatus ▸ halive))
  case unexplained =>
    -- To be deleting a handle needs no reason.
    intro _ _ e hreason
    cases hreason
  case writes =>
    intro hbefore hmove reason _
    rw [hstatus] at hbefore hmove ⊢
    have halive : state ≠ .deleted := by
      rintro rfl
      cases hmove
    refine seen_quiet h₁ trivial fun now s₂ h₂ => ?_
    refine ensures_saveFrom_iff.2 (seen_write h₂ (fun e s₃ h₃ => .failed h₃) fun s₃ h₃ => ?_)
    exact ⟨rfl, halive, hbefore, h₃⟩

/-- What an entry makes of its own handle. -/
theorem ensures_applyEntry_own {topic : String} {snapshot : Handle}
    (h : Seen snapshot.id state stages failures s) :
    (applyEntry topic snapshot .deleting).Ensures .faulty
      (fun result s' => MarkOutcome snapshot.id state stages failures (result.reached snapshot.id) s')
      s := by
  have hmember : ∀ b : BatchResult, b.reached snapshot.id = true →
      ∀ {s'}, MarkOutcome snapshot.id state stages failures true s' →
        MarkOutcome snapshot.id state stages failures (b.reached snapshot.id) s' := by
    intro b hreached s' h
    rwa [hreached]
  refine ensures_applyEntry_of (ensures_move_deleting h) (fun e s₁ hfailed => hfailed) ?stays ?moved
  case stays => exact fun s₁ hstays => hmember _ (by simp [BatchResult.reached]) hstays
  case moved =>
    rintro old s₁ ⟨rfl, halive, hbefore, h₁⟩
    refine seen_announce h₁ fun s₂ h₂ => ?_
    exact hmember _ (by simp [BatchResult.reached]) (.moved halive hbefore h₂)

/-- An entry says nothing of other handles, and leaves them as they are. -/
theorem ensures_applyEntry_other {topic : String} {snapshot : Handle} {target : Lifecycle}
    (h : Seen id state stages failures s) (hne : snapshot.id ≠ id) :
    (applyEntry topic snapshot target).Ensures .faulty
      (fun result s' => result.reached id = false ∧ Seen id state stages failures s') s := by
  have hkeeps : ∀ (r : Request) s reply w, r.WorksOn .data snapshot.id →
      Seen id state stages failures s → World.Answers (fun _ => True) r s.1 reply w →
        Seen id state stages failures (w, s.2 ++ [⟨0, r, reply, s.1, w⟩]) :=
    fun r s reply w hr hs hans => hs.of_worksOn hr hne hans
  have hne' : id ≠ snapshot.id := hne.symm
  refine ensures_applyEntry_of (asks_move.logged h hkeeps) (fun e s₁ h₁ => ⟨rfl, h₁⟩) ?stays ?moved
  case stays => exact fun s₁ h₁ => ⟨by simp [BatchResult.reached, hne'], h₁⟩
  case moved =>
    refine fun old s₁ h₁ => (asks_announce.logged h₁ hkeeps).mono fun _ s₂ h₂ => ?_
    exact ⟨by simp [BatchResult.reached, hne'], h₂⟩

end Inventory

/-! ## Batches -/

/-- The moves by which a handle in the given state comes to be deleting. -/
def movesToDeleting (state : Lifecycle) : List (Option Lifecycle × Lifecycle) :=
  if state = .deleting then [] else [(some state, .deleting)]

/-- What is seen of a handle after `n` entries for it, the handle being in a state before the first of
them. It is deleting if one of them got that far; otherwise all of them failed, or it is deleted. -/
structure MarkedSoFar (id : HandleId) (state : Lifecycle)
    (stages : List (Option Lifecycle × Lifecycle)) (n : Nat) (reached : Bool) (s : Logged World) :
    Prop where
  seen : Seen id (if reached then .deleting else state)
    (stages ++ if reached then movesToDeleting state else []) (failedMoves id s.2) s
  of_reached : reached = true → state ≠ .deleted ∧ failedMoves id s.2 < n
  of_missed : reached = false → state = .deleted ∨ failedMoves id s.2 = n

variable {n : Nat} {reached : Bool}

theorem Seen.markedSoFar (h : Seen id state stages 0 s) : MarkedSoFar id state stages 0 false s := by
  refine ⟨?_, by simp, fun _ => Or.inr h.failures⟩
  simpa [h.failures] using h

/-- Another entry for the handle. -/
theorem MarkedSoFar.entry (h : MarkedSoFar id state stages n reached s) {own : Bool} {s' : Logged World}
    (houtcome : MarkOutcome id (if reached then .deleting else state)
      (stages ++ if reached then movesToDeleting state else []) (failedMoves id s.2) own s') :
    MarkedSoFar id state stages (n + 1) (reached || own) s' := by
  cases houtcome with
  | failed seen =>
      have hcount := seen.failures
      rw [Bool.or_false]
      refine ⟨by rwa [hcount], ?_, ?_⟩
      · intro hreached
        rcases h.of_reached hreached with ⟨halive, hlt⟩
        exact ⟨halive, by omega⟩
      · intro hmissed
        rcases h.of_missed hmissed with hdeleted | heq
        · exact Or.inl hdeleted
        · exact Or.inr (by omega)
  | refused hstate seen =>
      have hcount := seen.failures
      cases reached with
      | true => cases hstate
      | false => exact ⟨by rwa [hcount], by simp, fun _ => Or.inl hstate⟩
  | already hstate seen =>
      have hcount := seen.failures
      cases reached with
      | true =>
          refine ⟨by rwa [hcount], fun _ => ?_, by simp⟩
          rcases h.of_reached rfl with ⟨halive, hlt⟩
          exact ⟨halive, by omega⟩
      | false =>
          have hstate : state = .deleting := hstate
          subst hstate
          refine ⟨by rwa [hcount], fun _ => ⟨by decide, ?_⟩, by simp⟩
          rcases h.of_missed rfl with hdeleted | heq
          · cases hdeleted
          · omega
  | moved halive hbefore seen =>
      have hcount := seen.failures
      cases reached with
      | true => exact absurd rfl hbefore
      | false =>
          have hbefore : state ≠ .deleting := hbefore
          refine ⟨?_, fun _ => ⟨halive, ?_⟩, by simp⟩
          · rw [hcount, Bool.false_or, if_pos rfl, if_pos rfl, movesToDeleting, if_neg hbefore]
            simpa using seen
          · rcases h.of_missed rfl with hdeleted | heq
            · exact absurd hdeleted halive
            · omega

namespace Inventory

/-- What a batch of moves to deleting makes of a handle. -/
theorem ensures_applyBatch_marking {topic : String} {snapshots : List Handle}
    (h : MarkedSoFar id state stages n reached s) :
    (applyBatch topic (snapshots.map fun h => (h, .deleting))).Ensures .faulty
      (fun result s' => MarkedSoFar id state stages (n + snapshots.countP fun h => h.id = id)
        (reached || result.reached id) s') s := by
  induction snapshots generalizing n reached s with
  | nil => simpa [applyBatch, BatchResult.reached, BatchResult.empty] using h
  | cons g rest ih =>
      simp only [List.map_cons, applyBatch]
      by_cases hid : g.id = id
      · subst hid
        refine (ensures_applyEntry_own h.seen).bind fun here s₁ houtcome => ?_
        refine (ih (h.entry houtcome)).bind fun more s₂ hmore => ?_
        rw [Program.pure_eq, Program.ensures_done, reached_append, ← Bool.or_assoc,
          List.countP_cons_of_pos (by simp), Nat.add_comm _ 1, ← Nat.add_assoc]
        exact hmore
      · refine (ensures_applyEntry_other h.seen hid).bind ?_
        rintro here s₁ ⟨hnot, hseen⟩
        have hcount := hseen.failures
        have h₁ : MarkedSoFar id state stages n reached s₁ :=
          ⟨by rwa [hcount], by rw [hcount]; exact h.of_reached, by rw [hcount]; exact h.of_missed⟩
        refine (ih h₁).bind fun more s₂ hmore => ?_
        rw [Program.pure_eq, Program.ensures_done, reached_append, hnot, Bool.false_or,
          List.countP_cons_of_neg (by simpa using hid)]
        exact hmore

end Inventory

/-! ## Snapshots -/

theorem mem_of_find?_ofList {β : Type} {entries : List (String × β)} {key : String} {value : β}
    (h : (Dictionary.ofList entries).find? key = some value) : (key, value) ∈ entries := by
  have hgen : ∀ d : Dictionary β, (entries.foldl (fun d e => d.insert e.1 e.2) d).find? key =
      some value → d.find? key = some value ∨ (key, value) ∈ entries := by
    clear h
    induction entries with
    | nil => exact fun d hd => Or.inl hd
    | cons e rest ih =>
        intro d hd
        rcases ih (d.insert e.1 e.2) hd with hfound | hmem
        · rw [Dictionary.find?_insert] at hfound
          split at hfound
          · rename_i hkey
            rw [← hkey, ← Option.some.inj hfound]
            exact Or.inr List.mem_cons_self
          · exact Or.inl hfound
        · exact Or.inr (List.mem_cons_of_mem _ hmem)
  rcases hgen .empty h with hempty | hmem
  · rw [Dictionary.find?_empty] at hempty
    cases hempty
  · exact hmem

/-- Of a stored handle there are as many snapshots as there are requests. -/
theorem Store.Sound.countP_filterMap_record? {store : Store} (hs : store.Sound) {g : Handle}
    (hg : store.record? id = some g) (ids : List HandleId) :
    ((ids.filterMap store.record?).countP fun h => h.id = id) = ids.count id := by
  induction ids with
  | nil => rfl
  | cons other rest ih =>
      by_cases hid : other = id
      · subst hid
        rw [List.filterMap_cons_some hg, List.countP_cons_of_pos, ih, List.count_cons_self]
        simp [hs.id_of_record? hg]
      · rw [List.count_cons_of_ne hid, ← ih]
        cases hr : store.record? other with
        | none => rw [List.filterMap_cons_none hr]
        | some h =>
            rw [List.filterMap_cons_some hr, List.countP_cons_of_neg]
            simpa [hs.id_of_record? hr] using hid

/-- The snapshots tell of handles that are deleting; there is one of a handle if it was reached. -/
structure Snapshots (id : HandleId) (reached : Bool) (snapshots : Dictionary Handle) : Prop where
  deleting : ∀ key g, snapshots.find? key = some g → g.id.text = key ∧ g.lifecycle = .deleting
  reached : (snapshots.find? id.text).isSome = reached

/-- What is known of a stored handle after handles were moved to deleting. -/
def Inventory.Marking (id : HandleId) (state : Lifecycle)
    (stages : List (Option Lifecycle × Lifecycle)) (n : Nat) :
    Except StoreError (Dictionary Handle) → Logged World → Prop
  | .error _, s => Seen id state stages 0 s
  | .ok snapshots, s => ∃ reached, MarkedSoFar id state stages n reached s ∧
      Snapshots id reached snapshots

/-- However the calls of the store fail, a stored handle is moved to deleting unless it is deleted or failed
to be moved as often as it was asked for. -/
theorem Inventory.ensures_markDeleting_of {topic : String} {ids : List HandleId}
    (h : Seen id state stages 0 s) :
    (markDeleting topic ids).Ensures .faulty (Marking id state stages (ids.count id)) s := by
  rw [markDeleting, Program.ensures_bind]
  refine logged_request fun reply w hans => ?_
  have hsame : w.store = s.1.store ∧ w.published = s.1.published := by
    rcases World.Answers.store hans with ⟨hpublished, ⟨e, -, -, hstore⟩ | hperform⟩
    · exact ⟨hstore, hpublished⟩
    · exact ⟨(Prod.mk.inj hperform).2, hpublished⟩
  have h₁ := h.idle hans (by rw [hsame.1]) (by rw [hsame.2]) rfl
  cases reply with
  | error e => exact h₁
  | ok snapshots =>
      have hsnapshots : snapshots = ids.filterMap w.store.record? := by
        rcases World.Answers.store hans with ⟨-, ⟨e, -, heq, -⟩ | hperform⟩
        · cases heq
        · have heq : Except.ok snapshots = s.1.store.getMany ids := (Prod.mk.inj hperform).1
          rw [h.sound.getMany_eq, ← hsame.1] at heq
          exact Except.ok.inj heq
      obtain ⟨g, hg, -⟩ : ∃ g, w.store.record? id = some g ∧ g.lifecycle = state :=
        Option.map_eq_some_iff.1 h₁.state
      have hid := h₁.sound.id_of_record? hg
      refine (ensures_applyBatch_marking h₁.markedSoFar).bind fun result s₂ hmarked => ?_
      rw [Nat.zero_add, Bool.false_or, hsnapshots, h₁.sound.countP_filterMap_record? hg] at hmarked
      refine ⟨result.reached id, hmarked, ?_, ?_⟩
      · intro key k hfind
        rcases List.mem_map.1 (mem_of_find?_ofList hfind) with ⟨k', -, heq⟩
        rcases Prod.mk.inj heq with ⟨rfl, rfl⟩
        exact ⟨rfl, rfl⟩
      · cases hreached : result.reached id with
        | false =>
            rw [Option.isSome_eq_false_iff, Option.isNone_iff_eq_none]
            by_contra hsome
            rcases Option.ne_none_iff_exists'.1 hsome with ⟨k, hfind⟩
            rcases List.mem_map.1 (mem_of_find?_ofList hfind) with ⟨k', hmem, heq⟩
            have hkid : k'.id = id := HandleId.text_inj.1 (Prod.mk.inj heq).1
            have hkreached : result.reached k'.id = true := (List.mem_filter.1 hmem).2
            rw [hkid, hreached] at hkreached
            cases hkreached
        | true =>
            -- It was asked for, since it was reached.
            have hmem : id ∈ ids := by
              have hlt := (hmarked.of_reached hreached).2
              exact List.count_pos_iff.1 (Nat.lt_of_le_of_lt (Nat.zero_le _) hlt)
            have hkept : g ∈ snapshots.filter fun h => result.reached h.id := by
              refine List.mem_filter.2 ⟨?_, by rw [hid, hreached]⟩
              rw [hsnapshots]
              exact List.mem_filterMap.2 ⟨id, hmem, hg⟩
            rcases find?_ofList_of_mem (List.mem_map_of_mem
              (f := fun h : Handle => (h.id.text, asDeleting h)) hkept) with ⟨k, hfind, -⟩
            rw [hid] at hfind
            exact Option.isSome_iff_exists.2 ⟨k, hfind⟩

end
end CmInventory
