import CmInventory.Proofs.Inventory.Operations
import CmInventory.Proofs.Program.Interleaving
import CmInventory.Proofs.Store.Records

/-!
# Members side by side

Any number of members change the status of handles and delete handles at the same time. A member computes
the next status from what it read, and by the time it writes the handle may have been moved, deleted and
created again by others; the write only asks for the lifecycle state to be the one that was read.

The discipline of the members (`atWork`) says what is written nevertheless. The view of a member is its
`Ledger`: the moves that it wrote and those that it announced. A status that is written is well kept by
itself (`HandleStatus.WellKept`), and its state may follow the expected one. So whichever record the write
hits, the rules for records hold after it.
-/

namespace CmInventory

/-! ## Records and moves -/

/-- What holds of the status of every stored handle. -/
structure HandleStatus.WellKept (s : HandleStatus) : Prop where
  alive : s.lifecycle ≠ .deleted
  locked : s.lifecycle = .locked → s.lockReason.isSome
  unlocked : s.lifecycle = .ready ∨ s.lifecycle = .deleting → s.lockReason = none

/-- The record of a handle went from one lifecycle state to another. -/
structure Move where
  id : HandleId
  old : Lifecycle
  new : Lifecycle
  deriving DecidableEq

/-- Whether the lifecycle state of a stored record changed. -/
structure Store.Moves (s s' : Store) (m : Move) : Prop where
  old : s.lifecycle? m.id = some m.old
  new : s'.lifecycle? m.id = some m.new
  ne : m.old ≠ m.new

/-- Whether a turn changed the lifecycle state of a stored record. -/
def Turn.Makes (t : Turn World) (m : Move) : Prop :=
  t.before.store.Moves t.after.store m

/-- The moves that were made by turns, in their order. A turn makes one move or none. -/
inductive MakeMoves : List (Turn World) → List Move → Prop
  | nil : MakeMoves [] []
  | still {t : Turn World} {ts : List (Turn World)} {ms : List Move} (still : ∀ m, ¬ t.Makes m)
      (rest : MakeMoves ts ms) : MakeMoves (t :: ts) ms
  | move {t : Turn World} {ts : List (Turn World)} {m : Move} {ms : List Move}
      (makes : ∀ m', t.Makes m' ↔ m' = m) (rest : MakeMoves ts ms) : MakeMoves (t :: ts) (m :: ms)

/-- The moves between states of a stored record that a request announces. -/
def announcedBy : Request → List Move
  | .publish ⟨_, _, .lifecycle e⟩ =>
      match e.oldState with
      | some old => if e.newState = .deleted then [] else [⟨e.handleId, old, e.newState⟩]
      | none => []
  | _ => []

/-- The moves that were announced in turns. -/
def announcedIn (turns : List (Turn World)) : List Move :=
  turns.flatMap fun t => announcedBy t.request

/-! ## What operations account for -/

/-- What an entry of a batch came to, and the moves of its record. -/
inductive EntryOutcome (snapshot : Handle) (target : Lifecycle) : BatchResult → List Move → Prop
  | moved (old : Lifecycle) (ht : target ≠ .deleted) :
      EntryOutcome snapshot target ⟨[snapshot.id], [], []⟩ [⟨snapshot.id, old, target⟩]
  /-- The record was gone before, so that there is nothing left to move. -/
  | ended (ht : target = .deleted) : EntryOutcome snapshot target ⟨[snapshot.id], [], []⟩ []
  | unchanged : EntryOutcome snapshot target ⟨[], [snapshot.id], []⟩ []
  | failed (e : InventoryError) : EntryOutcome snapshot target ⟨[], [], [(snapshot.id, e)]⟩ []

/-- What a batch came to, entry by entry. -/
inductive BatchOutcome : List (Handle × Lifecycle) → BatchResult → List Move → Prop
  | nil : BatchOutcome [] .empty []
  | cons {snapshot : Handle} {target : Lifecycle} {rest : List (Handle × Lifecycle)}
      {here more : BatchResult} {ms later : List Move} (entry : EntryOutcome snapshot target here ms)
      (others : BatchOutcome rest more later) :
      BatchOutcome ((snapshot, target) :: rest) (here.append more) (ms ++ later)

/-- The moves that an operation with the given result accounts for: those of the entries that were
committed. All other operations leave the lifecycle states as they are. -/
def Operation.Accounts : Operation → Operation.Result → List Move → Prop
  | .apply _ batch, .batch result, moves => BatchOutcome batch result moves
  | .apply .., _, _ => False
  | _, _, moves => moves = []

/-- The moves that operations account for together. -/
inductive Explained : List Operation → List Operation.Result → List Move → Prop
  | nil : Explained [] [] []
  | more {ops : List Operation} {results : List Operation.Result} {moves : List Move} {op : Operation}
      {result : Operation.Result} {new : List Move} (before : Explained ops results moves)
      (accounts : op.Accounts result new) :
      Explained (ops ++ [op]) (results ++ [result]) (moves ++ new)

/-! ## The discipline -/

/-- The moves that a member wrote, and those that it announced. -/
structure Ledger where
  written : List Move
  announced : List Move

/-- The moves that a member knows to be written by a request. -/
def writtenBy : (r : Request) → r.Reply → List Move
  | .store (.saveStatusIf id expected status), .ok true =>
      if expected = status.lifecycle then [] else [⟨id, expected, status.lifecycle⟩]
  | _, _ => []

namespace Ledger

/-- The ledger after another reply. -/
def note (r : Request) (reply : r.Reply) (l : Ledger) : Ledger :=
  ⟨l.written ++ writtenBy r reply, l.announced ++ announcedBy r⟩

/-- What a member may ask for. A move is announced before the next one is written. -/
def MayAsk (l : Ledger) : Request → Prop
  | .store (.saveStatusIf _ expected status) =>
      status.WellKept ∧ (expected = status.lifecycle ∨
        expected.canMoveTo status.lifecycle = true ∧ l.written = l.announced)
  | .store (.insert handles) => ∀ h ∈ handles, h.lifecycle = .advised
  | .store (.save _) | .store (.saveStatus ..) => False
  | .publish p =>
      announcedBy (.publish p) = [] ∨ l.written = l.announced ++ announcedBy (.publish p)
  | _ => True

/-- At most one move is written and not yet announced. -/
def Orderly (l : Ledger) : Prop :=
  ∃ due, l.written = l.announced ++ due ∧ due.length ≤ 1

end Ledger

namespace Ledger

variable {l : Ledger} {r : Request}

/-- A request that writes no move and announces none leaves the ledger as it is. -/
theorem note_plain (reply : r.Reply) (hw : writtenBy r reply = []) (ha : announcedBy r = []) :
    l.note r reply = l := by
  simp [note, hw, ha]

theorem writtenBy_length (r : Request) (reply : r.Reply) : (writtenBy r reply).length ≤ 1 := by
  unfold writtenBy
  split
  · split <;> simp
  · simp

theorem writtenBy_of_not_settled (hmay : l.MayAsk r) (reply : r.Reply) (h : l.written ≠ l.announced) :
    writtenBy r reply = [] := by
  unfold writtenBy
  split
  · rcases hmay.2 with heq | ⟨-, hsettled⟩
    · rw [if_pos heq]
    · exact absurd hsettled h
  · rfl

/-- A move that is written is allowed, and does not lead away from deleting. -/
theorem canMoveTo_of_written {reply : r.Reply} {m : Move} (hmay : l.MayAsk r)
    (hm : m ∈ writtenBy r reply) : m.old.canMoveTo m.new = true ∧ m.old ≠ .deleting := by
  unfold writtenBy at hm
  split at hm
  · rename_i id expected status
    split at hm
    · cases hm
    · rename_i hne
      rw [List.mem_singleton.1 hm]
      rcases hmay with ⟨hwell, hsame | ⟨hmove, -⟩⟩
      · exact absurd hsame hne
      · refine ⟨hmove, ?_⟩
        -- From deleting a handle may only go to deleted, which no written status is.
        rintro rfl
        have halive := hwell.alive
        cases hnew : status.lifecycle <;> simp_all [Lifecycle.canMoveTo]
  · cases hm

/-- A member that keeps to the rules leaves no two moves to be announced. -/
theorem Orderly.note (h : l.Orderly) (hmay : l.MayAsk r) (reply : r.Reply) :
    (l.note r reply).Orderly := by
  -- Either a move is written on top of settled accounts, or the one that is due is announced.
  by_cases hann : announcedBy r = []
  · by_cases hsettled : l.written = l.announced
    · exact ⟨writtenBy r reply, by simp [Ledger.note, hann, hsettled], writtenBy_length r reply⟩
    · have hnone := writtenBy_of_not_settled hmay reply hsettled
      rw [note_plain reply hnone hann]
      exact h
  · cases r with
    | publish p =>
        have hdue := hmay.resolve_left hann
        exact ⟨[], by simpa [Ledger.note, writtenBy] using hdue, by simp⟩
    | _ => exact absurd rfl hann

end Ledger

/-- What a member can rely on: a status that it reads is well kept. -/
def Told : (r : Request) → r.Reply → Prop
  | .store (.status _), .ok status => status.WellKept
  | _, _ => True

/-- The rules for the records of a store. -/
structure Store.Kept (s : Store) : Prop where
  sound : s.Sound
  records : ∀ id h, s.record? id = some h → h.status.WellKept

/-- A handle that is advised may have any reason of a lock. -/
theorem HandleStatus.WellKept.of_advised {t : HandleStatus}
    (h : t.lifecycle = .advised) : t.WellKept := by
  refine ⟨?_, ?_, ?_⟩
  · simp [h]
  · intro hlocked
    rw [h] at hlocked
    cases hlocked
  · intro hother
    rw [h] at hother
    rcases hother with hready | hdeleting
    · cases hready
    · cases hdeleting

namespace Store

variable {s s' : Store}

theorem kept_empty : Kept empty := by
  refine ⟨sound_empty, ?_⟩
  intro id h hr
  rw [record?_empty] at hr
  cases hr

theorem Kept.of_records (hs : s.Kept) (hsound : s'.Sound)
    (h : ∀ id g, s'.record? id = some g → s.record? id = some g ∨ g.status.WellKept) :
    s'.Kept := by
  refine ⟨hsound, ?_⟩
  intro id g hr
  rcases h id g hr with hold | hnew
  · exact hs.records id g hold
  · exact hnew

theorem Kept.of_handles (hs : s.Kept) (h : s'.handles = s.handles) : s'.Kept := by
  refine hs.of_records ?_ ?_
  · intro key row hrow
    rw [h] at hrow
    exact hs.sound key row hrow
  · intro id g hr
    rw [record?, h] at hr
    exact Or.inl hr

theorem Kept.insert (hs : s.Kept) {handles : List Handle}
    (hadv : ∀ h ∈ handles, h.lifecycle = .advised) : (s.insert handles).2.Kept := by
  refine hs.of_records (hs.sound.insert_sound handles) ?_
  intro id g hr
  rw [hs.sound.record?_insert] at hr
  rcases Option.or_eq_some_iff.1 hr with hold | ⟨-, hnew⟩
  · exact Or.inl hold
  · exact Or.inr (.of_advised (hadv g (List.mem_of_find?_eq_some hnew)))

theorem Kept.putHandle (hs : s.Kept) {h : Handle} (hwell : h.status.WellKept) :
    (s.putHandle h).Kept := by
  refine hs.of_records (hs.sound.putHandle h) ?_
  intro id g hr
  rw [record?_putHandle] at hr
  split at hr
  · rw [← Option.some.inj hr]
    exact Or.inr hwell
  · exact Or.inl hr

theorem Kept.of_fewer (hs : s.Kept) {p : HandleId → Prop} [DecidablePred p] (hsound : s'.Sound)
    (h : ∀ id, s'.record? id = if p id then none else s.record? id) : s'.Kept := by
  refine hs.of_records hsound ?_
  intro id g hr
  rw [h id] at hr
  split at hr
  · cases hr
  · exact Or.inl hr

/-- A call that a member may make keeps the rules for records. -/
theorem Kept.perform (hs : s.Kept) {call : StoreCall} {l : Ledger}
    (hmay : l.MayAsk (.store call)) : (s.perform call).2.Kept := by
  cases call with
  | save h => exact hmay.elim
  | saveStatus id status => exact hmay.elim
  | insert handles =>
      have hkept := hs.insert hmay
      rw [Store.perform]
      split
      · rename_i heq
        rwa [heq] at hkept
      · rename_i heq
        rwa [heq] at hkept
  | saveStatusIf id expected status =>
      have hwell : status.WellKept := hmay.1
      rw [Store.perform, hs.sound.replaceStatus_eq]
      cases s.record? id with
      | none => exact hs
      | some h =>
          by_cases hl : h.lifecycle = expected
          · simp only [if_pos hl]
            exact hs.putHandle hwell
          · simp only [if_neg hl]
            exact hs
  | delete id =>
      rw [Store.perform]
      cases hdel : s.delete id with
      | error e => exact hs
      | ok s' =>
          rcases hs.sound.delete_ok hdel with ⟨hsound, -, hrecords⟩
          exact hs.of_fewer hsound hrecords
  | deleteAll ids =>
      rw [Store.perform]
      cases hdel : s.deleteAll ids with
      | error e => exact hs
      | ok s' =>
          rcases hs.sound.deleteAll_ok hdel with ⟨hsound, -, -, hrecords⟩
          exact hs.of_fewer hsound hrecords
  | saveData id data => exact hs.of_handles rfl
  | deleteData id => exact hs.of_handles rfl
  | saveModules id modules => exact hs.of_handles rfl
  | saveAnswer answer => exact hs.of_handles rfl
  | _ => exact hs

/-- What a member is told by a call that is performed. -/
theorem Kept.told (hs : s.Kept) (call : StoreCall) : Told (.store call) (s.perform call).1 := by
  cases call with
  | status id =>
      change Told (.store (.status id)) (s.status id)
      rw [hs.sound.status_eq]
      cases hr : s.record? id with
      | none => trivial
      | some h => exact hs.records id h hr
  | _ => trivial

/-! ## What a call does to the lifecycle states -/

/-- No record changed its state, though records may have come and gone. -/
def Steady (s s' : Store) : Prop :=
  ∀ id, s.lifecycle? id = none ∨ s'.lifecycle? id = none ∨ s'.lifecycle? id = s.lifecycle? id

theorem Steady.not_moves (h : s.Steady s') (m : Move) : ¬ s.Moves s' m := by
  intro hm
  rcases h m.id with hnone | hnone | hsame
  · rw [hm.old] at hnone
    cases hnone
  · rw [hm.new] at hnone
    cases hnone
  · rw [hm.old, hm.new] at hsame
    exact hm.ne (Option.some.inj hsame).symm

theorem steady_of_handles (h : s'.handles = s.handles) : s.Steady s' := by
  intro id
  refine Or.inr (Or.inr ?_)
  rw [lifecycle?, record?, h]
  rfl

theorem steady_of_fewer {p : HandleId → Prop} [DecidablePred p]
    (h : ∀ id, s'.record? id = if p id then none else s.record? id) : s.Steady s' := by
  intro id
  rw [lifecycle?, lifecycle?, h id]
  split
  · exact Or.inr (Or.inl rfl)
  · exact Or.inr (Or.inr rfl)

theorem Sound.steady_insert (hs : s.Sound) (handles : List Handle) :
    s.Steady (s.insert handles).2 := by
  intro id
  cases hr : s.record? id with
  | none => exact Or.inl (by rw [lifecycle?, hr, Option.map_none])
  | some g =>
      refine Or.inr (Or.inr ?_)
      rw [lifecycle?, hs.record?_insert, lifecycle?, hr, Option.some_or]

/-- The move that a conditional write makes, if it makes one. -/
theorem Sound.moves_saveStatusIf (hs : s.Sound) (id : HandleId) (expected : Lifecycle)
    (status : HandleStatus) (m : Move) :
    s.Moves (s.perform (.saveStatusIf id expected status)).2 m ↔
      m ∈ writtenBy (.store (.saveStatusIf id expected status))
        (s.perform (.saveStatusIf id expected status)).1 := by
  rw [Store.perform, hs.replaceStatus_eq]
  cases hr : s.record? id with
  | none => simpa [writtenBy] using (steady_of_handles rfl).not_moves m
  | some g =>
      by_cases hl : g.lifecycle = expected
      · have hid := hs.id_of_record? hr
        have hbefore : s.lifecycle? id = some expected := by
          rw [lifecycle?, hr, Option.map_some, hl]
        have hafter : ∀ other, (s.putHandle { g with status := status }).lifecycle? other =
            if id = other then some status.lifecycle else s.lifecycle? other := by
          intro other
          rw [lifecycle?_putHandle, hid]
          rfl
        simp only [if_pos hl, writtenBy]
        constructor
        · intro hm
          have hnew := hm.new
          rw [hafter] at hnew
          split at hnew
          · rename_i heq
            have hold := hm.old
            rw [← heq, hbefore] at hold
            have hne : expected ≠ status.lifecycle := by
              rw [Option.some.inj hold, Option.some.inj hnew]
              exact hm.ne
            rw [if_neg hne, List.mem_singleton, heq, Option.some.inj hold, Option.some.inj hnew]
          -- Any other record is as it was.
          · rw [hm.old] at hnew
            exact absurd (Option.some.inj hnew) hm.ne
        · intro hm
          split at hm
          · cases hm
          · rename_i hne
            rw [List.mem_singleton.1 hm]
            exact ⟨hbefore, by rw [hafter, if_pos rfl], hne⟩
      · simpa [if_neg hl, writtenBy] using (steady_of_handles rfl).not_moves m

/-- A call that a member may make makes the move that the member knows to have written. -/
theorem Kept.moves_perform (hs : s.Kept) {call : StoreCall} {l : Ledger}
    (hmay : l.MayAsk (.store call)) (m : Move) :
    s.Moves (s.perform call).2 m ↔ m ∈ writtenBy (.store call) (s.perform call).1 := by
  have hstill : s.Steady (s.perform call).2 → writtenBy (.store call) (s.perform call).1 = [] →
      (s.Moves (s.perform call).2 m ↔ m ∈ writtenBy (.store call) (s.perform call).1) := by
    intro hsteady hnone
    rw [hnone]
    exact ⟨fun hm => absurd hm (hsteady.not_moves m), fun hm => by cases hm⟩
  cases call with
  | save h => exact hmay.elim
  | saveStatus id status => exact hmay.elim
  | saveStatusIf id expected status => exact hs.sound.moves_saveStatusIf id expected status m
  | insert handles =>
      refine hstill ?_ rfl
      have hinsert := hs.sound.steady_insert handles
      rw [Store.perform]
      split <;> rename_i heq <;> rwa [heq] at hinsert
  | delete id =>
      refine hstill ?_ rfl
      rw [Store.perform]
      cases hdel : s.delete id with
      | error e => exact steady_of_handles rfl
      | ok s' => exact steady_of_fewer (hs.sound.delete_ok hdel).2.2
  | deleteAll ids =>
      refine hstill ?_ rfl
      rw [Store.perform]
      cases hdel : s.deleteAll ids with
      | error e => exact steady_of_handles rfl
      | ok s' => exact steady_of_fewer (hs.sound.deleteAll_ok hdel).2.2.2
  | _ => exact hstill (steady_of_handles rfl) rfl

end Store

/-- The discipline of members that change and delete handles at the same time. Any call of the store may
fail. -/
def atWork : Discipline Ledger (World.Answers fun _ => True) where
  start := ⟨[], []⟩
  note := Ledger.note
  may r l := l.MayAsk r
  told := Told
  orderly := Ledger.Orderly
  holds w := w.store.Kept
  orderly_start := ⟨[], rfl, by simp⟩
  orderly_note := by
    intro r l reply horderly hmay htold
    exact horderly.note hmay reply
  keeps := by
    intro r l w reply w' hmay hw hans
    cases r with
    | store call =>
        rcases World.Answers.store hans with ⟨-, hfailed | hperform⟩
        · rcases hfailed with ⟨e, -, rfl, hstore⟩
          refine ⟨by rw [hstore]; exact hw, ?_⟩
          cases call <;> trivial
        · rcases Prod.ext_iff.1 hperform with ⟨hreply, hstore⟩
          have hreply : reply = (w.store.perform call).1 := hreply
          have hstore : w'.store = (w.store.perform call).2 := hstore
          rw [hreply, hstore]
          exact ⟨hw.perform hmay, hw.told call⟩
    | publish event => exact ⟨by rw [(World.Answers.publish hans).1]; exact hw, trivial⟩
    | _ => exact ⟨by rw [(World.Answers.quiet (by trivial) hans).1]; exact hw, trivial⟩

/-- A turn makes the move that its member knows to have written, and no other. -/
theorem Turn.Follows.makes_iff {t : Turn World} (h : t.Follows atWork) (m : Move) :
    t.Makes m ↔ m ∈ writtenBy t.request t.reply := by
  rcases h with ⟨⟨l, hmay⟩, hbefore, -, -, hans⟩
  rcases t with ⟨i, r, reply, w, w'⟩
  have hstill : w'.store = w.store → writtenBy r reply = [] →
      (w.store.Moves w'.store m ↔ m ∈ writtenBy r reply) := by
    intro hstore hnone
    have hsteady : w.store.Steady w'.store :=
      Store.steady_of_handles (congrArg Store.handles hstore)
    rw [hnone]
    exact ⟨fun hm => absurd hm (hsteady.not_moves m), fun hm => by cases hm⟩
  cases r with
  | store call =>
      rcases World.Answers.store hans with ⟨-, hfailed | hperform⟩
      · rcases hfailed with ⟨e, -, heq, hstore⟩
        have heq : reply = .error e := heq
        subst heq
        exact hstill hstore (by cases call <;> rfl)
      · rcases Prod.ext_iff.1 hperform with ⟨hreply, hstore⟩
        have hreply : reply = (w.store.perform call).1 := hreply
        have hstore : w'.store = (w.store.perform call).2 := hstore
        change w.store.Moves w'.store m ↔ m ∈ writtenBy (.store call) reply
        rw [hreply, hstore]
        exact Store.Kept.moves_perform hbefore hmay m
  | publish event => exact hstill (World.Answers.publish hans).1 rfl
  | _ => exact hstill (World.Answers.quiet (by trivial) hans).1 rfl

end CmInventory
