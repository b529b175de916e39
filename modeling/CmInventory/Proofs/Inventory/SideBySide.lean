import CmInventory.Proofs.Inventory.AtWork
import CmInventory.Proofs.Inventory.Transitions
import Mathlib.Data.List.Induction

/-!
# Operations side by side

The operations keep to the discipline of members at work, each judged by what its own member sees. From
this follows what every interleaving of their requests keeps (`interleaved_operations`): which moves the
records make, what is stored, and that the moves are those of the entries that were committed.
-/

namespace CmInventory

open Inventory

variable {l : Ledger}

/-! ## Single requests -/

/-- A request that neither writes nor announces a move. -/
theorem own_plain {r : Request} {Q : r.Reply → Ledger → Prop} (hmay : l.MayAsk r)
    (hw : ∀ reply, writtenBy r reply = []) (ha : announcedBy r = [])
    (h : ∀ reply, Told r reply → Q reply l) : (Program.request r).Ensures atWork.own Q l := by
  refine atWork.own_request hmay ?_
  intro reply htold
  have hsame : atWork.note r reply l = l := Ledger.note_plain reply (hw reply) ha
  rw [hsame]
  exact h reply htold

theorem own_announce {topic : String} {id : HandleId} {old : Option Lifecycle} {new : Lifecycle}
    {Q : Unit → Ledger → Prop}
    (hmay : ∀ eventId timestamp, l.MayAsk
      (.publish ⟨topic, id.text, .lifecycle ⟨eventId, id, old, new, timestamp⟩⟩))
    (h : ∀ eventId timestamp, Q () (l.note
      (.publish ⟨topic, id.text, .lifecycle ⟨eventId, id, old, new, timestamp⟩⟩) ())) :
    (announce topic id old new).Ensures atWork.own Q l := by
  refine ensures_announce_iff.2 (own_plain trivial (fun _ => rfl) rfl ?_)
  intro eventId _
  refine own_plain trivial (fun _ => rfl) rfl ?_
  intro timestamp _
  exact atWork.own_request (hmay eventId timestamp) fun _ _ => h eventId timestamp

/-- The first and the last event of a life tell of no move of a stored record. -/
theorem own_announce_plain {topic : String} {id : HandleId} {old : Option Lifecycle}
    {new : Lifecycle} (h : old = none ∨ new = .deleted) :
    (announce topic id old new).Ensures atWork.own (fun _ l' => l' = l) l := by
  have hnone : ∀ eventId timestamp, announcedBy
      (.publish ⟨topic, id.text, .lifecycle ⟨eventId, id, old, new, timestamp⟩⟩) = [] := by
    intro eventId timestamp
    rcases h with rfl | rfl
    · rfl
    · cases old <;> rfl
  refine own_announce (fun eventId timestamp => Or.inl (hnone eventId timestamp)) ?_
  intro eventId timestamp
  exact Ledger.note_plain () rfl (hnone eventId timestamp)

/-! ## Moves -/

theorem own_saveFrom {id : HandleId} {old : Lifecycle} {status : HandleStatus}
    (hmay : l.MayAsk (.store (.saveStatusIf id old status))) :
    (saveFrom id old status).run.Ensures atWork.own
      (fun result l' =>
        match result with
        | .ok () => l' = l.note (.store (.saveStatusIf id old status)) (.ok true)
        | .error _ => l' = l) l := by
  refine ensures_saveFrom_iff.2 (atWork.own_request hmay ?_)
  intro reply _
  have hplain : ∀ reply, writtenBy (.store (.saveStatusIf id old status)) reply = [] →
      l.note (.store (.saveStatusIf id old status)) reply = l :=
    fun reply hw => Ledger.note_plain reply hw rfl
  cases reply with
  | error e => exact hplain (.error e) rfl
  | ok written =>
      cases written with
      | false => exact hplain (.ok false) rfl
      | true => exact rfl

/-- The status after a move is well kept, whatever the status before it was. -/
theorem wellKept_nextStatus {snapshot : Handle} {current : HandleStatus} {target : Lifecycle}
    {reason : Option LockReason} {now : Instant} (ht : target ≠ .deleted)
    (hreason : nextReason snapshot current target = .ok reason) :
    (nextStatus current target reason now).WellKept := by
  refine ⟨ht, ?_, ?_⟩
  · intro hlocked
    have htarget : target = .locked := hlocked
    subst htarget
    rw [nextReason] at hreason
    cases hsnap : snapshot.status.lockReason with
    | none =>
        rw [hsnap] at hreason
        cases hreason
    | some r =>
        rw [hsnap] at hreason
        cases hreason
        rfl
  · intro hfree
    have htarget : target = .ready ∨ target = .deleting := hfree
    rcases htarget with rfl | rfl
    · cases hreason
      rfl
    · cases hreason
      rfl

/-- A move that succeeds was written, unless the record was gone. -/
def Noted (snapshot : Handle) (target : Lifecycle) (ms : List Move) :
    Except InventoryError (Option Lifecycle) → Ledger → Prop
  | .ok (some old), l' =>
      l' = ⟨ms ++ if target = .deleted then [] else [⟨snapshot.id, old, target⟩], ms⟩
  | _, l' => l' = ⟨ms, ms⟩

theorem own_move {snapshot : Handle} {target : Lifecycle} {ms : List Move} :
    (move snapshot target).run.Ensures atWork.own (Noted snapshot target ms) ⟨ms, ms⟩ := by
  by_cases hdeleted : target = .deleted
  · subst hdeleted
    rw [run_move_deleted]
    cases completeDeletion snapshot with
    | error e => exact rfl
    | ok old => simp [Noted, Except.map]
  refine (ensures_move_iff hdeleted).2 (own_plain trivial (fun _ => rfl) rfl ?_)
  intro reply _
  cases reply with
  | error e => exact rfl
  | ok current =>
      refine ⟨fun _ => rfl, fun _ _ => rfl, fun _ _ _ _ => rfl, ?writes⟩
      case writes =>
        intro hne hmove reason hreason
        refine own_plain trivial (fun _ => rfl) rfl ?_
        intro now _
        have hwell : (nextStatus current target reason now).WellKept := wellKept_nextStatus hdeleted hreason
        refine (own_saveFrom ⟨hwell, Or.inr ⟨hmove, rfl⟩⟩).mono ?_
        intro result l' hl
        cases result with
        | error e => exact hl
        | ok _ =>
            have hwritten : writtenBy (.store (.saveStatusIf snapshot.id current.lifecycle
                (nextStatus current target reason now))) (.ok true) =
                [⟨snapshot.id, current.lifecycle, target⟩] := if_neg hne
            have hl : l' = _ := hl
            rw [hl, Ledger.note, hwritten]
            simp [Noted, Except.map, hdeleted, announcedBy]

/-! ## Batches -/

theorem own_applyEntry {topic : String} {snapshot : Handle} {target : Lifecycle} {ms : List Move} :
    (applyEntry topic snapshot target).Ensures atWork.own
      (fun here l' => ∃ new, EntryOutcome snapshot target here new ∧ l' = ⟨ms ++ new, ms ++ new⟩)
      ⟨ms, ms⟩ := by
  refine ensures_applyEntry_of own_move ?failed ?stays ?moved
  case failed =>
    intro e l' hnoted
    have hl : l' = ⟨ms, ms⟩ := hnoted
    exact ⟨[], .failed e, by simpa using hl⟩
  case stays =>
    intro l' hnoted
    have hl : l' = ⟨ms, ms⟩ := hnoted
    exact ⟨[], .unchanged, by simpa using hl⟩
  case moved =>
    intro old l' hnoted
    have hl : l' = ⟨ms ++ if target = .deleted then [] else [⟨snapshot.id, old, target⟩], ms⟩ := hnoted
    by_cases hdeleted : target = .deleted
    · rw [if_pos hdeleted, List.append_nil] at hl
      refine (own_announce_plain (Or.inr hdeleted)).mono ?_
      intro _ l'' hl''
      exact ⟨[], .ended hdeleted, by simpa [hl] using hl''⟩
    · rw [if_neg hdeleted] at hl
      have hann : ∀ eventId timestamp, announcedBy (.publish ⟨topic, snapshot.id.text,
          .lifecycle ⟨eventId, snapshot.id, some old, target, timestamp⟩⟩) =
          [⟨snapshot.id, old, target⟩] := fun _ _ => if_neg hdeleted
      refine own_announce ?_ ?_
      · intro eventId timestamp
        refine Or.inr ?_
        rw [hann, hl]
      · intro eventId timestamp
        refine ⟨_, .moved old hdeleted, ?_⟩
        rw [Ledger.note, hann, hl]
        simp [writtenBy]

theorem own_applyBatch {topic : String} {entries : List (Handle × Lifecycle)} {ms : List Move} :
    (applyBatch topic entries).Ensures atWork.own
      (fun result l' => ∃ new, BatchOutcome entries result new ∧ l' = ⟨ms ++ new, ms ++ new⟩)
      ⟨ms, ms⟩ := by
  induction entries generalizing ms with
  | nil => exact ⟨[], .nil, by simp⟩
  | cons e rest ih =>
      rcases e with ⟨snapshot, target⟩
      rw [applyBatch]
      refine (own_applyEntry).bind ?_
      rintro here _ ⟨new, hentry, rfl⟩
      refine ih.bind ?_
      rintro more _ ⟨later, hothers, rfl⟩
      exact ⟨new ++ later, .cons hentry hothers, by simp⟩

/-! ## Operations that move no stored record -/

theorem own_accept {handles : List Handle} :
    (accept handles).Ensures atWork.own
      (fun result l' => (∀ h ∈ result.1, h.lifecycle = .advised) ∧ l' = l) l := by
  induction handles with
  | nil => exact ⟨by simp, rfl⟩
  | cons h rest ih =>
      rw [accept]
      split
      · rename_i hadv
        rw [Program.ensures_bind]
        refine own_plain trivial (fun _ => rfl) rfl ?_
        intro now _
        refine ih.bind ?_
        rintro result _ ⟨hall, rfl⟩
        refine ⟨?_, rfl⟩
        intro g hg
        rcases List.mem_cons.1 hg with rfl | hg
        · exact hadv
        · exact hall g hg
      · refine ih.bind ?_
        rintro result _ ⟨hall, rfl⟩
        exact ⟨hall, rfl⟩

theorem own_announceNew {topic : String} {present : List HandleId} {handles : List Handle} :
    (announceNew topic present handles).Ensures atWork.own (fun _ l' => l' = l) l := by
  induction handles with
  | nil => exact rfl
  | cons h rest ih =>
      rw [announceNew]
      split
      · exact ih.bind fun _ _ hl => hl
      · refine (own_announce_plain (Or.inl rfl)).bind ?_
        rintro _ _ rfl
        exact ih.bind fun _ _ hl => hl

theorem own_register {topic : String} {handles : List Handle} :
    (register topic handles).Ensures atWork.own (fun _ l' => l' = l) l := by
  rw [register]
  refine (own_accept).bind ?_
  rintro ⟨admitted, rejected⟩ _ ⟨hadv, rfl⟩
  rw [Program.ensures_bind]
  refine own_plain hadv (fun _ => rfl) rfl ?_
  intro reply _
  cases reply with
  | ok _ => exact own_announceNew.bind fun _ _ hl => hl
  | error e => cases e <;> first | exact own_announceNew.bind fun _ _ hl => hl | exact rfl

/-- A ready handle stays ready, and keeps to have no reason of a lock. -/
theorem wellKept_ready {current status : HandleStatus} (hwell : current.WellKept)
    (hready : current.lifecycle = .ready) (hlife : status.lifecycle = current.lifecycle)
    (hreason : status.lockReason = current.lockReason) : status.WellKept := by
  refine ⟨?_, ?_, ?_⟩
  · rw [hlife]
    exact hwell.alive
  · intro hlocked
    rw [hlife, hready] at hlocked
    cases hlocked
  · intro _
    rw [hreason]
    exact hwell.unlocked (Or.inl hready)

theorem own_saveFrom_ready {id : HandleId} {current status : HandleStatus}
    (hwell : current.WellKept) (hready : current.lifecycle = .ready)
    (hlife : status.lifecycle = current.lifecycle) (hreason : status.lockReason = current.lockReason) :
    (saveFrom id .ready status).run.Ensures atWork.own (fun _ l' => l' = l) l := by
  have hsame : Lifecycle.ready = status.lifecycle := by rw [hlife, hready]
  refine (own_saveFrom ⟨wellKept_ready hwell hready hlife hreason, Or.inl hsame⟩).mono ?_
  intro result l' hl
  cases result with
  | error e => exact hl
  | ok _ =>
      have hl : l' = _ := hl
      rw [hl]
      exact Ledger.note_plain (r := .store (.saveStatusIf id .ready status)) (.ok true) (if_pos hsame) rfl

theorem own_markSynchronized {id : HandleId} :
    (markSynchronized id).run.Ensures atWork.own (fun _ l' => l' = l) l := by
  refine ensures_markSynchronized_iff.2 (own_plain trivial (fun _ => rfl) rfl ?_)
  intro reply htold
  cases reply with
  | error e => exact rfl
  | ok current =>
      refine ⟨fun _ => rfl, fun hready => own_plain trivial (fun _ => rfl) rfl ?_⟩
      intro now _
      exact own_saveFrom_ready htold hready rfl rfl

theorem own_setDataSync {id : HandleId} {enabled : Bool} :
    (setDataSync id enabled).run.Ensures atWork.own (fun _ l' => l' = l) l := by
  refine ensures_setDataSync_iff.2 (own_plain trivial (fun _ => rfl) rfl ?_)
  intro reply htold
  cases reply with
  | error e => exact rfl
  | ok current =>
      refine ⟨fun _ => rfl, fun _ _ => rfl, fun _ hready => own_plain trivial (fun _ => rfl) rfl ?_⟩
      intro now _
      have hsaved : (saveFrom id .ready (current.setDataSync enabled now)).run.Ensures atWork.own
          (fun _ l' => l' = l) l := own_saveFrom_ready htold hready rfl rfl
      refine hsaved.mono ?_
      rintro result _ rfl
      cases result with
      | error e => exact rfl
      | ok _ =>
          refine ensures_dropData_iff.2 ?_
          split
          · exact own_plain trivial (fun _ => rfl) rfl fun _ _ => rfl
          · exact rfl

/-! ## Members -/

/-- An operation writes and announces the moves that it accounts for. -/
theorem own_program {op : Operation} {ms : List Move} :
    op.program.Ensures atWork.own
      (fun result l' => ∃ new, op.Accounts result new ∧ l' = ⟨ms ++ new, ms ++ new⟩) ⟨ms, ms⟩ := by
  have hnone : ∀ l', l' = (⟨ms, ms⟩ : Ledger) → l' = ⟨ms ++ [], ms ++ []⟩ := by simp
  cases op with
  | register topic handles => exact own_register.bind fun _ l' hl => ⟨[], rfl, hnone l' hl⟩
  | apply topic batch => exact own_applyBatch.bind fun _ _ ⟨new, hbatch, hl⟩ => ⟨new, hbatch, hl⟩
  | markSynchronized id => exact own_markSynchronized.bind fun _ l' hl => ⟨[], rfl, hnone l' hl⟩
  | setDataSync id enabled => exact own_setDataSync.bind fun _ l' hl => ⟨[], rfl, hnone l' hl⟩
  | delete id =>
      exact own_plain trivial (fun _ => rfl) rfl fun _ _ => ⟨[], rfl, hnone _ rfl⟩
  | deleteAll ids =>
      exact own_plain trivial (fun _ => rfl) rfl fun _ _ => ⟨[], rfl, hnone _ rfl⟩

theorem own_script (ops : List Operation) :
    (Operation.script ops).Ensures atWork.own
      (fun results l' => ∃ ms, Explained ops results ms ∧ l' = ⟨ms, ms⟩) ⟨[], []⟩ := by
  have hnil : ∃ ms, Explained [] [] ms ∧ (⟨[], []⟩ : Ledger) = ⟨ms, ms⟩ := ⟨[], .nil, rfl⟩
  refine Program.ensures_mapM
    (I := fun ops results (l' : Ledger) => ∃ ms, Explained ops results ms ∧ l' = ⟨ms, ms⟩) ?_ hnil
  rintro ops results _ op ⟨ms, hexplained, rfl⟩
  refine own_program.mono ?_
  rintro result _ ⟨new, haccounts, rfl⟩
  exact ⟨ms ++ new, .more hexplained haccounts, rfl⟩

theorem view_atWork (turns : List (Turn World)) :
    atWork.view turns =
      ⟨turns.flatMap fun t => writtenBy t.request t.reply, announcedIn turns⟩ := by
  induction turns using List.reverseRecOn with
  | nil => rfl
  | append_singleton turns t ih =>
      rw [Discipline.view_snoc, ih]
      simp [atWork, Ledger.note, announcedIn]

theorem makeMoves_written {turns : List (Turn World)} (h : ∀ t ∈ turns, t.Follows atWork) :
    MakeMoves turns (turns.flatMap fun t => writtenBy t.request t.reply) := by
  induction turns with
  | nil => exact .nil
  | cons t rest ih =>
      have hrest := ih fun u hu => h u (by simp [hu])
      have hmakes := (h t (by simp)).makes_iff
      rw [List.flatMap_cons]
      cases hw : writtenBy t.request t.reply with
      | nil =>
          refine .still ?_ hrest
          intro m hm
          rw [hmakes, hw] at hm
          cases hm
      | cons m more =>
          have hlength := Ledger.writtenBy_length t.request t.reply
          rw [hw] at hlength
          have hmore : more = [] := List.length_eq_zero_iff.1 (by simpa using hlength)
          subst hmore
          refine .move ?_ hrest
          intro m'
          rw [hmakes, hw, List.mem_singleton]

/-- What holds of members that worked side by side, from no records on. -/
structure Accounted (scripts : List (List Operation)) (turns : List (Turn World))
    (qs : List (Program (List Operation.Result))) (w : World) : Prop where
  /-- A stored record moves only from the state it is in to one that may follow, and never once it is
  deleting. -/
  allowed : ∀ t ∈ turns, ∀ m, t.Makes m → m.old.canMoveTo m.new = true ∧ m.old ≠ .deleting
  kept : ∀ id g, w.store.get id = .ok g → g.status.WellKept
  /-- The moves that a member makes are announced by it one by one. When it is done they are those of the
  entries that its operations committed. -/
  explained : ∀ i, ∃ moves, MakeMoves (turnsOf i turns) moves ∧
    (∃ due, moves = announcedIn (turnsOf i turns) ++ due ∧ due.length ≤ 1) ∧
    ∀ ops results, scripts[i]? = some ops → qs[i]? = some (.done results) →
      announcedIn (turnsOf i turns) = moves ∧ Explained ops results moves

/-- Once a member is done, its turns made the moves that it announced, and its results explain them. -/
theorem Accounted.makes {scripts : List (List Operation)} {turns : List (Turn World)}
    {qs : List (Program (List Operation.Result))} {w : World} (h : Accounted scripts turns qs w) {i : Nat}
    {ops : List Operation} {results : List Operation.Result} (hops : scripts[i]? = some ops)
    (hdone : qs[i]? = some (.done results)) :
    MakeMoves (turnsOf i turns) (announcedIn (turnsOf i turns)) ∧
      Explained ops results (announcedIn (turnsOf i turns)) := by
  rcases h.explained i with ⟨moves, hmakes, -, hend⟩
  rcases hend ops results hops hdone with ⟨rfl, hexplained⟩
  exact ⟨hmakes, hexplained⟩

/-- However the requests of the members are interleaved, and whichever calls of the store fail, all moves
of records are allowed and accounted for. -/
theorem interleaved_operations {scripts : List (List Operation)} {turns : List (Turn World)}
    {qs : List (Program (List Operation.Result))} {w : World}
    (h : Interleaved (World.Answers fun _ => True) (scripts.map Operation.script) .empty turns qs w) :
    Accounted scripts turns qs w := by
  have hkept := h.kept (D := atWork) (Q := fun i results l => ∀ ops, scripts[i]? = some ops →
    ∃ ms, Explained ops results ms ∧ l = ⟨ms, ms⟩) Store.kept_empty ?_
  · rcases hkept with ⟨hw, hturns, horderly, hprograms⟩
    refine ⟨?_, ?_, ?_⟩
    · intro t ht m hm
      have hfollows := hturns t ht
      rcases hfollows.allowed with ⟨l, hmay⟩
      exact Ledger.canMoveTo_of_written hmay ((hfollows.makes_iff m).1 hm)
    · intro id g hget
      have hw : w.store.Kept := hw
      rw [hw.sound.get_eq] at hget
      cases hr : w.store.record? id with
      | none =>
          rw [hr] at hget
          cases hget
      | some h =>
          rw [hr] at hget
          cases hget
          exact hw.records id g hr
    · intro i
      have hown : ∀ t ∈ turnsOf i turns, t.Follows atWork := fun t ht =>
        hturns t (List.mem_filter.1 ht).1
      have hmoves := makeMoves_written hown
      have hview := view_atWork (turnsOf i turns)
      -- The ledger of the member is what its turns wrote and announced.
      have hdue := horderly i
      rw [hview] at hdue
      refine ⟨_, hmoves, hdue, ?_⟩
      intro ops results hops hdone
      have hresult := hprograms i _ hdone
      rcases hresult ops hops with ⟨ms, hexplained, hledger⟩
      rw [hview] at hledger
      rcases Ledger.mk.inj hledger with ⟨hwritten, hannounced⟩
      rw [hwritten]
      exact ⟨hannounced, hexplained⟩
  · intro i p hp
    rw [List.getElem?_map] at hp
    cases hops : scripts[i]? with
    | none =>
        rw [hops] at hp
        cases hp
    | some ops =>
        rw [hops] at hp
        cases hp
        refine (own_script ops).mono ?_
        intro results l' hl ops' hops'
        rw [← Option.some.inj hops']
        exact hl

/-- Why a handle is locked by another member. -/
def brokenModules : LockReason := ⟨.moduleSyncFailed, 1, "no modules"⟩

/-- One member registers two handles. A second one makes the first of them ready while a third one locks it. A fourth
one makes the other handle ready while a fifth one switches its data on and deletes it. -/
def entangled : List (List Operation) :=
  let a := Handle.advised ⟨"a"⟩ default default
  let b := Handle.advised ⟨"b"⟩ default default
  [[.register "lcm" [a, b]], [.apply "lcm" [(a, .ready)]],
    [.apply "lcm" [({ a with status := { a.status with lockReason := some brokenModules } }, .locked)]],
    [.apply "lcm" [(b, .ready)]], [.setDataSync ⟨"b"⟩ true, .delete ⟨"b"⟩]]

/-- The first handle once it is locked. -/
def entangledHandle : Handle :=
  { Handle.advised ⟨"a"⟩ default default with
    status := ⟨.locked, some brokenModules, default, false, .unrequested⟩ }

/-- What the members are told. -/
def entangledResults : List (List Operation.Result) :=
  [[.batch ⟨[⟨"a"⟩, ⟨"b"⟩], [], []⟩],
    [.batch ⟨[], [], [(⟨"a"⟩, .concurrentModification ⟨"a"⟩ .advised)]⟩],
    [.batch ⟨[⟨"a"⟩], [], []⟩], [.batch ⟨[⟨"b"⟩], [], []⟩], [.change (.ok ()), .deletion (.ok ())]]

/-- The status of the other handle once it is ready. -/
def entangledReady : HandleStatus := ⟨.ready, none, default, false, .initial false⟩

/-- The stores that the members come to, one after the other, and what they are told there. -/
structure EntangledStores (s₁ s₂ s₃ s₄ s₅ : Store) : Prop where
  registered : Store.empty.perform
    (.insert [.advised ⟨"a"⟩ default default, .advised ⟨"b"⟩ default default]) = (.ok (), s₁)
  read : s₁.perform (.status ⟨"a"⟩) = (.ok (.advised default), s₁)
  locked : s₁.perform (.saveStatusIf ⟨"a"⟩ .advised entangledHandle.status) = (.ok true, s₂)
  refused : s₂.perform (.saveStatusIf ⟨"a"⟩ .advised entangledReady) = (.ok false, s₂)
  readOther : s₂.perform (.status ⟨"b"⟩) = (.ok (.advised default), s₂)
  made : s₂.perform (.saveStatusIf ⟨"b"⟩ .advised entangledReady) = (.ok true, s₃)
  readReady : s₃.perform (.status ⟨"b"⟩) = (.ok entangledReady, s₃)
  switched : s₃.perform (.saveStatusIf ⟨"b"⟩ .ready (entangledReady.setDataSync true default)) =
    (.ok true, s₄)
  deleted : s₄.perform (.delete ⟨"b"⟩) = (.ok (), s₅)
  left : s₅.get ⟨"a"⟩ = .ok entangledHandle
  gone : s₅.get ⟨"b"⟩ = .error (.notFound "b")

theorem exists_entangledStores : ∃ s₁ s₂ s₃ s₄ s₅, EntangledStores s₁ s₂ s₃ s₄ s₅ := by
  let a := Handle.advised ⟨"a"⟩ default default
  let b := Handle.advised ⟨"b"⟩ default default
  let s₁ := (Store.empty.putHandle a).putHandle b
  let s₂ := s₁.putHandle entangledHandle
  let s₃ := s₂.putHandle { b with status := entangledReady }
  let s₄ := s₃.putHandle { b with status := entangledReady.setDataSync true default }
  have sound₁ : s₁.Sound := (Store.sound_empty.putHandle a).putHandle b
  have sound₂ : s₂.Sound := sound₁.putHandle _
  have sound₃ : s₃.Sound := sound₂.putHandle _
  have sound₄ : s₄.Sound := sound₃.putHandle _
  have ha₁ : s₁.record? ⟨"a"⟩ = some a := by
    rw [Store.record?_putHandle, if_neg (by decide), Store.record?_putHandle, if_pos (by decide)]
  have ha₂ : s₂.record? ⟨"a"⟩ = some entangledHandle := by
    rw [Store.record?_putHandle, if_pos (by decide)]
  have hb₂ : s₂.record? ⟨"b"⟩ = some b := by
    rw [Store.record?_putHandle, if_neg (by decide), Store.record?_putHandle, if_pos (by decide)]
  have hb₃ : s₃.record? ⟨"b"⟩ = some { b with status := entangledReady } := by
    rw [Store.record?_putHandle, if_pos (by decide)]
  have ha₄ : s₄.record? ⟨"a"⟩ = some entangledHandle := by
    rw [Store.record?_putHandle, if_neg (by decide), Store.record?_putHandle, if_neg (by decide), ha₂]
  have hb₄ : s₄.record? ⟨"b"⟩ = some { b with status := entangledReady.setDataSync true default } := by
    rw [Store.record?_putHandle, if_pos (by decide)]
  have hdeleted := sound₄.perform_delete rfl hb₄
  have sound₅ := sound₄.perform (.delete ⟨"b"⟩)
  rw [hdeleted] at sound₅
  refine ⟨s₁, s₂, s₃, s₄, _, ⟨rfl, sound₁.perform_status ha₁, sound₁.perform_saveStatusIf ha₁ rfl _, ?_,
    sound₂.perform_status hb₂, sound₂.perform_saveStatusIf hb₂ rfl _, sound₃.perform_status hb₃,
    sound₃.perform_saveStatusIf hb₃ rfl _, hdeleted, ?_, ?_⟩⟩
  · rw [Store.perform, sound₂.replaceStatus_eq, ha₂]
    rfl
  · rw [sound₅.get_eq, Store.record?_erase, if_neg (by decide), ha₄]
  · rw [sound₅.get_eq, Store.record?_erase, if_pos (by decide)]

/-- The second member has read the state of its handle when the third one locks it, so that its own write is refused.
The move of the other handle stands, although that is changed and deleted before the move is announced. -/
theorem overtaken_run :
    ∃ turns w,
      Interleaved (World.Answers fun _ => True) (entangled.map Operation.script) .empty turns
        (entangledResults.map Program.done) w ∧
      turns.map Turn.member =
        [0, 0, 0, 0, 0, 0, 0, 0, 0, 1, 2, 2, 2, 2, 2, 2, 1, 1, 3, 3, 3, 4, 4, 4, 4, 3, 3, 3] ∧
      announcedIn (turnsOf 1 turns) = [] ∧
      announcedIn (turnsOf 2 turns) = [⟨⟨"a"⟩, .advised, .locked⟩] ∧
      announcedIn (turnsOf 3 turns) = [⟨⟨"b"⟩, .advised, .ready⟩] ∧
      w.store.get ⟨"a"⟩ = .ok entangledHandle ∧ w.store.get ⟨"b"⟩ = .error (.notFound "b") := by
  -- The stores are kept as names, so that a turn does not look into the store before it.
  obtain ⟨s₁, s₂, s₃, s₄, s₅, hs⟩ := exists_entangledStores
  have h₀ := @Interleaved.start _ _ (World.Answers fun _ => True) (entangled.map Operation.script) World.empty
  -- The first member registers the handles.
  obtain ⟨w₁, h₁, e₁⟩ := h₀.aside 0 rfl rfl
  obtain ⟨w₂, h₂, e₂⟩ := h₁.aside 0 e₁ rfl
  obtain ⟨w₃, h₃, e₃⟩ := h₂.call 0 e₂ rfl hs.registered
  obtain ⟨w₄, h₄, e₄⟩ := h₃.aside 0 e₃ rfl
  obtain ⟨w₅, h₅, e₅⟩ := h₄.aside 0 e₄ rfl
  obtain ⟨w₆, h₆, e₆⟩ := h₅.aside 0 e₅ rfl
  obtain ⟨w₇, h₇, e₇⟩ := h₆.aside 0 e₆ rfl
  obtain ⟨w₈, h₈, e₈⟩ := h₇.aside 0 e₇ rfl
  obtain ⟨w₉, h₉, e₉⟩ := h₈.aside 0 e₈ rfl
  have h₉ : Interleaved _ _ _ _
      (.done entangledResults[0] :: (entangled.drop 1).map Operation.script) w₉ := h₉
  -- The second one reads the status of its handle, which the third one locks before the second one writes.
  obtain ⟨w₁₀, h₁₀, e₁₀⟩ := h₉.call 1 e₉ rfl hs.read
  obtain ⟨w₁₁, h₁₁, e₁₁⟩ := h₁₀.call 2 e₁₀ rfl hs.read
  obtain ⟨w₁₂, h₁₂, e₁₂⟩ := h₁₁.aside 2 e₁₁ rfl
  obtain ⟨w₁₃, h₁₃, e₁₃⟩ := h₁₂.call 2 e₁₂ rfl hs.locked
  obtain ⟨w₁₄, h₁₄, e₁₄⟩ := h₁₃.aside 2 e₁₃ rfl
  obtain ⟨w₁₅, h₁₅, e₁₅⟩ := h₁₄.aside 2 e₁₄ rfl
  obtain ⟨w₁₆, h₁₆, e₁₆⟩ := h₁₅.aside 2 e₁₅ rfl
  obtain ⟨w₁₇, h₁₇, e₁₇⟩ := h₁₆.aside 1 e₁₆ rfl
  obtain ⟨w₁₈, h₁₈, e₁₈⟩ := h₁₇.call 1 e₁₇ rfl hs.refused
  have h₁₈ : Interleaved _ _ _ _
      ((entangledResults.take 3).map .done ++ (entangled.drop 3).map Operation.script) w₁₈ := h₁₈
  -- The fourth one makes the other handle ready. Before it says so the fifth one does all that it has to do.
  obtain ⟨w₁₉, h₁₉, e₁₉⟩ := h₁₈.call 3 e₁₈ rfl hs.readOther
  obtain ⟨w₂₀, h₂₀, e₂₀⟩ := h₁₉.aside 3 e₁₉ rfl
  obtain ⟨w₂₁, h₂₁, e₂₁⟩ := h₂₀.call 3 e₂₀ rfl hs.made
  obtain ⟨w₂₂, h₂₂, e₂₂⟩ := h₂₁.call 4 e₂₁ rfl hs.readReady
  obtain ⟨w₂₃, h₂₃, e₂₃⟩ := h₂₂.aside 4 e₂₂ rfl
  obtain ⟨w₂₄, h₂₄, e₂₄⟩ := h₂₃.call 4 e₂₃ rfl hs.switched
  obtain ⟨w₂₅, h₂₅, e₂₅⟩ := h₂₄.call 4 e₂₄ rfl hs.deleted
  obtain ⟨w₂₆, h₂₆, e₂₆⟩ := h₂₅.aside 3 e₂₅ rfl
  obtain ⟨w₂₇, h₂₇, e₂₇⟩ := h₂₆.aside 3 e₂₆ rfl
  obtain ⟨w₂₈, h₂₈, e₂₈⟩ := h₂₇.aside 3 e₂₇ rfl
  have h₂₈ : Interleaved _ _ _ _ (entangledResults.map .done) w₂₈ := h₂₈
  simp only [List.nil_append, List.cons_append] at h₂₈
  exact ⟨_, _, h₂₈, rfl, rfl, rfl, rfl, e₂₈ ▸ hs.left, e₂₈ ▸ hs.gone⟩

/-- What is written, what is announced and what is reported to be committed agree for each of the members. -/
theorem interleaved_operations_overtaken :
    ∃ turns qs w,
      Interleaved (World.Answers fun _ => True) (entangled.map Operation.script) .empty turns qs w ∧
      Accounted entangled turns qs w ∧
      qs = entangledResults.map Program.done ∧
      MakeMoves (turnsOf 1 turns) [] ∧
      MakeMoves (turnsOf 2 turns) [⟨⟨"a"⟩, .advised, .locked⟩] ∧
      Explained entangled[2] entangledResults[2] [⟨⟨"a"⟩, .advised, .locked⟩] ∧
      MakeMoves (turnsOf 3 turns) [⟨⟨"b"⟩, .advised, .ready⟩] ∧
      Explained entangled[3] entangledResults[3] [⟨⟨"b"⟩, .advised, .ready⟩] ∧
      w.store.get ⟨"a"⟩ = .ok entangledHandle ∧ entangledHandle.status.WellKept ∧
      w.store.get ⟨"b"⟩ = .error (.notFound "b") := by
  obtain ⟨turns, w, hrun, -, hrefused, hlocked, hmade, ha, hb⟩ := overtaken_run
  have haccounted := interleaved_operations hrun
  have hdone : ∀ (i : Nat) results, entangledResults[i]? = some results →
      (entangledResults.map Program.done)[i]? = some (Program.done results) := by
    intro i results hresults
    rw [List.getElem?_map, hresults, Option.map_some]
  have h₁ := haccounted.makes (i := 1) rfl (hdone 1 _ rfl)
  have h₂ := haccounted.makes (i := 2) rfl (hdone 2 _ rfl)
  have h₃ := haccounted.makes (i := 3) rfl (hdone 3 _ rfl)
  rw [hrefused] at h₁
  rw [hlocked] at h₂
  rw [hmade] at h₃
  exact ⟨turns, _, w, hrun, haccounted, rfl, h₁.1, h₂.1, h₂.2, h₃.1, h₃.2, ha,
    haccounted.kept _ _ ha, hb⟩

end CmInventory
