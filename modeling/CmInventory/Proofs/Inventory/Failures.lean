import CmInventory.Proofs.Inventory.Tales

/-!
# Failures in a row

A handle of which the plugin does not know the modules is locked, and the reason counts how often that happened
in a row. How often it did is told by the tale of the handle (`failures`). A locked handle keeps its status until
a member starts to advise locked handles again at a time when the handle has waited long enough
(`Happening.Frees`), or until it is removed. Only then may its plugin be asked again.

`Orderly` says this of a tale alone, and `Regular` of a tale with the record that goes with it. The lemmas of
`Regular` say what may happen next.
-/

namespace CmInventory

open Inventory

/-! ## Counting failures -/

/-- The number of failures in a row after another happening. -/
def Happening.count (n : Nat) : Happening → Nat
  | .failed _ => n + 1
  | .created _ | .found => 0
  | _ => n

/-- How often in a row, since the handle was created, its plugin failed when it was asked for modules. -/
def failures (tale : List Happening) : Nat :=
  tale.foldl Happening.count 0

theorem failures_append (tale more : List Happening) :
    failures (tale ++ more) = more.foldl Happening.count (failures tale) :=
  List.foldl_append

/-- The last failure that is counted, after which the handle was not created anew. -/
theorem exists_last_failed {tale : List Happening} {n : Nat} (h : failures tale = n + 1) :
    ∃ past e rest, tale = past ++ .failed e :: rest ∧ failures past = n ∧ ∀ s, .created s ∉ rest := by
  induction tale using List.reverseRecOn with
  | nil => cases h
  | append_singleton tale x ih =>
      rw [failures_append] at h
      have hbefore : failures tale = n + 1 → (∀ s, x ≠ .created s) →
          ∃ past e rest, tale ++ [x] = past ++ .failed e :: rest ∧ failures past = n ∧
            ∀ s, .created s ∉ rest := by
        intro hsame hx
        rcases ih hsame with ⟨past, e, rest, rfl, hpast, hrest⟩
        refine ⟨past, e, rest ++ [x], by simp, hpast, fun s hs => ?_⟩
        rcases List.mem_append.1 hs with hs | hs
        · exact hrest s hs
        · exact hx s (List.mem_singleton.1 hs).symm
      cases x with
      | failed e => exact ⟨tale, e, [], rfl, Nat.succ.inj h, fun s hs => by cases hs⟩
      | created s => cases h
      | found => cases h
      | _ => exact hbefore h fun _ => by simp

/-- A reason of a lock that counts so many failures. There is none without a failure. -/
def CountedBy (n : Nat) : Option LockReason → Prop
  | none => n = 0
  | some reason => 0 < n ∧ reason.category = .moduleSyncFailed ∧ reason.attempt.toNat = min n (UInt32.size - 1)

/-- Whether a status agrees with the number of failures. -/
def HandleStatus.Fits (n : Nat) (s : HandleStatus) : Prop :=
  match s.lifecycle with
  | .advised => CountedBy n s.lockReason
  | .locked => 0 < n ∧ CountedBy n s.lockReason
  | _ => s.lockReason = none

/-- The reason for another failure counts one more. -/
theorem CountedBy.failureReason {n : Nat} {s : HandleStatus} (h : CountedBy n s.lockReason)
    (message : String) : CountedBy (n + 1) (some (s.failureReason .moduleSyncFailed message)) := by
  refine ⟨Nat.succ_pos n, rfl, ?_⟩
  have hlast : ((s.lockReason.map LockReason.attempt).getD 0).toNat = min n (UInt32.size - 1) := by
    cases hreason : s.lockReason with
    | none =>
        rw [hreason] at h
        rw [show n = 0 from h]
        rfl
    | some reason =>
        rw [hreason] at h
        exact h.2.2
  change (LockReason.nextAttempt _).toNat = _
  have hnext : min (min n (UInt32.size - 1) + 1) (UInt32.size - 1) = min (n + 1) (UInt32.size - 1) := by
    omega
  rw [LockReason.nextAttempt, hlast, hnext, UInt32.toNat_ofNat_of_lt']
  exact Nat.lt_of_le_of_lt (Nat.min_le_right _ _) (by decide)

/-! ## Tales in order -/

/-- Whether the plugin is asked for modules. -/
def Happening.Asks : Happening → Prop
  | .found | .failed _ => True
  | _ => False

/-- What ends the wait of a handle that was locked with a status: a pass at a time when it has waited long
enough, or another life. -/
def Happening.Frees (s : HandleStatus) : Happening → Prop
  | .pass m now => s.isReadyForRetry now m.retryBase = true
  | .created _ => True
  | _ => False

/-- A handle that was locked with a status has to wait. -/
def Waits (s : HandleStatus) (tale : List Happening) : Prop :=
  s.lifecycle = .locked ∧ Since (· = .changed s) (Happening.Frees s) tale

/-- What has to come of something that happens after so many failures. -/
def Ensues (n : Nat) : Happening → List Happening → Prop
  | .failed e, rest => ∃ now s reason more, rest = .clock now :: .changed s :: more ∧ s.updatedAt = now ∧
      s.lifecycle = .locked ∧ s.lockReason = some reason ∧ reason.message = e.message ∧
        CountedBy (n + 1) (some reason)
  | .found, rest => ∃ now s more, rest = .clock now :: .changed s :: more ∧ s.updatedAt = now ∧
      s.lifecycle = .ready ∧ s.lockReason = none
  | .changed s, _ => s.Fits n
  | .created s, _ => s.Fits 0 ∧ s.lifecycle = .advised
  | _, _ => True

theorem Ensues.append {n : Nat} {x : Happening} {rest : List Happening} (h : Ensues n x rest)
    (more : List Happening) : Ensues n x (rest ++ more) := by
  cases x with
  | failed e =>
      rcases h with ⟨now, s, reason, tail, rfl, hall⟩
      exact ⟨now, s, reason, tail ++ more, rfl, hall⟩
  | found =>
      rcases h with ⟨now, s, tail, rfl, hall⟩
      exact ⟨now, s, tail ++ more, rfl, hall⟩
  | _ => exact h

/-- Everything that has to come does, and no plugin is asked while its handle has to wait. -/
structure Orderly (tale : List Happening) : Prop where
  ensues : ∀ past x rest, tale = past ++ x :: rest → Ensues (failures past) x rest
  patient : ∀ past x rest, tale = past ++ x :: rest → x.Asks → ∀ s, ¬ Waits s past

theorem orderly_nil : Orderly [] :=
  ⟨fun past x rest h => by simp at h, fun past x rest h => by simp at h⟩

/-- A tale goes on in order. -/
theorem Orderly.append {tale more : List Happening} (h : Orderly tale)
    (hensues : ∀ past x rest, more = past ++ x :: rest → Ensues (failures (tale ++ past)) x rest)
    (hpatient : ∀ past x rest, more = past ++ x :: rest → x.Asks → ∀ s, ¬ Waits s (tale ++ past)) :
    Orderly (tale ++ more) := by
  have hsplit : ∀ past x rest, tale ++ more = past ++ x :: rest →
      (∃ left, tale = past ++ x :: left ∧ rest = left ++ more) ∨
        ∃ left, more = left ++ x :: rest ∧ past = tale ++ left := by
    intro past x rest heq
    rcases List.append_eq_append_iff.1 heq with ⟨left, hpast, hmore⟩ | ⟨left, htale, hrest⟩
    · exact Or.inr ⟨left, hmore, hpast⟩
    · cases left with
      | nil => exact Or.inr ⟨[], by simpa using hrest.symm, by simpa using htale.symm⟩
      | cons y left =>
          rcases List.cons.inj hrest with ⟨rfl, hleft⟩
          exact Or.inl ⟨left, htale, hleft⟩
  refine ⟨?_, ?_⟩
  · intro past x rest heq
    rcases hsplit past x rest heq with ⟨left, htale, rfl⟩ | ⟨left, hmore, rfl⟩
    · exact (h.ensues past x left htale).append more
    · exact hensues left x rest hmore
  · intro past x rest heq hasks
    rcases hsplit past x rest heq with ⟨left, htale, rfl⟩ | ⟨left, hmore, rfl⟩
    · exact h.patient past x left htale hasks
    · exact hpatient left x rest hmore hasks

/-- Something happens of which nothing has to come. -/
theorem Orderly.snoc {tale : List Happening} (h : Orderly tale) {x : Happening}
    (hensues : Ensues (failures tale) x []) (hasks : ¬ x.Asks) : Orderly (tale ++ [x]) := by
  have hone : ∀ past y rest, [x] = past ++ y :: rest → past = [] ∧ y = x ∧ rest = [] := by
    intro past y rest heq
    cases past with
    | nil =>
        rcases List.cons.inj heq with ⟨rfl, rfl⟩
        exact ⟨rfl, rfl, rfl⟩
    | cons z past => simp at heq
  refine h.append ?_ ?_
  · intro past y rest heq
    rcases hone past y rest heq with ⟨rfl, rfl, rfl⟩
    simpa using hensues
  · intro past y rest heq hy
    rcases hone past y rest heq with ⟨rfl, rfl, rfl⟩
    exact absurd hy hasks

theorem waits_snoc {s : HandleStatus} {tale : List Happening} {x : Happening} :
    Waits s (tale ++ [x]) ↔ s.lifecycle = .locked ∧ (x = .changed s ∨ Waits s tale ∧ ¬ x.Frees s) := by
  rw [Waits, since_snoc, Waits]
  exact ⟨fun h => ⟨h.1, h.2.imp_right fun hold => ⟨⟨h.1, hold.1⟩, hold.2⟩⟩,
    fun h => ⟨h.1, h.2.imp_right fun hold => ⟨hold.1.2, hold.2⟩⟩⟩

/-! ## A handle and its tale -/

/-- What holds of a handle and its tale between the steps of a member. -/
structure Regular (id : HandleId) (s : Recounted) : Prop where
  sound : s.1.store.Sound
  orderly : Orderly s.2
  fits : ∀ h, s.1.store.record? id = some h → h.status.Fits (failures s.2)
  /-- A handle that has to wait keeps its status, unless it is removed. -/
  waits : ∀ status, Waits status s.2 → ∀ h, s.1.store.record? id = some h →
    h.status = status ∨ h.lifecycle = .deleting

section

variable {id : HandleId} {w w' : World} {tale : List Happening}

/-- A handle that is neither locked nor deleting does not wait. -/
theorem Regular.not_waits (hw : Regular id (w, tale)) {h : Handle} (hr : w.store.record? id = some h)
    (hlocked : h.lifecycle ≠ .locked) (hdeleting : h.lifecycle ≠ .deleting) (s : HandleStatus) :
    ¬ Waits s tale := by
  intro hwaits
  rcases hw.waits s hwaits h hr with hstatus | hlife
  · exact hlocked ((congrArg HandleStatus.lifecycle hstatus).trans hwaits.1)
  · exact hdeleting hlife

/-- Something happens that has nothing to do with the record. -/
theorem Regular.aside (hw : Regular id (w, tale)) {x : Happening}
    (hx : (∃ now, x = .clock now) ∨ ∃ m now, x = .pass m now) : Regular id (w, tale ++ [x]) := by
  have hplain : failures (tale ++ [x]) = failures tale ∧ Ensues (failures tale) x [] ∧ ¬ x.Asks ∧
      ∀ s, x ≠ .changed s := by
    rw [failures_append]
    rcases hx with ⟨now, rfl⟩ | ⟨m, now, rfl⟩ <;>
      exact ⟨rfl, trivial, fun hasks => hasks, fun s hs => by cases hs⟩
  rcases hplain with ⟨hcount, hensues, hasks, hchanged⟩
  refine ⟨hw.sound, hw.orderly.snoc hensues hasks, ?_, ?_⟩
  · intro h hr
    rw [hcount]
    exact hw.fits h hr
  · intro status hwaits h hr
    rcases (waits_snoc.1 hwaits).2 with heq | ⟨hwaits, -⟩
    · exact absurd heq (hchanged status)
    · exact hw.waits status hwaits h hr

/-- The status of the record is as it was. -/
theorem Regular.of_status (hw : Regular id (w, tale)) (hs : w'.store.Sound)
    (hsame : (w'.store.record? id).map Handle.status = (w.store.record? id).map Handle.status) :
    Regular id (w', tale) := by
  have hback : ∀ h, w'.store.record? id = some h →
      ∃ g, w.store.record? id = some g ∧ g.status = h.status := by
    intro h hr
    rw [hr, Option.map_some, eq_comm, Option.map_eq_some_iff] at hsame
    exact hsame
  refine ⟨hs, hw.orderly, ?_, ?_⟩
  · intro h hr
    rcases hback h hr with ⟨g, hg, hstatus⟩
    exact hstatus ▸ hw.fits g hg
  · intro status hwaits h hr
    rcases hback h hr with ⟨g, hg, hstatus⟩
    have hkept := hw.waits status hwaits g hg
    rwa [Handle.lifecycle, hstatus] at hkept

theorem Regular.of_store (hw : Regular id (w, tale)) (h : w'.store = w.store) : Regular id (w', tale) :=
  hw.of_status (h ▸ hw.sound) (by rw [h])

/-- A record is stored that was not there. -/
theorem Regular.created (hw : Regular id (w, tale)) (hs : w'.store.Sound) {h : Handle}
    (hr : w'.store.record? id = some h) (hadvised : h.lifecycle = .advised)
    (hreason : h.status.lockReason = none) : Regular id (w', tale ++ [.created h.status]) := by
  have hcount : failures (tale ++ [.created h.status]) = 0 := failures_append _ _
  have hlife : h.status.lifecycle = .advised := hadvised
  have hfits : h.status.Fits 0 := by
    rw [HandleStatus.Fits, hlife, hreason]
    exact rfl
  refine ⟨hs, hw.orderly.snoc ⟨hfits, hadvised⟩ fun hasks => hasks, ?_, ?_⟩
  · intro g hg
    rw [hr, Option.some.injEq] at hg
    rw [hcount, ← hg]
    exact hfits
  · intro status hwaits g hg
    rcases (waits_snoc.1 hwaits).2 with hchanged | ⟨-, hfree⟩
    · cases hchanged
    · exact absurd trivial hfree

/-- The record goes. -/
theorem Regular.removed (hw : Regular id (w, tale)) (hs : w'.store.Sound)
    (hr : w'.store.record? id = none) : Regular id (w', tale ++ [.removed]) := by
  refine ⟨hs, hw.orderly.snoc trivial fun hasks => hasks, ?_, ?_⟩ <;>
  · intros
    rename_i h hh
    rw [hr] at hh
    cases hh

/-- The record stays or goes. -/
theorem Regular.fewer (hw : Regular id (w, tale)) (hs : w'.store.Sound)
    (h : w'.store.record? id = w.store.record? id ∨ w'.store.record? id = none) :
    Regular id (w', tale ++ Happening.ofRecords (w.store.record? id) (w'.store.record? id)) := by
  by_cases hsame : w'.store.record? id = w.store.record? id
  · rw [Happening.ofRecords_of_status (by rw [hsame]), List.append_nil]
    exact hw.of_status hs (by rw [hsame])
  · have hnone := h.resolve_left hsame
    cases hr : w.store.record? id with
    | none => exact absurd (hnone.trans hr.symm) hsame
    | some g =>
        rw [hnone]
        exact hw.removed hs hnone

/-- The record gets another status. A handle that has to wait may only be removed. -/
theorem Regular.changed (hw : Regular id (w, tale)) (hs : w'.store.Sound) {h : Handle}
    (hr : w'.store.record? id = some h) (hfits : h.status.Fits (failures tale))
    (hfree : h.lifecycle = .deleting ∨ ∀ s, ¬ Waits s tale) :
    Regular id (w', tale ++ [.changed h.status]) := by
  have hcount : failures (tale ++ [.changed h.status]) = failures tale := failures_append _ _
  refine ⟨hs, hw.orderly.snoc hfits fun hasks => hasks, ?_, ?_⟩
  · intro g hg
    rw [hr, Option.some.injEq] at hg
    rw [hcount, ← hg]
    exact hfits
  · intro status hwaits g hg
    rw [hr, Option.some.injEq] at hg
    rw [← hg]
    rcases (waits_snoc.1 hwaits).2 with hchanged | ⟨hwaits, -⟩
    · exact Or.inl (Happening.changed.inj hchanged)
    · exact Or.inr (hfree.resolve_right fun hnone => hnone status hwaits)

/-- The plugin of an advised handle is asked, and what has to come of it does at once. -/
theorem Regular.asked (hw : Regular id (w, tale)) (hs : w'.store.Sound) {x : Happening} {now : Instant}
    {h : Handle} (hr : w'.store.record? id = some h) (hwas : ∀ s, ¬ Waits s tale)
    (hx : Ensues (failures tale) x [.clock now, .changed h.status])
    (hfits : h.status.Fits (failures (tale ++ [x]))) (hasks : x.Asks) :
    Regular id (w', tale ++ [x, .clock now, .changed h.status]) := by
  have hcount : failures (tale ++ [x, .clock now]) = failures (tale ++ [x]) := by
    simp [failures_append, Happening.count]
  have hcount' : failures (tale ++ [x, .clock now, .changed h.status]) = failures (tale ++ [x]) := by
    simp [failures_append, Happening.count]
  have hthree : ∀ past y rest, [x, .clock now, .changed h.status] = past ++ y :: rest →
      (past = [] ∧ y = x ∧ rest = [.clock now, .changed h.status]) ∨
        (past = [x] ∧ y = .clock now) ∨ (past = [x, .clock now] ∧ y = .changed h.status) := by
    intro past y rest heq
    rcases past with _ | ⟨a, _ | ⟨b, _ | ⟨c, past⟩⟩⟩ <;> simp_all
  refine ⟨hs, hw.orderly.append ?_ ?_, ?_, ?_⟩
  · intro past y rest heq
    rcases hthree past y rest heq with ⟨rfl, rfl, rfl⟩ | ⟨rfl, rfl⟩ | ⟨rfl, rfl⟩
    · simpa using hx
    · trivial
    · rw [hcount]
      exact hfits
  · intro past y rest heq hy s
    rcases hthree past y rest heq with ⟨rfl, rfl, rfl⟩ | ⟨rfl, rfl⟩ | ⟨rfl, rfl⟩
    · simpa using hwas s
    · exact hy.elim
    · exact hy.elim
  · intro g hg
    rw [hr, Option.some.injEq] at hg
    rw [hcount', ← hg]
    exact hfits
  · intro status hwaits g hg
    rw [hr, Option.some.injEq] at hg
    rw [← hg]
    rw [show tale ++ [x, .clock now, .changed h.status] =
      tale ++ [x] ++ [.clock now] ++ [.changed h.status] by simp] at hwaits
    rcases (waits_snoc.1 hwaits).2 with hchanged | ⟨hwaits, -⟩
    · exact Or.inl (Happening.changed.inj hchanged)
    rcases (waits_snoc.1 hwaits).2 with hclock | ⟨hwaits, -⟩
    · cases hclock
    rcases (waits_snoc.1 hwaits).2 with hx' | ⟨hwaits, -⟩
    · rw [hx'] at hasks
      exact hasks.elim
    · exact absurd hwaits (hwas status)

end

end CmInventory
