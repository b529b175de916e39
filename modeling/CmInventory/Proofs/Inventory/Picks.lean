import CmInventory.Proofs.Handle.Waiting
import CmInventory.Proofs.Inventory.Demands
import CmInventory.Proofs.Store.Selections

/-!
# What a cycle picks

A selection gives the handles that a store holds, and of these one is drawn that was not visited. Alone, a
cycle therefore picks a stored handle that is due for its kind of work (`HandleStatus.IsDue`), and ends only
when there is none left that it has not visited (`Picked`).
-/

namespace CmInventory

/-- Whether a handle is due for a kind of work. -/
def HandleStatus.IsDue (s : HandleStatus) : SyncKind → Prop
  | .data => s.lifecycle = .ready ∧ s.syncState = .unsynchronized
  | .modules => s.lifecycle = .advised

/-- What comes of a selection in a store. -/
def Picked (kind : SyncKind) (visited : List HandleId) (s : Store) :
    Except InventoryError (Option Handle) → Prop
  | .ok (some h) => s.record? h.id = some h ∧ h.status.IsDue kind ∧ h.id ∉ visited
  | .ok none => ∀ h, s.record? h.id = some h → h.status.IsDue kind → h.id ∈ visited
  | .error _ => False

namespace Inventory

variable {α : Type} {w : World}

theorem ensures_lift_draw {items : List α} {Q : Except InventoryError (Option (α × List α)) → World → Prop}
    (hnone : items = [] → Q (.ok none) w)
    (hdrawn : ∀ item others w', w.Same w' → (item :: others).Perm items →
      Q (.ok (some (item, others))) w') :
    (Action.lift (Program.draw items)).run.Ensures .alone Q w := by
  rw [Action.run_lift, Program.ensures_bind]
  refine Program.ensures_draw (fun _ => trivial) hnone ?_
  intro item others last i w' hperm hans
  have hquiet : (Request.choose last).IsQuiet := trivial
  rcases World.Answers.quiet hquiet hans with ⟨hstore, hpub⟩
  exact hdrawn item others w' ⟨hstore, hpub⟩ hperm

theorem ensures_pickAdvised {visited : List HandleId} (hs : w.store.Sound) :
    (pickAdvised visited).run.Ensures .alone
      (fun picked w' => w.Same w' ∧ Picked .modules visited w.store picked) w := by
  rcases hs.byLifecycle_eq .advised with ⟨found, hfound, -, hmem⟩
  rw [pickAdvised, Action.ensures_bind, Action.run_store, Program.ensures_bind]
  refine ensures_read (fun hdel => hdel) rfl ?_
  intro w₁ h₁
  rw [show (w.store.perform (.byLifecycle .advised)).1 = .ok found from hfound]
  change Action.Goes _ _ _ (.ok found) w₁
  rw [Action.goes_ok, Action.ensures_bind]
  refine ensures_lift_draw ?_ ?_
  · intro hnone
    refine ⟨h₁, fun h hr hdue => ?_⟩
    by_contra hout
    have hleft : h ∈ found.filter fun h => !visited.contains h.id :=
      List.mem_filter.2 ⟨(hmem h).2 ⟨hr, hdue⟩, by simpa using hout⟩
    rw [hnone] at hleft
    cases hleft
  · intro h others w₂ h₂ hperm
    rcases List.mem_filter.1 (hperm.mem_iff.1 List.mem_cons_self) with ⟨hin, hout⟩
    rcases (hmem h).1 hin with ⟨hr, hdue⟩
    exact ⟨h₁.trans h₂, hr, hdue, by simpa using hout⟩

/-- What the look at the drawn handles gives: one of them that is stored and ready, if there is one. -/
def ReadyAmong (ids : List HandleId) (s : Store) : Except InventoryError (Option Handle) → Prop
  | .ok (some h) => s.record? h.id = some h ∧ h.lifecycle = .ready ∧ h.id ∈ ids
  | .ok none => ∀ h, s.record? h.id = some h → h.lifecycle = .ready → h.id ∉ ids
  | .error _ => False

theorem ensures_firstReady {bound : Nat} {ids : List HandleId} (hs : w.store.Sound)
    (hbound : ids.length ≤ bound) :
    (firstReady bound ids).run.Ensures .alone
      (fun found w' => w.Same w' ∧ ReadyAmong ids w.store found) w := by
  induction bound generalizing ids w with
  | zero =>
      obtain rfl : ids = [] := List.length_eq_zero_iff.1 (Nat.le_zero.1 hbound)
      exact ⟨.refl w, by simp [ReadyAmong]⟩
  | succ bound ih =>
      rw [firstReady, Action.ensures_bind]
      refine ensures_lift_draw ?_ ?_
      · rintro rfl
        exact ⟨.refl w, by simp [ReadyAmong]⟩
      · intro id others w₁ h₁ hperm
        have hshorter : others.length ≤ bound := by
          have := hperm.length_eq
          simp only [List.length_cons] at this
          omega
        have hs₁ : w₁.store.Sound := h₁.store ▸ hs
        -- A handle that is not there or not ready is passed over.
        have hpass : ∀ w₂ : World, w₁.Same w₂ →
            (∀ h, w.store.record? h.id = some h → h.lifecycle = .ready → h.id ≠ id) →
            (firstReady bound others).run.Ensures .alone
              (fun found w' => w.Same w' ∧ ReadyAmong ids w.store found) w₂ := by
          intro w₂ h₂ hid
          have h₂ := h₁.trans h₂
          refine (ih (h₂.store ▸ hs) hshorter).mono ?_
          rintro found w' ⟨h₃, hfound⟩
          rw [h₂.store] at hfound
          refine ⟨h₂.trans h₃, ?_⟩
          rcases found with e | _ | h
          · exact hfound
          · intro h hr hready hin
            rcases List.mem_cons.1 (hperm.mem_iff.2 hin) with heq | hin
            · exact hid h hr hready heq
            · exact hfound h hr hready hin
          · exact ⟨hfound.1, hfound.2.1, hperm.mem_iff.1 (List.mem_cons_of_mem _ hfound.2.2)⟩
        rw [Action.goes_ok, Action.ensures_bind, Action.run_lift, Program.ensures_bind]
        refine ensures_read (fun hdel => hdel) rfl ?_
        intro w₂ h₂
        have hget : (w₁.store.perform (.get id)).1 = w₁.store.get id := rfl
        rw [hget, hs₁.get_eq, h₁.store]
        cases hr : w.store.record? id with
        | none =>
            refine hpass w₂ h₂ fun h hh _ hid => ?_
            rw [hid, hr] at hh
            cases hh
        | some g =>
            have hid := hs.id_of_record? hr
            subst hid
            change ((if g.lifecycle = .ready then _ else _ : Action _)).run.Ensures _ _ _
            split
            · rename_i hready
              exact ⟨h₁.trans h₂, hr, hready, hperm.mem_iff.1 List.mem_cons_self⟩
            · rename_i hready
              refine hpass w₂ h₂ fun h hh hready' hid => hready ?_
              rw [hid, hr, Option.some.injEq] at hh
              rw [hh]
              exact hready'

theorem ensures_pickUnsynchronized {visited : List HandleId} (hs : w.store.Sound) :
    (pickUnsynchronized visited).run.Ensures .alone
      (fun picked w' => w.Same w' ∧ Picked .data visited w.store picked) w := by
  rcases hs.bySyncState_eq .unsynchronized with ⟨found, hfound, -, hmem⟩
  rw [pickUnsynchronized, Action.ensures_bind, Action.run_store, Program.ensures_bind]
  refine ensures_read (fun hdel => hdel) rfl ?_
  intro w₁ h₁
  rw [show (w.store.perform (.bySyncState .unsynchronized)).1 = .ok found from hfound]
  have hids : ∀ id, id ∈ (found.map (·.id)).filter (fun id => !visited.contains id) ↔
      (∃ h, w.store.record? h.id = some h ∧ h.status.syncState = .unsynchronized ∧ h.id = id) ∧
        id ∉ visited := by
    intro id
    simp [List.mem_filter, List.mem_map, hmem, and_assoc]
  refine (ensures_firstReady (h₁.store ▸ hs) (Nat.le_refl _)).mono ?_
  rintro picked w₂ ⟨h₂, hpicked⟩
  rw [h₁.store] at hpicked
  refine ⟨h₁.trans h₂, ?_⟩
  rcases picked with e | _ | h
  · exact hpicked
  · intro h hr hdue
    by_contra hout
    exact hpicked h hr hdue.1 ((hids h.id).2 ⟨⟨h, hr, hdue.2, rfl⟩, hout⟩)
  · rcases hpicked with ⟨hr, hready, hin⟩
    rcases (hids h.id).1 hin with ⟨⟨g, hg, hbehind, hid⟩, hout⟩
    rw [hid, hr, Option.some.injEq] at hg
    exact ⟨hr, ⟨hready, hg ▸ hbehind⟩, hout⟩

/-- A cycle picks a stored handle that is due and was not visited, and none only if there is none. -/
theorem ensures_pick {kind : SyncKind} {visited : List HandleId} (hs : w.store.Sound) :
    (pick kind visited).run.Ensures .alone
      (fun picked w' => w.Same w' ∧ Picked kind visited w.store picked) w := by
  cases kind with
  | data => exact ensures_pickUnsynchronized hs
  | modules => exact ensures_pickAdvised hs

/-! ## Handles to be advised again -/

/-- The handles that are advised again are those that are locked for a reason and may be tried again. -/
theorem ensures_dueForRetry {now : Instant} {base : Interval} (hs : w.store.Sound) :
    (dueForRetry now base).run.Ensures .alone
      (fun result w' => w.Same w' ∧ ∃ due, result = .ok due ∧ (due.map (·.id)).Nodup ∧
        ∀ h, h ∈ due ↔ w.store.record? h.id = some h ∧ h.status.lockReason ≠ none ∧
          h.status.isReadyForRetry now base = true) w := by
  rcases hs.byLockCategory_eq .moduleSyncFailed with ⟨failed, hfailed, hnodup, hmem⟩
  rcases hs.byLockCategory_eq .moduleUpgradeFailed with ⟨upgrades, hupgrades, hnodup', hmem'⟩
  rw [dueForRetry, Action.ensures_bind, Action.run_store, Program.ensures_bind]
  refine ensures_read (fun hdel => hdel) rfl fun w₁ h₁ => ?_
  rw [show (w.store.perform (.byLockCategory .moduleSyncFailed)).1 = .ok failed from hfailed]
  change Action.Goes _ _ _ (.ok failed) w₁
  rw [Action.goes_ok, Action.ensures_bind, Action.run_store, Program.ensures_bind]
  refine ensures_read (fun hdel => hdel) rfl fun w₂ h₂ => ?_
  rw [h₁.store, show (w.store.perform (.byLockCategory .moduleUpgradeFailed)).1 = .ok upgrades from hupgrades]
  refine ⟨h₁.trans h₂, _, rfl, ?_, ?_⟩
  · refine List.Nodup.sublist (List.Sublist.map _ List.filter_sublist) ?_
    rw [List.map_append]
    refine List.nodup_append.2 ⟨hnodup, hnodup', ?_⟩
    -- The record of a handle has one reason, and the reason one category.
    rintro id hid other hother rfl
    rcases List.mem_map.1 hid with ⟨g, hg, rfl⟩
    rcases List.mem_map.1 hother with ⟨h, hh, heq⟩
    rcases (hmem g).1 hg with ⟨hr, -, reason, hreason, hcategory⟩
    rcases (hmem' h).1 hh with ⟨hr', -, reason', hreason', hcategory'⟩
    rw [heq, hr, Option.some.injEq] at hr'
    rw [← hr', hreason, Option.some.injEq] at hreason'
    rw [← hreason', hcategory] at hcategory'
    cases hcategory'
  · intro h
    rw [List.mem_filter, List.mem_append, hmem, hmem']
    constructor
    · rintro ⟨⟨hr, -, reason, hreason, -⟩ | ⟨hr, -, reason, hreason, -⟩, hready⟩
      all_goals exact ⟨hr, by rw [hreason]; exact Option.some_ne_none _, hready⟩
    · rintro ⟨hr, hsome, hready⟩
      rcases Option.ne_none_iff_exists'.1 hsome with ⟨reason, hreason⟩
      have hrule := (HandleStatus.isReadyForRetry_iff hreason).1 hready
      rcases hrule.failed with hcategory | hcategory
      · exact ⟨Or.inl ⟨hr, hrule.locked, reason, hreason, hcategory⟩, hready⟩
      · exact ⟨Or.inr ⟨hr, hrule.locked, reason, hreason, hcategory⟩, hready⟩

/-! ## Cycles -/

/-- What picking keeps, and a visit to a stored handle that is due, a cycle keeps. -/
theorem ensures_visits {τ : Type} {E : Setting τ} (f : τ → World) {I : τ → Prop} {kind : SyncKind}
    {visit : Handle → Program (Except InventoryError Unit)}
    (hpick : ∀ visited t, I t → (pick kind visited).run.Ensures E
      (fun picked t' => I t' ∧ Picked kind visited (f t').store picked) t)
    (hvisit : ∀ h t, I t → (f t).store.record? h.id = some h → h.status.IsDue kind →
      (visit h).Ensures E (fun _ => I) t)
    {bound : Nat} {visited : List HandleId} {report : CycleReport} {t : τ} (ht : I t) :
    (visitAll (pick kind) visit bound visited report).Ensures E (fun _ => I) t := by
  induction bound generalizing visited report t with
  | zero => exact ht
  | succ bound ih =>
      rw [visitAll]
      refine (hpick visited t ht).bind ?_
      rintro picked v ⟨hv, hpicked⟩
      rcases picked with e | _ | h
      · exact hv
      · exact hv
      · exact (hvisit h v hv hpicked.1 hpicked.2.1).bind fun _ _ hu => ih hu

theorem ensures_visitAll {kind : SyncKind} {visit : Handle → Program (Except InventoryError Unit)}
    {I : World → Prop} (hsound : ∀ v, I v → v.store.Sound) (hsame : ∀ v v', I v → v.Same v' → I v')
    (hvisit : ∀ h v, I v → v.store.record? h.id = some h → h.status.IsDue kind →
      (visit h).Ensures .alone (fun _ => I) v)
    {bound : Nat} {visited : List HandleId} {report : CycleReport} (hw : I w) :
    (visitAll (pick kind) visit bound visited report).Ensures .alone (fun _ => I) w := by
  refine ensures_visits (fun v => v) (fun visited v hv => ?_) hvisit hw
  refine (ensures_pick (hsound v hv)).mono ?_
  rintro picked v' ⟨hv', hpicked⟩
  exact ⟨hsame v v' hv hv', hv'.store.symm ▸ hpicked⟩

end Inventory
end CmInventory
