import CmInventory.Proofs.Store.Records
import Mathlib.Data.List.Basic
import Mathlib.Data.List.Nodup
import Mathlib.Data.Set.List

/-!
# Selections of handles

A selection looks at the names that stand beside the records. In a sound store these were written with the
records, so that a selection by rows is one by records (`Store.Sound.select_eq`): it succeeds, finds a
handle if and only if it is stored and selected, and finds no id twice. The numbers by lifecycle state are those
of the selections (`Store.Sound.countByLifecycle_eq`). A store of one record (`Store.HoldsOnly`) finds it or nothing.
-/

namespace CmInventory

theorem Lifecycle.name_inj {a b : Lifecycle} : a.name = b.name ↔ a = b := by
  cases a <;> cases b <;> decide

theorem SyncState.name_inj {a b : SyncState} : a.name = b.name ↔ a = b := by
  cases a <;> cases b <;> decide

theorem LockCategory.name_inj {a b : LockCategory} : a.name = b.name ↔ a = b := by
  cases a <;> cases b <;> decide

/-- The category of a handle that is locked for a reason. -/
theorem HandleRow.lockCategory_ofHandle (h : Handle) (category : LockCategory) :
    (ofHandle h).lifecycle = Lifecycle.locked.name ∧ (ofHandle h).lockCategory = some category.name ↔
      h.lifecycle = .locked ∧ ∃ reason, h.status.lockReason = some reason ∧ reason.category = category := by
  refine Iff.trans (and_congr_left' Lifecycle.name_inj) (and_congr_right fun hlocked => ?_)
  have hlocked : h.status.lifecycle = .locked := hlocked
  simp [ofHandle, lockCategoryOf, hlocked, Option.map_eq_some_iff, LockCategory.name_inj]

/-- A list of what a function gives is the image of a list. -/
theorem exists_map_eq {α β : Type} {f : α → β} {ys : List β} (h : ∀ y ∈ ys, ∃ x, f x = y) :
    ∃ xs : List α, ys = xs.map f := by
  have hrange : ys ∈ Set.range (List.map f) := by
    rw [Set.range_list_map]
    exact h
  exact hrange.imp fun _ => Eq.symm

/-- What can be read back one by one can be read back as a list. -/
theorem mapM_readBack {α β ε : Type} {read : α → Except ε β} {write : β → α}
    (hread : ∀ b, read (write b) = .ok b) (bs : List β) : (bs.map write).mapM read = .ok bs := by
  induction bs with
  | nil => rfl
  | cons b rest ih =>
      rw [List.map_cons, List.mapM_cons, hread, ih]
      rfl

namespace Store

variable {s : Store} {h : Handle}

/-- The row of a handle under its id. -/
def entryOf (h : Handle) : String × HandleRow :=
  (h.id.text, .ofHandle h)

theorem entryOf_injective : Function.Injective entryOf := by
  intro g h heq
  have hrow := congrArg HandleRow.handle (Prod.mk.inj heq).2
  simpa [HandleRow.handle_ofHandle] using hrow

theorem Sound.mem_entries (hs : s.Sound) : entryOf h ∈ s.handles.entries ↔ s.record? h.id = some h := by
  rw [entryOf, Dictionary.mem_entries_iff, hs.find?_eq, Option.map_eq_some_iff]
  constructor
  · rintro ⟨g, hr, hrow⟩
    have hid := hs.id_of_record? hr
    obtain rfl : g = h := entryOf_injective (Prod.ext (congrArg HandleId.text hid) hrow)
    exact hr
  · exact fun hr => ⟨h, hr, rfl⟩

/-- A selection finds the stored handles whose rows satisfy the condition, each of them once. -/
theorem Sound.select_eq (hs : s.Sound) (p : HandleRow → Bool) :
    ∃ found, s.select p = .ok found ∧ (found.map (·.id)).Nodup ∧
      ∀ h, h ∈ found ↔ s.record? h.id = some h ∧ p (.ofHandle h) = true := by
  have hvalues : s.handles.values.filter p = (s.handles.entries.filter fun e => p e.2).map (·.2) := by
    rw [Dictionary.values, List.filter_map]
    rfl
  obtain ⟨found, heq⟩ : ∃ found : List Handle, s.handles.entries.filter (fun e => p e.2) = found.map entryOf := by
    refine exists_map_eq fun e he => ?_
    rcases hs e.1 e.2 (Dictionary.mem_entries_iff.1 (List.mem_filter.1 he).1) with ⟨h, hid, hrow⟩
    exact ⟨h, Prod.ext hid hrow.symm⟩
  have hfound : s.select p = .ok found := by
    rw [select, hvalues, heq, List.map_map]
    exact mapM_readBack HandleRow.handle_ofHandle found
  refine ⟨found, hfound, ?_, ?_⟩
  · -- The keys of the entries are different, and they are the ids of the handles.
    have hkeys : (found.map entryOf).Pairwise fun a b => a.1 < b.1 := heq ▸ s.handles.ascending.filter _
    refine List.pairwise_map.2 ((List.pairwise_map.1 hkeys).imp ?_)
    intro g h hlt hid
    exact String.ne_of_lt hlt (congrArg HandleId.text hid)
  · intro h
    rw [← List.mem_map_of_injective entryOf_injective, ← heq, List.mem_filter, hs.mem_entries]
    rfl

theorem Sound.byLifecycle_eq (hs : s.Sound) (state : Lifecycle) :
    ∃ found, s.byLifecycle state = .ok found ∧ (found.map (·.id)).Nodup ∧
      ∀ h, h ∈ found ↔ s.record? h.id = some h ∧ h.lifecycle = state := by
  rcases hs.select_eq fun r => r.lifecycle = state.name with ⟨found, heq, hnodup, hmem⟩
  refine ⟨found, heq, hnodup, fun h => (hmem h).trans (and_congr_right fun _ => ?_)⟩
  exact decide_eq_true_iff.trans Lifecycle.name_inj

theorem Sound.bySyncState_eq (hs : s.Sound) (state : SyncState) :
    ∃ found, s.bySyncState state = .ok found ∧ (found.map (·.id)).Nodup ∧
      ∀ h, h ∈ found ↔ s.record? h.id = some h ∧ h.status.syncState = state := by
  rcases hs.select_eq fun r => r.syncState = state.name with ⟨found, heq, hnodup, hmem⟩
  refine ⟨found, heq, hnodup, fun h => (hmem h).trans (and_congr_right fun _ => ?_)⟩
  exact decide_eq_true_iff.trans SyncState.name_inj

theorem Sound.byLockCategory_eq (hs : s.Sound) (category : LockCategory) :
    ∃ found, s.byLockCategory category = .ok found ∧ (found.map (·.id)).Nodup ∧
      ∀ h, h ∈ found ↔ s.record? h.id = some h ∧ h.lifecycle = .locked ∧
        ∃ reason, h.status.lockReason = some reason ∧ reason.category = category := by
  rcases hs.select_eq fun r => r.lifecycle = Lifecycle.locked.name && r.lockCategory = some category.name
    with ⟨found, heq, hnodup, hmem⟩
  refine ⟨found, heq, hnodup, fun h => (hmem h).trans (and_congr_right fun _ => ?_)⟩
  rw [← HandleRow.lockCategory_ofHandle h category]
  simp

/-! ## Numbers -/

/-- A selection finds one handle for each of the rows. -/
theorem length_of_select {p : HandleRow → Bool} {found : List Handle} (h : s.select p = .ok found) :
    found.length = s.handles.values.countP p := by
  rw [List.countP_eq_length_filter]
  rw [select] at h
  generalize s.handles.values.filter p = rows at h
  induction rows generalizing found with
  | nil =>
      cases h
      rfl
  | cons row rest ih =>
      rw [List.mapM_cons] at h
      cases hrow : row.handle with
      | error e => simp [hrow, bind, Except.bind] at h
      | ok g =>
          cases hrest : rest.mapM HandleRow.handle with
          | error e => simp [hrow, hrest, bind, Except.bind] at h
          | ok others =>
              obtain rfl : g :: others = found := by
                simpa [hrow, hrest, bind, Except.bind, pure, Except.pure] using h
              rw [List.length_cons, List.length_cons, ih hrest]

/-- Counting rows on adds their number to what was counted before. -/
theorem find?_foldl_tally (rows : List HandleRow) (d : Dictionary Nat) (name : String) :
    (rows.foldl (fun d r => d.insert r.lifecycle ((d.find? r.lifecycle).getD 0 + 1)) d).find? name =
      if rows.countP (·.lifecycle = name) = 0 then d.find? name
      else some ((d.find? name).getD 0 + rows.countP (·.lifecycle = name)) := by
  induction rows generalizing d with
  | nil => rfl
  | cons r rest ih =>
      rw [List.foldl_cons, ih, Dictionary.find?_insert, List.countP_cons]
      by_cases hname : r.lifecycle = name
      · subst hname
        by_cases hzero : rest.countP (·.lifecycle = r.lifecycle) = 0
        · simp [hzero]
        · simp [hzero, Nat.add_assoc, Nat.add_comm 1]
      · simp [hname]

theorem find?_tally (s : Store) (name : String) :
    s.tally.find? name =
      if s.handles.values.countP (·.lifecycle = name) = 0 then none
      else some (s.handles.values.countP (·.lifecycle = name)) := by
  rw [tally, find?_foldl_tally, Dictionary.find?_empty, Option.getD_none, Nat.zero_add]

/-- The name of a lifecycle state with a number. -/
def tallyEntry (p : Lifecycle × Nat) : String × Nat :=
  (p.1.name, p.2)

theorem tallyEntry_injective : Function.Injective tallyEntry := by
  rintro ⟨a, m⟩ ⟨b, n⟩ heq
  exact Prod.ext (Lifecycle.name_inj.1 (Prod.mk.inj heq).1) (Prod.mk.inj heq).2

/-- The states that occur are counted, each of them once, with as many handles as the selection finds. -/
theorem Sound.countByLifecycle_eq (hs : s.Sound) :
    ∃ counts, s.countByLifecycle = .ok counts ∧ (counts.map (·.1)).Nodup ∧
      ∀ state, ∃ found, s.byLifecycle state = .ok found ∧
        ∀ n, (state, n) ∈ counts ↔ n = found.length ∧ found ≠ [] := by
  obtain ⟨counts, heq⟩ : ∃ counts : List (Lifecycle × Nat), s.tally.entries = counts.map tallyEntry := by
    refine exists_map_eq fun e he => ?_
    have hn := Dictionary.mem_entries_iff.1 he
    rw [find?_tally] at hn
    split at hn
    · cases hn
    · -- A name that is counted stands in a row, and so it is that of a state.
      rename_i hpos
      rcases List.countP_pos_iff.1 (Nat.pos_of_ne_zero hpos) with ⟨row, hrow, hname⟩
      rcases List.mem_map.1 hrow with ⟨⟨key, row⟩, hmem, rfl⟩
      rcases hs key row (Dictionary.mem_entries_iff.1 hmem) with ⟨h, -, rfl⟩
      exact ⟨(h.lifecycle, e.2), Prod.ext (of_decide_eq_true hname) rfl⟩
  have hcounts : s.countByLifecycle = .ok counts := by
    rw [countByLifecycle, heq]
    refine mapM_readBack (fun p => ?_) counts
    simp only [tallyEntry, Lifecycle.ofName?_name]
  refine ⟨counts, hcounts, ?_, fun state => ?_⟩
  · -- Two entries of one state would have the same key.
    have hkeys : (counts.map tallyEntry).Pairwise fun a b => a.1 < b.1 := heq ▸ s.tally.ascending
    refine List.pairwise_map.2 ((List.pairwise_map.1 hkeys).imp ?_)
    intro p q hlt hstate
    exact String.ne_of_lt hlt (congrArg Lifecycle.name hstate)
  · rcases hs.byLifecycle_eq state with ⟨found, hfound, -, -⟩
    refine ⟨found, hfound, fun n => ?_⟩
    rw [← List.mem_map_of_injective tallyEntry_injective, ← heq, tallyEntry, Dictionary.mem_entries_iff,
      find?_tally, ← length_of_select hfound]
    by_cases hnone : found.length = 0
    · simp [List.length_eq_zero_iff.1 hnone]
    · have hne : found ≠ [] := fun h => hnone (congrArg List.length h)
      simp [hne, eq_comm]

/-! ## Stores of one record -/

/-- The store has the record of one handle and no other. -/
structure HoldsOnly (s : Store) (h : Handle) : Prop where
  sound : s.Sound
  only : ∀ g, s.record? g.id = some g ↔ g = h

namespace HoldsOnly

theorem record (hs : s.HoldsOnly h) : s.record? h.id = some h := (hs.only h).2 rfl

theorem put (hs : s.HoldsOnly h) {g : Handle} (hid : g.id = h.id) : (s.putHandle g).HoldsOnly g := by
  refine ⟨hs.sound.putHandle g, fun f => ?_⟩
  rw [record?_putHandle]
  split
  · exact ⟨fun heq => (Option.some.inj heq).symm, fun heq => by rw [heq]⟩
  · rename_i hother
    rw [hs.only]
    refine ⟨?_, ?_⟩
    · rintro rfl
      exact absurd hid hother
    · rintro rfl
      exact absurd rfl hother

theorem putHandle_empty (h : Handle) : (Store.empty.putHandle h).HoldsOnly h := by
  refine ⟨sound_empty.putHandle h, fun g => ?_⟩
  rw [record?_putHandle, record?_empty]
  split
  · exact ⟨fun heq => (Option.some.inj heq).symm, fun heq => by rw [heq]⟩
  · rename_i hother
    exact ⟨fun heq => (by cases heq), fun heq => absurd (by rw [heq]) hother⟩

/-- What is selected from the store is that record or nothing. -/
theorem selected (hs : s.HoldsOnly h) {found : List Handle} {p : Handle → Prop} [Decidable (p h)]
    (hd : (found.map (·.id)).Nodup) (hmem : ∀ g, g ∈ found ↔ s.record? g.id = some g ∧ p g) :
    found = if p h then [h] else [] := by
  split
  · rename_i hp
    refine List.perm_singleton.1 ((List.perm_ext_iff_of_nodup hd.of_map (List.nodup_singleton h)).2 fun g => ?_)
    rw [hmem, hs.only, List.mem_singleton]
    exact ⟨fun hg => hg.1, fun hg => ⟨hg, hg ▸ hp⟩⟩
  · rename_i hp
    refine List.eq_nil_iff_forall_not_mem.2 fun g hg => ?_
    obtain ⟨hr, hpg⟩ := (hmem g).1 hg
    exact hp ((hs.only g).1 hr ▸ hpg)

theorem perform_byLifecycle (hs : s.HoldsOnly h) (state : Lifecycle) :
    s.perform (.byLifecycle state) = (.ok (if h.lifecycle = state then [h] else []), s) := by
  rcases hs.sound.byLifecycle_eq state with ⟨found, hfound, hd, hmem⟩
  rw [Store.perform, hfound, hs.selected hd hmem]

theorem perform_bySyncState (hs : s.HoldsOnly h) (state : SyncState) :
    s.perform (.bySyncState state) = (.ok (if h.status.syncState = state then [h] else []), s) := by
  rcases hs.sound.bySyncState_eq state with ⟨found, hfound, hd, hmem⟩
  rw [Store.perform, hfound, hs.selected hd hmem]

theorem perform_byLockCategory (hs : s.HoldsOnly h) (category : LockCategory) :
    s.perform (.byLockCategory category) =
      (.ok (if h.lifecycle = .locked ∧ h.status.lockReason.map (·.category) = some category then [h] else []),
        s) := by
  rcases hs.sound.byLockCategory_eq category with ⟨found, hfound, hd, hmem⟩
  simp only [← Option.map_eq_some_iff] at hmem
  rw [Store.perform, hfound, hs.selected hd hmem]

end HoldsOnly

end Store
end CmInventory
