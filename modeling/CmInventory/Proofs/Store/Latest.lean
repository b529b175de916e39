import CmInventory.Proofs.Store.Selections
import CmInventory.Proofs.Store.Statuses
import CmInventory.Proofs.Text.ByteOrder
import Mathlib.Data.List.Nodup

/-!
# The latest statuses

A device may report more than once under a subscription, and in one answer. What the store keeps is a row
for each device that reported, written over with every report. Read again, the rows are the latest statuses:
one for each device, in the order of the bytes of the ids (`Store.statusesOf_eq`). This list does not depend
on the order of reports of different devices (`TellsLatest.unique`).
-/

namespace CmInventory

/-- The last of the statuses that were reported for a device. -/
def latest? (reported : List DeviceStatus) (id : HandleId) : Option DeviceStatus :=
  (reported.filter fun st => st.id = id).getLast?

variable {reported : List DeviceStatus} {st : DeviceStatus} {id : HandleId}

@[simp] theorem latest?_nil : latest? [] id = none := rfl

theorem latest?_singleton (st : DeviceStatus) (id : HandleId) :
    latest? [st] id = if st.id = id then some st else none := by
  rw [latest?, List.filter_singleton]
  split <;> simp_all

theorem latest?_append (before after : List DeviceStatus) (id : HandleId) :
    latest? (before ++ after) id = (latest? after id).or (latest? before id) := by
  rw [latest?, List.filter_append, List.getLast?_append]
  rfl

theorem latest?_eq_none : latest? reported id = none ↔ ∀ st ∈ reported, st.id ≠ id := by
  simp [latest?]

theorem mem_of_latest? (h : latest? reported id = some st) : st ∈ reported ∧ st.id = id := by
  simpa using List.mem_of_getLast? h

/-- Where reports are about different devices, the latest status of a device is that of the report which is
about it, whatever the order of the reports. -/
theorem latest?_flatMap {α : Type} {f : α → List DeviceStatus} {xs : List α}
    (hdisjoint : xs.Pairwise fun x y => ∀ st ∈ f x, ∀ st' ∈ f y, st.id ≠ st'.id) :
    latest? (xs.flatMap f) id = some st ↔ ∃ x ∈ xs, latest? (f x) id = some st := by
  induction xs with
  | nil => simp
  | cons x rest ih =>
      rw [List.pairwise_cons] at hdisjoint
      rw [List.flatMap_cons, latest?_append, List.exists_mem_cons_iff]
      cases hrest : latest? (rest.flatMap f) id with
      | none =>
          rw [Option.none_or, ← ih hdisjoint.2, hrest]
          simp
      | some last =>
          -- A later report is about the device, so that the first one is not.
          rcases mem_of_latest? hrest with ⟨hmem, hid⟩
          rcases List.mem_flatMap.1 hmem with ⟨y, hy, hlast⟩
          have hnone : latest? (f x) id = none :=
            latest?_eq_none.2 fun st' hst' heq => hdisjoint.1 y hy st' hst' last hlast (heq.trans hid.symm)
          rw [Option.some_or, hnone, ← ih hdisjoint.2, hrest]
          simp

/-- A list of statuses tells the latest of those that were reported: one for each device that reported, in
the order of the bytes of the ids. -/
structure TellsLatest (statuses reported : List DeviceStatus) : Prop where
  ascending : statuses.Pairwise fun a b => utf8 a.id.text < utf8 b.id.text
  mem_iff : ∀ st, st ∈ statuses ↔ latest? reported st.id = some st

namespace TellsLatest

variable {statuses others reported' : List DeviceStatus}

/-- Every device that reported is listed, and no other one. -/
theorem listed_iff (h : TellsLatest statuses reported) (id : HandleId) :
    (∃ st ∈ statuses, st.id = id) ↔ ∃ st ∈ reported, st.id = id := by
  constructor
  · rintro ⟨st, hst, rfl⟩
    exact ⟨st, (mem_of_latest? ((h.mem_iff st).1 hst)).1, rfl⟩
  · rintro ⟨st, hst, rfl⟩
    cases hlatest : latest? reported st.id with
    | none => exact absurd rfl (latest?_eq_none.1 hlatest st hst)
    | some last =>
        have hid := (mem_of_latest? hlatest).2
        exact ⟨last, (h.mem_iff last).2 (hid ▸ hlatest), hid⟩

/-- No device is listed twice. -/
theorem nodup (h : TellsLatest statuses reported) : (statuses.map (·.id)).Nodup := by
  refine List.pairwise_map.2 (h.ascending.imp ?_)
  intro a b hlt hid
  rw [hid] at hlt
  exact List.lt_irrefl _ hlt

/-- There is only one list that tells the latest statuses. -/
theorem unique (h : TellsLatest statuses reported) (h' : TellsLatest others reported')
    (hsame : ∀ id, latest? reported id = latest? reported' id) : statuses = others := by
  have hmem : ∀ st, st ∈ statuses ↔ st ∈ others := by
    intro st
    rw [h.mem_iff, h'.mem_iff, hsame]
  have hperm : statuses.Perm others :=
    (List.perm_ext_iff_of_nodup (List.Nodup.of_map _ h.nodup) (List.Nodup.of_map _ h'.nodup)).2 hmem
  refine hperm.eq_of_pairwise ?_ h.ascending h'.ascending
  intro a b _ _ hab hba
  exact absurd hba (List.lt_asymm hab)

end TellsLatest

theorem DeviceVerdict.name_inj {a b : DeviceVerdict} : a.name = b.name ↔ a = b := by
  cases a <;> cases b <;> decide

namespace Store

/-- What is found after more statuses were written over the rows. -/
theorem find?_withStatuses_eq (rows : Dictionary StatusRow) (reported : List DeviceStatus) (key : String) :
    (withStatuses rows reported).find? key =
      ((latest? reported ⟨key⟩).map StatusRow.ofStatus).or (rows.find? key) := by
  induction reported using List.reverseRecOn with
  | nil => rfl
  | append_singleton before st ih =>
      rw [withStatuses, List.foldl_append, List.foldl_cons, List.foldl_nil, Dictionary.find?_insert,
        latest?_append]
      by_cases hid : st.id = ⟨key⟩
      · rw [if_pos (congrArg HandleId.text hid), latest?_singleton, if_pos hid]
        rfl
      · rw [if_neg fun h => hid (congrArg HandleId.mk h), latest?_singleton, if_neg hid, Option.none_or]
        exact ih

theorem withStatuses_append (rows : Dictionary StatusRow) (before after : List DeviceStatus) :
    withStatuses rows (before ++ after) = withStatuses (withStatuses rows before) after :=
  List.foldl_append

/-- The row of a status under the id of its device. -/
def statusEntry (st : DeviceStatus) : String × StatusRow :=
  (st.id.text, .ofStatus st)

theorem statusEntry_injective : Function.Injective statusEntry := by
  rintro ⟨⟨id⟩, verdict, details⟩ ⟨⟨id'⟩, verdict', details'⟩ h
  simp only [statusEntry, StatusRow.ofStatus, Prod.mk.injEq, StatusRow.mk.injEq,
    DeviceVerdict.name_inj] at h
  rcases h with ⟨rfl, rfl, rfl⟩
  rfl

theorem status_statusEntry (st : DeviceStatus) :
    (statusEntry st).2.status (statusEntry st).1 = .ok st := by
  rw [statusEntry, StatusRow.ofStatus, StatusRow.status, DeviceVerdict.ofName?_name]

/-- The statuses that were reported, written one over the other, are read as the latest ones. -/
theorem statusesOf_eq {s : Store} {clientId subscriptionName : String}
    (h : s.statusRows clientId subscriptionName = withStatuses .empty reported) :
    ∃ statuses, s.statusesOf clientId subscriptionName = .ok statuses ∧ TellsLatest statuses reported := by
  have hmem : ∀ e, e ∈ (withStatuses .empty reported).entries ↔
      ∃ st, latest? reported st.id = some st ∧ statusEntry st = e := by
    rintro ⟨key, row⟩
    rw [Dictionary.mem_entries_iff, find?_withStatuses_eq, Dictionary.find?_empty, Option.or_none,
      Option.map_eq_some_iff]
    constructor
    · rintro ⟨st, hlatest, rfl⟩
      have hid := (mem_of_latest? hlatest).2
      exact ⟨st, hid ▸ hlatest, Prod.ext (congrArg HandleId.text hid) rfl⟩
    · rintro ⟨st, hlatest, he⟩
      cases he
      exact ⟨st, hlatest, rfl⟩
  rcases exists_map_eq fun e he => ((hmem e).1 he).imp fun _ => And.right with ⟨statuses, hentries⟩
  refine ⟨statuses, ?_, ?_, ?_⟩
  · rw [statusesOf, h, hentries]
    exact mapM_readBack status_statusEntry statuses
  · have hasc := (withStatuses .empty reported).ascending
    rw [hentries, List.pairwise_map] at hasc
    exact hasc.imp utf8_lt
  · intro st
    rw [← List.mem_map_of_injective statusEntry_injective, ← hentries, hmem]
    constructor
    · rintro ⟨st', hlatest, he⟩
      rwa [statusEntry_injective he] at hlatest
    · exact fun hlatest => ⟨st, hlatest, rfl⟩

end Store
end CmInventory
