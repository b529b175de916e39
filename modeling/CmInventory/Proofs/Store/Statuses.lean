import CmInventory.Store.Call
import Mathlib.Data.List.Induction

/-!
# The statuses in the store

What the store keeps of the answers to a subscription is found by the client and the name of the
subscription (`Store.statusRows`). Only an answer to the same subscription changes it, and of the calls of
the store only those that keep an answer (`Store.statuses_perform`). What was kept from answers can be read again
(`Store.Readable`).
-/

namespace CmInventory.Store

/-- The rows with those of more statuses over them. -/
def withStatuses (rows : Dictionary StatusRow) (statuses : List DeviceStatus) : Dictionary StatusRow :=
  statuses.foldl (fun d st => d.insert st.id.text (.ofStatus st)) rows

theorem statusRows_saveAnswer (s : Store) (a : PluginAnswer) (clientId subscriptionName : String) :
    (s.saveAnswer a).statusRows clientId subscriptionName =
      if a.clientId = clientId ∧ a.subscriptionName = subscriptionName then
        withStatuses (s.statusRows clientId subscriptionName) a.statuses
      else s.statusRows clientId subscriptionName := by
  rw [statusRows, saveAnswer, Dictionary.find?_insert]
  by_cases hclient : a.clientId = clientId
  · subst hclient
    rw [if_pos rfl, Option.bind_some, Dictionary.find?_insert]
    by_cases hname : a.subscriptionName = subscriptionName
    · subst hname
      rw [if_pos rfl, if_pos ⟨rfl, rfl⟩]
      rfl
    · rw [if_neg hname, if_neg fun h => hname h.2, statusRows]
      -- A client without rows has none under any name.
      cases s.statuses.find? a.clientId <;> rfl
  · rw [if_neg hclient, if_neg fun h => hclient h.1]
    rfl

/-! ## Reading statuses -/

/-- Every row of a subscription holds a verdict. -/
def Readable (s : Store) : Prop :=
  ∀ clientId subscriptionName id row,
    (s.statusRows clientId subscriptionName).find? id = some row →
      (DeviceVerdict.ofName? row.verdict).isSome = true

theorem readable_empty : empty.Readable := by
  intro c n id row hrow
  cases hrow

theorem find?_withStatuses {rows : Dictionary StatusRow} {statuses : List DeviceStatus} {id : String}
    {row : StatusRow} (h : (withStatuses rows statuses).find? id = some row) :
    rows.find? id = some row ∨ ∃ st ∈ statuses, row = .ofStatus st := by
  induction statuses using List.reverseRecOn with
  | nil => exact Or.inl h
  | append_singleton statuses st ih =>
      rw [withStatuses, List.foldl_append, List.foldl_cons, List.foldl_nil, Dictionary.find?_insert] at h
      split at h
      · exact Or.inr ⟨st, by simp, (Option.some.inj h).symm⟩
      · rcases ih h with hrow | ⟨st', hst', rfl⟩
        · exact Or.inl hrow
        · exact Or.inr ⟨st', List.mem_append_left _ hst', rfl⟩

theorem Readable.saveAnswer {s : Store} (h : s.Readable) (a : PluginAnswer) :
    (s.saveAnswer a).Readable := by
  intro c n id row hrow
  rw [statusRows_saveAnswer] at hrow
  split at hrow
  · rcases find?_withStatuses hrow with hrow | ⟨st, -, rfl⟩
    · exact h c n id row hrow
    · rw [StatusRow.ofStatus, DeviceVerdict.ofName?_name]
      rfl
  · exact h c n id row hrow

/-- The statuses under a subscription can be told. -/
theorem Readable.statusesOf {s : Store} (h : s.Readable) (clientId subscriptionName : String) :
    ∃ statuses, s.statusesOf clientId subscriptionName = .ok statuses := by
  have hrow : ∀ e ∈ (s.statusRows clientId subscriptionName).entries,
      (DeviceVerdict.ofName? e.2.verdict).isSome = true := by
    rintro ⟨id, row⟩ he
    exact h clientId subscriptionName id row (Dictionary.mem_entries_iff.1 he)
  rw [Store.statusesOf]
  generalize (s.statusRows clientId subscriptionName).entries = entries at hrow
  induction entries with
  | nil => exact ⟨[], rfl⟩
  | cons e rest ih =>
      rcases ih fun e he => hrow e (List.mem_cons_of_mem _ he) with ⟨statuses, hrest⟩
      rcases Option.isSome_iff_exists.1 (hrow e (List.mem_cons_self ..)) with ⟨verdict, hverdict⟩
      have hstatus : e.2.status e.1 = .ok ⟨⟨e.1⟩, verdict, e.2.details⟩ := by
        rw [StatusRow.status, hverdict]
      refine ⟨⟨⟨e.1⟩, verdict, e.2.details⟩ :: statuses, ?_⟩
      rw [List.mapM_cons, hrest]
      dsimp only
      rw [hstatus]
      rfl

/-! ## Calls that leave the statuses alone -/

theorem statuses_insert (s : Store) (handles : List Handle) : (s.insert handles).2.statuses = s.statuses := by
  induction handles generalizing s with
  | nil => rfl
  | cons h rest ih =>
      rw [insert]
      split
      · exact ih s
      · exact ih (s.putHandle h)

theorem statuses_overwrite (s : Store) (h : Handle) : (s.overwrite h).statuses = s.statuses := by
  rw [overwrite]
  split <;> rfl

theorem statuses_replaceStatus {s s' : Store} {id : HandleId} {expected : Option Lifecycle}
    {status : HandleStatus} {written : Bool} (h : s.replaceStatus id expected status = .ok (written, s')) :
    s'.statuses = s.statuses := by
  rw [replaceStatus] at h
  cases hget : s.get id with
  | error e =>
      rw [hget] at h
      cases h
  | ok g =>
      rw [hget] at h
      cases expected with
      | none =>
          cases h
          exact statuses_overwrite s _
      | some state =>
          change (if g.lifecycle = state then Except.ok (true, s.overwrite { g with status := status })
            else Except.ok (false, s)) = _ at h
          split at h
          · cases h
            exact statuses_overwrite s _
          · cases h
            rfl

theorem statuses_delete {s s' : Store} {id : HandleId} (h : s.delete id = .ok s') :
    s'.statuses = s.statuses := by
  rw [delete] at h
  split at h
  · cases h
  split at h
  · cases h
    rfl
  · cases h

theorem statuses_deleteAll {s s' : Store} {ids : List HandleId} (h : s.deleteAll ids = .ok s') :
    s'.statuses = s.statuses := by
  induction ids generalizing s with
  | nil =>
      cases h
      rfl
  | cons id rest ih =>
      rw [deleteAll] at h
      cases hdelete : s.delete id with
      | error e =>
          rw [hdelete] at h
          cases h
      | ok t =>
          rw [hdelete] at h
          exact (ih h).trans (statuses_delete hdelete)

theorem statuses_settle {s : Store} {change : Except StoreError Store}
    (h : ∀ s', change = .ok s' → s'.statuses = s.statuses) : (s.settle change).2.statuses = s.statuses := by
  cases change with
  | error e => rfl
  | ok s' => exact h s' rfl

/-- Only the answer of a plugin changes what was reported. -/
theorem statuses_perform {s : Store} {call : StoreCall} (hcall : ∀ answer, call ≠ .saveAnswer answer) :
    (s.perform call).2.statuses = s.statuses := by
  cases call with
  | insert handles =>
      have hinsert := statuses_insert s handles
      rw [perform]
      split <;> simp_all
  | save h =>
      refine statuses_settle fun s' hsave => ?_
      rw [save] at hsave
      split at hsave
      · cases hsave
        rfl
      · cases hsave
  | saveStatus id status =>
      refine statuses_settle fun s' hsave => ?_
      cases hreplace : s.replaceStatus id none status with
      | error e =>
          rw [hreplace] at hsave
          cases hsave
      | ok pair =>
          rw [hreplace] at hsave
          cases hsave
          exact statuses_replaceStatus hreplace
  | saveStatusIf id expected status =>
      rw [perform]
      cases hreplace : s.replaceStatus id (some expected) status with
      | error e => rfl
      | ok pair => exact statuses_replaceStatus hreplace
  | deleteAll ids => exact statuses_settle fun s' h => statuses_deleteAll h
  | delete id => exact statuses_settle fun s' h => statuses_delete h
  | saveAnswer answer => exact absurd rfl (hcall answer)
  | _ => rfl

end CmInventory.Store
