import CmInventory.Proofs.Store.Records
import Mathlib.Data.List.Induction
import Mathlib.Data.List.Nodup

/-!
# Deletions of several handles

The deletion of a list of ids goes through the list and changes three tables for every id. It comes to all of
the list or to nothing of it (`deleted_together_or_not`): the ids go together if each of them may be deleted
and none is named twice (`Deletable`), and otherwise the first id that is refused, after the ones before it
are gone, decides on the error (`Refuses`).

Nothing is required of the store.
-/

namespace CmInventory

/-- A table without the rows of some handles. -/
def Dictionary.without {β : Type} (d : Dictionary β) (ids : List HandleId) : Dictionary β :=
  d.filter fun key _ => !ids.contains ⟨key⟩

theorem Dictionary.find?_without {β : Type} (d : Dictionary β) (ids : List HandleId) (id : HandleId) :
    (d.without ids).find? id.text = if id ∈ ids then none else d.find? id.text := by
  rw [without, find?_filter]
  by_cases hmem : id ∈ ids
  · simp [hmem]
  · cases d.find? id.text <;> simp [hmem]

theorem Dictionary.contains_without {β : Type} (d : Dictionary β) (ids : List HandleId) (id : HandleId) :
    (d.without ids).contains id.text = true ↔ d.contains id.text = true ∧ id ∉ ids := by
  rw [contains, contains, find?_without]
  by_cases hmem : id ∈ ids <;> simp [hmem]

theorem Dictionary.erase_eq_without {β : Type} (d : Dictionary β) (id : HandleId) :
    d.erase id.text = d.without [id] := by
  refine ext_find? fun key => ?_
  rw [find?_erase, find?_without d [id] ⟨key⟩]
  refine if_congr ?_ rfl rfl
  rw [List.mem_singleton, eq_comm, ← HandleId.text_inj]

theorem Dictionary.without_without {β : Type} (d : Dictionary β) (ids more : List HandleId) :
    (d.without ids).without more = d.without (ids ++ more) := by
  refine ext_find? fun key => ?_
  rw [find?_without _ _ ⟨key⟩, find?_without _ _ ⟨key⟩, find?_without _ _ ⟨key⟩]
  by_cases hmore : ⟨key⟩ ∈ more <;> simp [hmore]

theorem Dictionary.without_nil {β : Type} (d : Dictionary β) : d.without [] = d := by
  refine ext_find? fun key => ?_
  rw [find?_without _ _ ⟨key⟩, if_neg List.not_mem_nil]

namespace Store

variable {s : Store} {id : HandleId} {ids before : List HandleId} {e : StoreError}

/-- The store without the records of some handles and what was fetched for them. -/
def without (s : Store) (ids : List HandleId) : Store :=
  { s with
    handles := s.handles.without ids
    data := s.data.without ids
    modules := s.modules.without ids }

theorem without_nil (s : Store) : s.without [] = s := by
  simp only [without, Dictionary.without_nil]

theorem without_without (s : Store) (ids more : List HandleId) :
    (s.without ids).without more = s.without (ids ++ more) := by
  simp only [without, Dictionary.without_without]

/-! ## Which ids may be deleted -/

/-- The ids are valid, each of them is stored, and none is named twice. -/
structure Deletable (s : Store) (ids : List HandleId) : Prop where
  valid : ∀ id ∈ ids, id.isValid = true
  stored : ∀ id ∈ ids, s.handles.contains id.text = true
  different : ids.Nodup

/-- The error for an id that may not be deleted after others. It comes first that the id is not valid. -/
inductive Refuses (s : Store) (before : List HandleId) (id : HandleId) : StoreError → Prop
  | invalid (invalid : id.isValid = false) : Refuses s before id (.invalidId id.text)
  | missing (valid : id.isValid = true)
      (missing : s.handles.contains id.text = false ∨ id ∈ before) :
      Refuses s before id (.notFound id.text)

/-- All ids may be deleted, or one of them is the first that may not. -/
theorem deletable_or_refuses (s : Store) (ids : List HandleId) : s.Deletable ids ∨
    ∃ before id after e, ids = before ++ id :: after ∧ s.Deletable before ∧ s.Refuses before id e := by
  induction ids using List.reverseRecOn with
  | nil => exact Or.inl ⟨by simp, by simp, List.nodup_nil⟩
  | append_singleton ids id ih =>
      rcases ih with hall | ⟨before, other, after, e, rfl, hbefore, hrefuses⟩
      · cases hvalid : id.isValid with
        | false => exact Or.inr ⟨ids, id, [], _, rfl, hall, .invalid hvalid⟩
        | true =>
            by_cases hfree : s.handles.contains id.text = false ∨ id ∈ ids
            · exact Or.inr ⟨ids, id, [], _, rfl, hall, .missing hvalid hfree⟩
            · rw [not_or, Bool.not_eq_false] at hfree
              refine Or.inl ⟨?_, ?_, List.nodup_append_comm.1 (List.nodup_cons.2 ⟨hfree.2, hall.different⟩)⟩
              · exact List.forall_mem_append.2 ⟨hall.valid, List.forall_mem_singleton.2 hvalid⟩
              · exact List.forall_mem_append.2 ⟨hall.stored, List.forall_mem_singleton.2 hfree.1⟩
      · exact Or.inr ⟨before, other, after ++ [id], e, by simp, hbefore, hrefuses⟩

/-! ## What the deletions come to -/

theorem delete_eq_without (hvalid : id.isValid = true) (hstored : s.handles.contains id.text = true) :
    s.delete id = .ok (s.without [id]) := by
  rw [delete, hvalid, hstored, without]
  simp only [Dictionary.erase_eq_without]
  rfl

/-- Ids that may be deleted are deleted together. -/
theorem Deletable.deleteAll_eq (h : s.Deletable ids) : s.deleteAll ids = .ok (s.without ids) := by
  induction ids generalizing s with
  | nil => rw [deleteAll, without_nil]
  | cons id rest ih =>
      rcases List.nodup_cons.1 h.different with ⟨hnew, hdifferent⟩
      have hfirst := delete_eq_without (h.valid id List.mem_cons_self) (h.stored id List.mem_cons_self)
      -- The first deletion leaves the others alone, since it is of another id.
      have hrest : (s.without [id]).Deletable rest := by
        refine ⟨fun other hmem => h.valid other (List.mem_cons_of_mem _ hmem), fun other hmem => ?_, hdifferent⟩
        refine (Dictionary.contains_without _ _ _).2 ⟨h.stored other (List.mem_cons_of_mem _ hmem), ?_⟩
        rw [List.mem_singleton]
        rintro rfl
        exact hnew hmem
      rw [deleteAll, hfirst]
      exact (ih hrest).trans (congrArg Except.ok (without_without s [id] rest))

theorem Refuses.delete_eq (h : s.Refuses before id e) : (s.without before).delete id = .error e := by
  rw [delete]
  cases h with
  | invalid hinvalid => rw [hinvalid]; rfl
  | missing hvalid hmissing =>
      have hgone : ¬ (s.without before).handles.contains id.text = true := by
        rw [without, Dictionary.contains_without]
        rintro ⟨hstored, hnew⟩
        rcases hmissing with hmissing | hagain
        · rw [hstored] at hmissing
          cases hmissing
        · exact hnew hagain
      rw [hvalid, if_neg hgone]
      rfl

theorem deleteAll_append (s : Store) (ids more : List HandleId) :
    s.deleteAll (ids ++ more) = s.deleteAll ids >>= (·.deleteAll more) := by
  induction ids generalizing s with
  | nil => rfl
  | cons id rest ih =>
      rw [List.cons_append, deleteAll, deleteAll]
      cases s.delete id with
      | error e => rfl
      | ok t => exact ih t

/-- The first id that may not be deleted decides. -/
theorem Refuses.deleteAll_eq (h : s.Refuses before id e) (hbefore : s.Deletable before)
    (after : List HandleId) : s.deleteAll (before ++ id :: after) = .error e := by
  rw [deleteAll_append, hbefore.deleteAll_eq]
  change (s.without before).deleteAll (id :: after) = .error e
  rw [deleteAll, h.delete_eq]
  rfl

/-- A list of ids is deleted as a whole or not at all, whatever the store holds. It is deleted if its ids are
valid, stored and different, and then these handles are gone with all that was fetched for them. Otherwise
the first id decides that is not valid, or that is not stored or was named before, and nothing is changed. -/
theorem deleted_together_or_not (s : Store) (ids : List HandleId) :
    ((s.perform (.deleteAll ids)).1 = .ok () ↔ s.Deletable ids) ∧
      (∀ e, (s.perform (.deleteAll ids)).1 = .error e ↔ ∃ before id after,
        ids = before ++ id :: after ∧ s.Deletable before ∧ s.Refuses before id e) ∧
      (s.perform (.deleteAll ids)).2 =
        if (s.perform (.deleteAll ids)).1.isOk then s.without ids else s := by
  rw [Store.perform]
  rcases s.deletable_or_refuses ids with hall | ⟨before, id, after, e, rfl, hbefore, hrefuses⟩
  · rw [hall.deleteAll_eq]
    refine ⟨iff_of_true rfl hall, fun e => iff_of_false (fun herror => by cases herror) ?_, rfl⟩
    rintro ⟨before, id, after, rfl, hbefore, hrefuses⟩
    have hfails := hrefuses.deleteAll_eq hbefore after
    rw [hall.deleteAll_eq] at hfails
    cases hfails
  · have hfails := hrefuses.deleteAll_eq hbefore after
    rw [hfails]
    refine ⟨iff_of_false (fun hok => by cases hok) fun hall => ?_, fun e' => ?_, rfl⟩
    · rw [hall.deleteAll_eq] at hfails
      cases hfails
    · constructor
      · intro herror
        obtain rfl : e = e' := Except.error.inj herror
        exact ⟨before, id, after, rfl, hbefore, hrefuses⟩
      · rintro ⟨front, other, back, hsplit, hfront, hother⟩
        rw [hsplit, hother.deleteAll_eq hfront back] at hfails
        cases hfails
        rfl

end Store
end CmInventory
