import CmInventory.Proofs.Text.ByteOrder
import CmInventory.Store.Basic
import Mathlib.Data.List.Induction
import Mathlib.Data.List.Nodup

/-!
# Lists of modules

The store keeps the modules of a handle in an order, each of them once (`Store.arrange`). Every module of the list
that is saved is put at its place in turn. Whatever the list is, the result is strictly ascending by name and
revision (`Store.pairwise_arrange`) and holds the modules of the list and no other ones (`Store.mem_arrange`).
A reader of the list relies on `Arranges`: the order of the names alone.
-/

namespace CmInventory

/-! ## The order of modules -/

namespace ModuleReference

variable {a b c : ModuleReference}

theorem precedes_iff : a.precedes b = true ↔ a.name < b.name ∨ (a.name = b.name ∧ a.revision < b.revision) := by
  simp [precedes]

theorem precedes_trans (hab : a.precedes b) (hbc : b.precedes c) : a.precedes c := by
  rw [precedes_iff] at *
  -- The first names that differ decide, and the revisions if none do.
  rcases hab with hab | ⟨hab, hrev⟩
  · rcases hbc with hbc | ⟨hbc, -⟩
    · exact Or.inl (String.lt_trans hab hbc)
    · exact Or.inl (hbc ▸ hab)
  · rcases hbc with hbc | ⟨hbc, hrev'⟩
    · exact Or.inl (hab ▸ hbc)
    · exact Or.inr ⟨hab.trans hbc, String.lt_trans hrev hrev'⟩

theorem not_precedes_self (a : ModuleReference) : ¬ a.precedes a := by
  rw [precedes_iff]
  rintro (h | ⟨-, h⟩)
  · exact String.lt_irrefl _ h
  · exact String.lt_irrefl _ h

/-- Of two different modules one precedes the other. -/
theorem precedes_of_not (hab : ¬ a.precedes b) (hne : a ≠ b) : b.precedes a := by
  rw [precedes_iff] at *
  rw [not_or, not_and] at hab
  by_cases hname : b.name < a.name
  · exact Or.inl hname
  · have hsame : a.name = b.name := Dictionary.eq_of_not_lt hab.1 hname
    refine Or.inr ⟨hsame.symm, ?_⟩
    by_contra hrev
    -- Neither name and neither revision comes first, so that the modules are the same.
    have hrevision : a.revision = b.revision := Dictionary.eq_of_not_lt (hab.2 hsame) hrev
    apply hne
    cases a
    cases b
    exact congrArg₂ ModuleReference.mk hsame hrevision

theorem utf8_name_le (h : a.precedes b) : utf8 a.name ≤ utf8 b.name := by
  rcases precedes_iff.1 h with hlt | ⟨hsame, -⟩
  · exact List.le_of_lt (utf8_lt hlt)
  · exact hsame ▸ List.le_refl _

end ModuleReference

/-- A list holds the modules that were saved, each of them once, in the order of the bytes of their names. -/
structure Arranges (found saved : List ModuleReference) : Prop where
  nodup : found.Nodup
  mem_iff : ∀ m, m ∈ found ↔ m ∈ saved
  ascending : found.Pairwise fun a b => utf8 a.name ≤ utf8 b.name

namespace Store

open arrange (place)

/-! ## A module at its place -/

theorem mem_place {found : List ModuleReference} {m x : ModuleReference} :
    x ∈ place found m ↔ x = m ∨ x ∈ found := by
  induction found with
  | nil => simp [place]
  | cons n rest ih =>
      rw [place]
      split
      · exact List.mem_cons
      split
      · -- The module is there already, and stands for both.
        rename_i hsame
        rw [hsame, List.mem_cons, ← or_assoc, or_self]
      · rw [List.mem_cons, ih, List.mem_cons, or_left_comm]

theorem pairwise_place {found : List ModuleReference} {m : ModuleReference}
    (h : found.Pairwise fun a b => a.precedes b) : (place found m).Pairwise fun a b => a.precedes b := by
  induction found with
  | nil => exact List.pairwise_singleton _ m
  | cons n rest ih =>
      rcases List.pairwise_cons.1 h with ⟨hfirst, hrest⟩
      rw [place]
      split
      · -- In front of the first module it is in front of all.
        rename_i hbefore
        refine List.pairwise_cons.2 ⟨?_, h⟩
        intro x hx
        rcases List.mem_cons.1 hx with rfl | hx
        · exact hbefore
        · exact ModuleReference.precedes_trans hbefore (hfirst x hx)
      split
      · exact h
      · rename_i hafter hne
        refine List.pairwise_cons.2 ⟨?_, ih hrest⟩
        intro x hx
        rcases mem_place.1 hx with rfl | hx
        · exact ModuleReference.precedes_of_not hafter hne
        · exact hfirst x hx

/-! ## A whole list -/

theorem arrange_append_singleton (saved : List ModuleReference) (m : ModuleReference) :
    arrange (saved ++ [m]) = place (arrange saved) m :=
  List.foldl_concat ..

theorem mem_arrange {saved : List ModuleReference} {x : ModuleReference} : x ∈ arrange saved ↔ x ∈ saved := by
  induction saved using List.reverseRecOn with
  | nil => exact Iff.rfl
  | append_singleton saved m ih =>
      rw [arrange_append_singleton, mem_place, ih, List.mem_append, List.mem_singleton, or_comm]

theorem pairwise_arrange (saved : List ModuleReference) :
    (arrange saved).Pairwise fun a b => a.precedes b := by
  induction saved using List.reverseRecOn with
  | nil => exact List.Pairwise.nil
  | append_singleton saved m ih =>
      rw [arrange_append_singleton]
      exact pairwise_place ih

theorem arranges_arrange (saved : List ModuleReference) : Arranges (arrange saved) saved where
  nodup := by
    refine (pairwise_arrange saved).imp ?_
    rintro a b hab rfl
    exact a.not_precedes_self hab
  mem_iff := fun _ => mem_arrange
  ascending := (pairwise_arrange saved).imp ModuleReference.utf8_name_le

end Store
end CmInventory
