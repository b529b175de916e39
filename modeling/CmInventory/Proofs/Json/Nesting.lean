import CmInventory.Proofs.Json.AnyValue

/-!
# How deep a value may be nested

A value of any depth can be written, but a reader enters no more than `greatestNesting` arrays and objects that
stand in each other. A value with no name twice in an object is therefore read back exactly up to that depth, and
beyond it its text counts as malformed (`decode_render_eq`). Every value that was read is in the first case
(`fits_iff`), so that only a value that was made in another way can be in the second.
-/

namespace CmInventory
namespace Json

namespace Value

mutual

/-- Whether no name stands twice in an object of the value. -/
def HasDistinctNames : Value → Prop
  | .null | .bool _ | .number _ | .text _ => True
  | .array items => AllDistinct items
  | .object members => (members.map (·.1)).Nodup ∧ AllDistinctMembers members

/-- `HasDistinctNames` for the items of an array. -/
def AllDistinct : List Value → Prop
  | [] => True
  | v :: rest => HasDistinctNames v ∧ AllDistinct rest

/-- `HasDistinctNames` for the values of members. -/
def AllDistinctMembers : List (String × Value) → Prop
  | [] => True
  | (_, v) :: rest => HasDistinctNames v ∧ AllDistinctMembers rest

end

mutual

/-- What is read back when it is written has no name twice, and is nested no deeper than a reader goes. -/
theorem fits_iff : ∀ (v : Value) (nesting : Nat), v.Fits nesting ↔ v.HasDistinctNames ∧ v.depth ≤ nesting
  | .null, nesting | .bool b, nesting | .number n, nesting | .text s, nesting => by
      simp [Fits, HasDistinctNames, depth]
  -- The outermost array or object alone is too deep for a reader that may enter none.
  | .array items, 0 => by simp [Fits, depth]
  | .object members, 0 => by simp [Fits, depth]
  | .array items, nesting + 1 => by
      rw [Fits, HasDistinctNames, depth, Nat.add_le_add_iff_right]
      exact allFit_iff items nesting
  | .object members, nesting + 1 => by
      rw [Fits, HasDistinctNames, depth, Nat.add_le_add_iff_right, and_assoc]
      exact and_congr_right fun _ => allFitMembers_iff members nesting

theorem allFit_iff : ∀ (items : List Value) (nesting : Nat),
    AllFit nesting items ↔ AllDistinct items ∧ itemsDepth items ≤ nesting
  | [], nesting => by simp [AllFit, AllDistinct, itemsDepth]
  | v :: rest, nesting => by
      rw [AllFit, AllDistinct, itemsDepth, Nat.max_le, and_and_and_comm]
      exact and_congr (fits_iff v nesting) (allFit_iff rest nesting)

theorem allFitMembers_iff : ∀ (members : List (String × Value)) (nesting : Nat),
    AllFitMembers nesting members ↔ AllDistinctMembers members ∧ membersDepth members ≤ nesting
  | [], nesting => by simp [AllFitMembers, AllDistinctMembers, membersDepth]
  | (name, v) :: rest, nesting => by
      rw [AllFitMembers, AllDistinctMembers, membersDepth, Nat.max_le, and_and_and_comm]
      exact and_congr (fits_iff v nesting) (allFitMembers_iff rest nesting)

end

mutual

/-- The outline of a value is nested as deep as the value. -/
theorem depth_tree : ∀ v : Value, v.tree.depth = v.depth
  | .null | .bool _ | .number _ | .text _ => rfl
  | .array items => congrArg (· + 1) (itemsDepth_itemTrees items)
  | .object members => congrArg (· + 1) (membersDepth_memberTrees members)

theorem itemsDepth_itemTrees : ∀ items : List Value, Tree.itemsDepth (itemTrees items) = itemsDepth items
  | [] => rfl
  | v :: rest => congrArg₂ max (depth_tree v) (itemsDepth_itemTrees rest)

theorem membersDepth_memberTrees : ∀ members : List (String × Value),
    Tree.membersDepth (memberTrees members) = membersDepth members
  | [] => rfl
  | (_, v) :: rest => congrArg₂ max (depth_tree v) (membersDepth_memberTrees rest)

end

end Value

/-! ## Faults -/

theorem bind_eq_error {α β : Type} {x : Except Fault α} {f : α → Except Fault β} {fault : Fault} :
    (x >>= f) = .error fault ↔ x = .error fault ∨ ∃ a, x = .ok a ∧ f a = .error fault := by
  cases x with
  | error e => simp [bind, Except.bind]
  | ok a => simp [bind, Except.bind]

theorem atEnd_fault {α : Type} {closed : Bool} {a : α} {fault : Fault}
    (h : Decoder.atEnd closed a = .error fault) : fault = .malformed := by
  cases closed with
  | true => cases h
  | false =>
      cases h
      rfl

open Decoder (valueAt itemValues memberValues)

-- The recursion is that of the decoder, whose faults are those of its parts.
mutual

/-- A value has no kind that could be the wrong one, so that there is only one fault. -/
theorem valueAt_fault : ∀ (t : Tree) (nesting : Nat) (fault : Fault),
    valueAt nesting t = .error fault → fault = .malformed
  | .broken, nesting, fault, h | .number none, nesting, fault, h | .text none, nesting, fault, h
  | .array items closed, 0, fault, h | .object members closed, 0, fault, h => by
      cases h
      rfl
  | .null, nesting, fault, h | .bool b, nesting, fault, h | .number (some n), nesting, fault, h
  | .text (some s), nesting, fault, h => by cases h
  | .array items closed, nesting + 1, fault, h => by
      rw [valueAt, bind_eq_error] at h
      rcases h with hitems | ⟨vs, -, hend⟩
      · exact itemValues_fault items nesting fault hitems
      · exact atEnd_fault hend
  | .object members closed, nesting + 1, fault, h => by
      rw [valueAt, bind_eq_error] at h
      rcases h with hmembers | ⟨ms, -, hend⟩
      · exact memberValues_fault members nesting [] fault hmembers
      · exact atEnd_fault hend

theorem itemValues_fault : ∀ (items : List Tree) (nesting : Nat) (fault : Fault),
    itemValues nesting items = .error fault → fault = .malformed
  | [], nesting, fault, h => by cases h
  | t :: rest, nesting, fault, h => by
      rw [itemValues, bind_eq_error] at h
      rcases h with hfirst | ⟨v, -, hrest⟩
      · exact valueAt_fault t nesting fault hfirst
      · rcases bind_eq_error.1 hrest with hrest | ⟨vs, -, hdone⟩
        · exact itemValues_fault rest nesting fault hrest
        · cases hdone

theorem memberValues_fault : ∀ (members : List (Option String × Tree)) (nesting : Nat)
    (found : List (String × Value)) (fault : Fault),
    memberValues nesting found members = .error fault → fault = .malformed
  | [], nesting, found, fault, h => by cases h
  | (none, t) :: rest, nesting, found, fault, h => by
      cases h
      rfl
  | (some name, t) :: rest, nesting, found, fault, h => by
      rw [memberValues, bind_eq_error] at h
      rcases h with hfirst | ⟨v, -, hrest⟩
      · exact valueAt_fault t nesting fault hfirst
      · exact memberValues_fault rest nesting _ fault hrest

end

theorem decode_value_eq {text : String} {t : Tree} (hwhole : Document.ofText text = ⟨t, true⟩) :
    decode Decoder.value text = valueAt greatestNesting t := by
  rw [decode, hwhole]
  dsimp only [Decoder.value]
  cases hvalue : valueAt greatestNesting t with
  | error fault => rfl
  | ok v => rfl

/-- A written value is read back if it is nested no deeper than a reader goes, and otherwise not at all. -/
theorem decode_render_eq {v : Value} (hexact : v.HasExactNumbers) (hdistinct : v.HasDistinctNames) :
    decode Decoder.value v.render = if v.depth ≤ greatestNesting then .ok v else .error .malformed := by
  split
  · rename_i hshallow
    exact decode_render hexact ((v.fits_iff greatestNesting).2 ⟨hdistinct, hshallow⟩)
  · rename_i hdeep
    rw [decode_value_eq (ofText_render hexact)]
    cases hvalue : valueAt greatestNesting v.tree with
    | ok w =>
        -- Whatever is taken out of an outline bounds its depth.
        have hdepth := ((valueAt_iff v.tree greatestNesting).1 ⟨w, hvalue⟩).2
        rw [v.depth_tree] at hdepth
        exact absurd hdepth hdeep
    | error fault => rw [valueAt_fault v.tree greatestNesting fault hvalue]

/-! ## A value of each depth -/

namespace Value

/-- An empty array in as many other arrays. -/
def nested : Nat → Value
  | 0 => .array []
  | n + 1 => .array [nested n]

theorem hasExactNumbers_nested (n : Nat) : (nested n).HasExactNumbers := by
  induction n with
  | zero => simp [nested, HasExactNumbers, AllExact]
  | succ n ih => simp [nested, HasExactNumbers, AllExact, ih]

theorem hasDistinctNames_nested (n : Nat) : (nested n).HasDistinctNames := by
  induction n with
  | zero => simp [nested, HasDistinctNames, AllDistinct]
  | succ n ih => simp [nested, HasDistinctNames, AllDistinct, ih]

theorem depth_nested (n : Nat) : (nested n).depth = n + 1 := by
  induction n with
  | zero => rfl
  | succ n ih =>
      rw [nested, depth, itemsDepth, itemsDepth, ih]
      rfl

end Value

end Json
end CmInventory
