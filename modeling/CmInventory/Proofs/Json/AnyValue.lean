import CmInventory.Proofs.Json.ReadBack
import CmInventory.Json.Decoder
import Mathlib.Data.List.Nodup

/-!
# Values of any shape

A value of any shape is taken out of an outline if the outline is sound and not nested too deep
(`valueAt_iff`). What is taken has no name twice in an object: a member that comes again is put over the one that
is there (`putMember`), so that a name keeps its first place and gets its last value (`first_memberValues`).

A value that was taken is therefore read back when it is written (`decode_render`), although not every value is:
one with a name that stands twice, or with too many levels, is read as another value or not at all. Floating-point
numbers are left out as everywhere (`Value.HasExactNumbers`).
-/

namespace CmInventory
namespace Json

/-! ## Soundness and depth of outlines -/

namespace Tree

mutual

/-- Whether everything in an outline is there: the text did not stop being JSON, every number has a value and
every string is text. -/
def IsSound : Tree → Prop
  | .null | .bool _ | .number (some _) | .text (some _) => True
  | .array items closed => AllSound items ∧ closed = true
  | .object members closed => AllSoundMembers members ∧ closed = true
  | .broken | .number none | .text none => False

/-- `IsSound` for the items of an array. -/
def AllSound : List Tree → Prop
  | [] => True
  | t :: rest => IsSound t ∧ AllSound rest

/-- `IsSound` for the members of an object. -/
def AllSoundMembers : List (Option String × Tree) → Prop
  | [] => True
  | (name, t) :: rest => name.isSome ∧ IsSound t ∧ AllSoundMembers rest

end

mutual

/-- How deep arrays and objects are nested in an outline. -/
def depth : Tree → Nat
  | .array items _ => itemsDepth items + 1
  | .object members _ => membersDepth members + 1
  | _ => 0

/-- The greatest depth among the items of an array. -/
def itemsDepth : List Tree → Nat
  | [] => 0
  | t :: rest => max (depth t) (itemsDepth rest)

/-- The greatest depth among the values of members. -/
def membersDepth : List (Option String × Tree) → Nat
  | [] => 0
  | (_, t) :: rest => max (depth t) (membersDepth rest)

end

end Tree

/-! ## Members that are put one over the other -/

namespace Value

variable {name : String} {v : Value} {found : List (String × Value)}

theorem putMember_of_not_mem (h : name ∉ found.map (·.1)) :
    putMember name v found = found ++ [(name, v)] := by
  induction found with
  | nil => rfl
  | cons m rest ih =>
      rw [List.map_cons, List.mem_cons, not_or] at h
      rw [putMember, if_neg (Ne.symm h.1), ih h.2, List.cons_append]

theorem map_putMember_of_mem (h : name ∈ found.map (·.1)) :
    (putMember name v found).map (·.1) = found.map (·.1) := by
  induction found with
  | nil => simp at h
  | cons m rest ih =>
      rw [putMember]
      split
      · rfl
      · rename_i hne
        rw [List.map_cons, List.mem_cons] at h
        rw [List.map_cons, List.map_cons, ih (h.resolve_left (Ne.symm hne))]

theorem nodup_putMember (h : (found.map (·.1)).Nodup) : ((putMember name v found).map (·.1)).Nodup := by
  by_cases hmem : name ∈ found.map (·.1)
  · rwa [map_putMember_of_mem hmem]
  · rw [putMember_of_not_mem hmem, List.map_append, List.map_singleton]
    refine List.nodup_append.2 ⟨h, List.nodup_singleton _, ?_⟩
    rintro a ha b hb rfl
    obtain rfl : a = name := List.mem_singleton.1 hb
    exact hmem ha

end Value

/-! ## What is taken out of an outline -/

theorem bind_eq_ok {α β : Type} {x : Except Fault α} {f : α → Except Fault β} {b : β} :
    (x >>= f) = .ok b ↔ ∃ a, x = .ok a ∧ f a = .ok b := by
  cases x with
  | error e => simp [bind, Except.bind]
  | ok a => simp [bind, Except.bind]

theorem atEnd_eq_ok {α : Type} {closed : Bool} {a b : α} :
    Decoder.atEnd closed a = .ok b ↔ closed = true ∧ a = b := by
  cases closed <;> simp [Decoder.atEnd]

open Decoder (valueAt itemValues memberValues)

-- The recursion is that of the decoder.
mutual

/-- A value is taken out of an outline exactly if that is sound and its arrays and objects may be entered. -/
theorem valueAt_iff : ∀ (t : Tree) (nesting : Nat),
    (∃ v, valueAt nesting t = .ok v) ↔ t.IsSound ∧ t.depth ≤ nesting
  | .broken, nesting => by simp [valueAt, Tree.IsSound]
  | .null, nesting => by simp [valueAt, Tree.IsSound, Tree.depth]
  | .bool b, nesting => by simp [valueAt, Tree.IsSound, Tree.depth]
  | .number none, nesting => by simp [valueAt, Tree.IsSound]
  | .number (some n), nesting => by simp [valueAt, Tree.IsSound, Tree.depth]
  | .text none, nesting => by simp [valueAt, Tree.IsSound]
  | .text (some s), nesting => by simp [valueAt, Tree.IsSound, Tree.depth]
  | .array items closed, 0 => by simp [valueAt, Tree.depth]
  | .array items closed, nesting + 1 => by
      have hitems := itemValues_iff items nesting
      simp only [valueAt, bind_eq_ok, atEnd_eq_ok, Tree.IsSound, Tree.depth, Nat.add_le_add_iff_right]
      rw [and_right_comm, ← hitems]
      constructor
      · rintro ⟨v, vs, hvs, hclosed, -⟩
        exact ⟨⟨vs, hvs⟩, hclosed⟩
      · rintro ⟨⟨vs, hvs⟩, hclosed⟩
        exact ⟨_, vs, hvs, hclosed, rfl⟩
  | .object members closed, 0 => by simp [valueAt, Tree.depth]
  | .object members closed, nesting + 1 => by
      have hmembers := memberValues_iff members nesting []
      simp only [valueAt, bind_eq_ok, atEnd_eq_ok, Tree.IsSound, Tree.depth, Nat.add_le_add_iff_right]
      rw [and_right_comm, ← hmembers]
      constructor
      · rintro ⟨v, vs, hvs, hclosed, -⟩
        exact ⟨⟨vs, hvs⟩, hclosed⟩
      · rintro ⟨⟨vs, hvs⟩, hclosed⟩
        exact ⟨_, vs, hvs, hclosed, rfl⟩

theorem itemValues_iff : ∀ (items : List Tree) (nesting : Nat),
    (∃ vs, itemValues nesting items = .ok vs) ↔
      Tree.AllSound items ∧ Tree.itemsDepth items ≤ nesting
  | [], nesting => by simp [itemValues, Tree.AllSound, Tree.itemsDepth]
  | t :: rest, nesting => by
      have hfirst := valueAt_iff t nesting
      have hrest := itemValues_iff rest nesting
      simp only [itemValues, bind_eq_ok, Tree.AllSound, Tree.itemsDepth, Nat.max_le]
      rw [and_and_and_comm, ← hfirst, ← hrest]
      constructor
      · rintro ⟨vs, v, hv, ws, hws, -⟩
        exact ⟨⟨v, hv⟩, ws, hws⟩
      · rintro ⟨⟨v, hv⟩, ws, hws⟩
        exact ⟨_, v, hv, ws, hws, rfl⟩

theorem memberValues_iff : ∀ (members : List (Option String × Tree)) (nesting : Nat)
    (found : List (String × Value)), (∃ ms, memberValues nesting found members = .ok ms) ↔
      Tree.AllSoundMembers members ∧ Tree.membersDepth members ≤ nesting
  | [], nesting, found => by simp [memberValues, Tree.AllSoundMembers, Tree.membersDepth]
  | (none, t) :: rest, nesting, found => by simp [memberValues, Tree.AllSoundMembers]
  | (some name, t) :: rest, nesting, found => by
      have hfirst := valueAt_iff t nesting
      have hrest := fun found => memberValues_iff rest nesting found
      simp only [memberValues, bind_eq_ok, Tree.AllSoundMembers, Tree.membersDepth, Nat.max_le,
        Option.isSome_some, true_and]
      rw [and_and_and_comm, ← hfirst]
      constructor
      · rintro ⟨ms, v, hv, hms⟩
        exact ⟨⟨v, hv⟩, (hrest _).1 ⟨ms, hms⟩⟩
      · rintro ⟨⟨v, hv⟩, hms⟩
        rcases (hrest (Value.putMember name v found)).2 hms with ⟨ms, hms⟩
        exact ⟨ms, v, hv, hms⟩

end

/-! ## Values that are read back -/

namespace Value

mutual

/-- Whether no name stands twice in an object of the value, and its arrays and objects may be entered. -/
def Fits : Nat → Value → Prop
  | _, .null | _, .bool _ | _, .text _ | _, .number _ => True
  | 0, .array _ | 0, .object _ => False
  | nesting + 1, .array items => AllFit nesting items
  | nesting + 1, .object members => (members.map (·.1)).Nodup ∧ AllFitMembers nesting members

/-- `Fits` for the items of an array. -/
def AllFit : Nat → List Value → Prop
  | _, [] => True
  | nesting, v :: rest => Fits nesting v ∧ AllFit nesting rest

/-- `Fits` for the values of members. -/
def AllFitMembers : Nat → List (String × Value) → Prop
  | _, [] => True
  | nesting, (_, v) :: rest => Fits nesting v ∧ AllFitMembers nesting rest

end

theorem allFitMembers_putMember {nesting : Nat} {name : String} {v : Value}
    {found : List (String × Value)} (hv : v.Fits nesting) (hfound : AllFitMembers nesting found) :
    AllFitMembers nesting (putMember name v found) := by
  induction found with
  | nil => exact ⟨hv, trivial⟩
  | cons m rest ih =>
      rw [putMember]
      split
      · exact ⟨hv, hfound.2⟩
      · exact ⟨hfound.1, ih hfound.2⟩

end Value

mutual

/-- What is taken out of an outline has no name twice, and is not nested deeper than it was allowed to be. -/
theorem fits_valueAt : ∀ (t : Tree) (nesting : Nat) (v : Value), valueAt nesting t = .ok v → v.Fits nesting
  | .broken, nesting, v, h => by simp [valueAt] at h
  | .null, nesting, v, h => by
      cases h
      simp [Value.Fits]
  | .bool b, nesting, v, h => by
      cases h
      simp [Value.Fits]
  | .number none, nesting, v, h => by simp [valueAt] at h
  | .number (some n), nesting, v, h => by
      cases h
      simp [Value.Fits]
  | .text none, nesting, v, h => by simp [valueAt] at h
  | .text (some s), nesting, v, h => by
      cases h
      simp [Value.Fits]
  | .array items closed, 0, v, h => by simp [valueAt] at h
  | .array items closed, nesting + 1, v, h => by
      simp only [valueAt, bind_eq_ok, atEnd_eq_ok] at h
      rcases h with ⟨vs, hvs, -, rfl⟩
      exact fits_itemValues items nesting vs hvs
  | .object members closed, 0, v, h => by simp [valueAt] at h
  | .object members closed, nesting + 1, v, h => by
      simp only [valueAt, bind_eq_ok, atEnd_eq_ok] at h
      rcases h with ⟨ms, hms, -, rfl⟩
      exact fits_memberValues members nesting [] ms hms List.nodup_nil trivial

theorem fits_itemValues : ∀ (items : List Tree) (nesting : Nat) (vs : List Value),
    itemValues nesting items = .ok vs → Value.AllFit nesting vs
  | [], nesting, vs, h => by
      cases h
      trivial
  | t :: rest, nesting, vs, h => by
      simp only [itemValues, bind_eq_ok] at h
      rcases h with ⟨v, hv, ws, hws, heq⟩
      cases heq
      exact ⟨fits_valueAt t nesting v hv, fits_itemValues rest nesting ws hws⟩

theorem fits_memberValues : ∀ (members : List (Option String × Tree)) (nesting : Nat)
    (found ms : List (String × Value)), memberValues nesting found members = .ok ms →
    (found.map (·.1)).Nodup → Value.AllFitMembers nesting found →
    (ms.map (·.1)).Nodup ∧ Value.AllFitMembers nesting ms
  | [], nesting, found, ms, h, hnodup, hfound => by
      cases h
      exact ⟨hnodup, hfound⟩
  | (none, t) :: rest, nesting, found, ms, h, _, _ => by simp [memberValues] at h
  | (some name, t) :: rest, nesting, found, ms, h, hnodup, hfound => by
      simp only [memberValues, bind_eq_ok] at h
      rcases h with ⟨v, hv, hms⟩
      exact fits_memberValues rest nesting _ ms hms (Value.nodup_putMember hnodup)
        (Value.allFitMembers_putMember (fits_valueAt t nesting v hv) hfound)

end

mutual

/-- A value is taken out of its own outline. -/
theorem valueAt_tree : ∀ (v : Value) (nesting : Nat), v.Fits nesting → valueAt nesting v.tree = .ok v
  | .null, nesting, _ => by simp [Value.tree, valueAt]
  | .bool b, nesting, _ => by simp [Value.tree, valueAt]
  | .number n, nesting, _ => by simp [Value.tree, valueAt]
  | .text s, nesting, _ => by simp [Value.tree, valueAt]
  | .array items, 0, h => by simp [Value.Fits] at h
  | .array items, nesting + 1, h => by
      rw [Value.tree, valueAt, itemValues_itemTrees items nesting h]
      rfl
  | .object members, 0, h => by simp [Value.Fits] at h
  | .object members, nesting + 1, h => by
      rw [Value.tree, valueAt, memberValues_memberTrees members nesting [] h.1 h.2]
      rfl

theorem itemValues_itemTrees : ∀ (vs : List Value) (nesting : Nat), Value.AllFit nesting vs →
    itemValues nesting (Value.itemTrees vs) = .ok vs
  | [], nesting, _ => rfl
  | v :: rest, nesting, h => by
      rw [Value.itemTrees, itemValues, valueAt_tree v nesting h.1, itemValues_itemTrees rest nesting h.2]
      rfl

theorem memberValues_memberTrees : ∀ (ms : List (String × Value)) (nesting : Nat)
    (found : List (String × Value)), ((found ++ ms).map (·.1)).Nodup → Value.AllFitMembers nesting ms →
    memberValues nesting found (Value.memberTrees ms) = .ok (found ++ ms)
  | [], nesting, found, _, _ => by rw [List.append_nil]; rfl
  | (name, v) :: rest, nesting, found, hnodup, h => by
      have hnew : name ∉ found.map (·.1) := by
        rw [List.map_append, List.nodup_append] at hnodup
        exact fun hmem => hnodup.2.2 name hmem name (List.mem_cons_self ..) rfl
      have happend : found ++ (name, v) :: rest = (found ++ [(name, v)]) ++ rest := by simp
      rw [happend] at hnodup ⊢
      rw [Value.memberTrees, memberValues, valueAt_tree v nesting h.1]
      change memberValues nesting (Value.putMember name v found) _ = _
      rw [Value.putMember_of_not_mem hnew]
      exact memberValues_memberTrees rest nesting _ hnodup h.2

end

theorem decode_value_eq_ok {text : String} {v : Value} :
    decode Decoder.value text = .ok v ↔ ∃ t, Document.ofText text = ⟨t, true⟩ ∧
      valueAt greatestNesting t = .ok v := by
  rw [decode]
  rcases Document.ofText text with ⟨t, isWhole⟩
  dsimp only [Decoder.value]
  cases hvalue : valueAt greatestNesting t with
  | error fault => cases isWhole <;> simp_all
  | ok a => cases isWhole <;> simp_all

/-- A value that was taken is read back when it is written. -/
theorem decode_render {v : Value} (hexact : v.HasExactNumbers) (hfits : v.Fits greatestNesting) :
    decode Decoder.value v.render = .ok v := by
  rw [decode_value_eq_ok]
  exact ⟨_, ofText_render hexact, valueAt_tree v _ hfits⟩

/-! ## The first member of an object -/

/-- The value of the last of the members of a given name. -/
def lastOf? (name : String) : List (Option String × Tree) → Option Tree
  | [] => none
  | (key, t) :: rest => (lastOf? name rest).or (if key = some name then some t else none)

/-- A text is accepted as an object, of which the first member has the given name. The value is that of the last
member of that name. -/
inductive HoldsFirst (text : String) (name : String) (value : Value) : Prop
  | object {members : List (Option String × Tree)} {tree : Tree}
      (whole : Document.ofText text = ⟨.object members true, true⟩)
      (sound : (Tree.object members true).IsSound)
      (shallow : (Tree.object members true).depth ≤ greatestNesting)
      (first : members.head?.map (·.1) = some (some name)) (last : lastOf? name members = some tree)
      (value : valueAt (greatestNesting - 1) tree = .ok value)

/-- The member in front keeps its place, with the value that is put over it last. -/
theorem first_memberValues {nesting : Nat} {name : String} {v : Value} {found ms : List (String × Value)}
    {members : List (Option String × Tree)}
    (h : memberValues nesting ((name, v) :: found) members = .ok ms) :
    ∃ v' rest, ms = (name, v') :: rest ∧ (lastOf? name members = none → v' = v) ∧
      ∀ t, lastOf? name members = some t → valueAt nesting t = .ok v' := by
  induction members generalizing v found with
  | nil =>
      cases h
      exact ⟨v, found, rfl, fun _ => rfl, fun t ht => by cases ht⟩
  | cons m rest ih =>
      rcases m with ⟨_ | key, tree⟩
      · simp [memberValues] at h
      simp only [memberValues, bind_eq_ok] at h
      rcases h with ⟨u, hu, hrest⟩
      by_cases hkey : name = key
      · subst hkey
        rw [Value.putMember, if_pos rfl] at hrest
        rcases ih hrest with ⟨v', more, hms, hnone, hsome⟩
        rw [lastOf?, if_pos rfl]
        refine ⟨v', more, hms, by simp, fun t ht => ?_⟩
        cases hlast : lastOf? name rest with
        | none =>
            rw [hlast, Option.none_or, Option.some.injEq] at ht
            rw [hnone hlast, ← ht]
            exact hu
        | some last =>
            rw [hlast, Option.some_or, Option.some.injEq] at ht
            rw [← ht]
            exact hsome last hlast
      · rw [Value.putMember, if_neg hkey] at hrest
        rw [lastOf?, if_neg (by simpa using Ne.symm hkey), Option.or_none]
        exact ih hrest

/-- What is taken out of an object begins with its first member, unless it has none. -/
theorem valueAt_object_cases {nesting : Nat} {members : List (Option String × Tree)} {v : Value}
    (h : valueAt (nesting + 1) (.object members true) = .ok v) :
    (members = [] ∧ v = .object []) ∨ ∃ name tree value rest, members.head?.map (·.1) = some (some name) ∧
      lastOf? name members = some tree ∧ valueAt nesting tree = .ok value ∧
      v = .object ((name, value) :: rest) := by
  simp only [valueAt, bind_eq_ok, atEnd_eq_ok] at h
  rcases h with ⟨ms, hms, -, rfl⟩
  cases members with
  | nil =>
      cases hms
      exact Or.inl ⟨rfl, rfl⟩
  | cons m rest =>
      rcases m with ⟨_ | name, tree⟩
      · simp [memberValues] at hms
      simp only [memberValues, bind_eq_ok] at hms
      rcases hms with ⟨u, hu, hrest⟩
      rcases first_memberValues hrest with ⟨value, more, rfl, hnone, hsome⟩
      refine Or.inr ⟨name, (lastOf? name rest).getD tree, value, more, rfl, ?_, ?_, rfl⟩
      · rw [lastOf?, if_pos rfl]
        cases lastOf? name rest <;> rfl
      · cases hlast : lastOf? name rest with
        | none =>
            rw [hnone hlast]
            exact hu
        | some last => exact hsome last hlast

theorem holdsFirst_iff {text name : String} {value : Value} : HoldsFirst text name value ↔
    ∃ rest, decode Decoder.value text = .ok (.object ((name, value) :: rest)) := by
  simp only [decode_value_eq_ok]
  constructor
  · rintro ⟨hwhole, hsound, hshallow, hfirst, hlast, hvalue⟩
    -- The outline is accepted, and what is taken out of it begins with the member that is in front.
    rcases (valueAt_iff _ greatestNesting).2 ⟨hsound, hshallow⟩ with ⟨v, hv⟩
    rcases valueAt_object_cases hv with ⟨rfl, -⟩ | ⟨name', tree, value', rest, hfirst', hlast', hvalue', rfl⟩
    · cases hfirst
    obtain rfl : name' = name := Option.some.inj (Option.some.inj (hfirst'.symm.trans hfirst))
    obtain rfl := Option.some.inj (hlast'.symm.trans hlast)
    obtain rfl : value' = value := Except.ok.inj (hvalue'.symm.trans hvalue)
    exact ⟨rest, _, hwhole, hv⟩
  · rintro ⟨rest, t, hwhole, hv⟩
    rcases (valueAt_iff t greatestNesting).1 ⟨_, hv⟩ with ⟨hsound, hshallow⟩
    cases t with
    | object members closed =>
        obtain rfl : closed = true := hsound.2
        rcases valueAt_object_cases hv with ⟨-, heq⟩ | ⟨name', tree, value', rest', hfirst, hlast, hvalue, heq⟩
        · cases heq
        cases heq
        exact .object hwhole hsound hshallow hfirst hlast hvalue
    | array items closed =>
        simp only [greatestNesting, valueAt, bind_eq_ok, atEnd_eq_ok] at hv
        rcases hv with ⟨vs, -, -, heq⟩
        cases heq
    | number n => cases n <;> cases hv
    | text s => cases s <;> cases hv
    | _ => cases hv

theorem Value.firstMember?_eq_some {v data : Value} : v.firstMember? = some data ↔
    ∃ name value rest, v = .object ((name, value) :: rest) ∧ data = .object [(name, value)] := by
  constructor
  · intro h
    cases v with
    | object members =>
        cases members with
        | nil => cases h
        | cons m rest => exact ⟨m.1, m.2, rest, rfl, (Option.some.inj h).symm⟩
    | _ => cases h
  · rintro ⟨name, value, rest, rfl, rfl⟩
    rfl

/-- The first member of an object is read back when it is written. -/
theorem HoldsFirst.decode_render {text name : String} {value : Value} (h : HoldsFirst text name value)
    (hexact : ∀ v, decode Decoder.value text = .ok v → v.HasExactNumbers) :
    decode Decoder.value (Value.object [(name, value)]).render = .ok (.object [(name, value)]) := by
  rcases holdsFirst_iff.1 h with ⟨rest, hdecode⟩
  have hnumbers := hexact _ hdecode
  rcases decode_value_eq_ok.1 hdecode with ⟨t, -, hv⟩
  have hfits := fits_valueAt t greatestNesting _ hv
  rw [Value.HasExactNumbers] at hnumbers
  refine Json.decode_render ?_ ?_
  · rw [Value.HasExactNumbers]
    exact ⟨hnumbers.1, trivial⟩
  · exact ⟨List.nodup_singleton _, hfits.2.1, trivial⟩

end Json
end CmInventory
