import CmInventory.Proofs.Json.Nesting
import CmInventory.Proofs.Program.Interleaving
import CmInventory.Proofs.Store.Arranged
import CmInventory.Proofs.Store.Fetched
import CmInventory.Proofs.Store.HandleMap

/-!
# What was saved last

Calls of the store come in any order and for any ids, and some of them fail. What is kept beside the record of a
handle is what the last call left there that had to do with it: a save that stands (`Stands`) is one that no later
save, removal or successful deletion superseded (`Supersedes`). Calls for other ids, calls of the other kind and
calls that fail do not count. Reading gives back what the save that stands was given (`tells_last_saved`), the
modules in order and the data as far as their text can be read.
-/

namespace CmInventory

open Json (Number Value greatestNesting)

namespace Store

variable {s : Store} {kind : SyncKind} {id : HandleId} {call : StoreCall} {calls : List StoreCall}
  {left : Option Fetched}

/-! ## Calls and what became of them -/

/-- The calls from a store on, each with whether it succeeded. -/
def outcomes (s : Store) : List StoreCall → List (StoreCall × Bool)
  | [] => []
  | call :: rest => (call, (s.perform call).1.isOk) :: (s.perform call).2.outcomes rest

theorem outcomes_append_singleton (s : Store) (calls : List StoreCall) (call : StoreCall) :
    s.outcomes (calls ++ [call]) = s.outcomes calls ++
      [(call, ((calls.foldl (fun s call => (s.perform call).2) s).perform call).1.isOk)] := by
  induction calls generalizing s with
  | nil => rfl
  | cons first rest ih => exact congrArg (_ :: ·) (ih (s.perform first).2)

/-- A call succeeded and put something else, or nothing, in the place of what was kept under an id. -/
def Supersedes (kind : SyncKind) (id : HandleId) (outcome : StoreCall × Bool) : Prop :=
  outcome.2 = true ∧
    match outcome.1 with
    | .saveData i _ | .deleteData i => kind = .data ∧ i = id
    | .saveModules i _ => kind = .modules ∧ i = id
    | .delete i => i = id
    | .deleteAll ids => id ∈ ids
    | _ => False

/-- A call succeeded, and no later one superseded what it left under an id. -/
def Stands (kind : SyncKind) (id : HandleId) (call : StoreCall) (calls : List StoreCall) : Prop :=
  Since (· = (call, true)) (Supersedes kind id) (empty.outcomes calls)

theorem supersedes_iff {succeeded : Bool} : Supersedes kind id (call, succeeded) ↔
    succeeded = true ∧ ∃ left, call.leaves? kind id = some left := by
  cases call <;> simp [Supersedes, StoreCall.leaves?]

theorem afterCalls_append_singleton (calls : List StoreCall) (call : StoreCall) :
    afterCalls (calls ++ [call]) = ((afterCalls calls).perform call).2 :=
  List.foldl_concat ..

theorem stands_append_singleton (calls : List StoreCall) {last : StoreCall} :
    Stands kind id call (calls ++ [last]) ↔
      (last, ((afterCalls calls).perform last).1.isOk) = (call, true) ∨
        (Stands kind id call calls ∧ ¬ Supersedes kind id (last, ((afterCalls calls).perform last).1.isOk)) := by
  rw [Stands, outcomes_append_singleton, since_snoc]
  exact Iff.rfl

/-! ## What is kept -/

theorem fetched?_after (s : Store) (kind : SyncKind) (id : HandleId) (call : StoreCall) :
    (s.perform call).2.fetched? kind id =
      (if (s.perform call).1.isOk then call.leaves? kind id else none).getD (s.fetched? kind id) :=
  fetched?_perform rfl

/-- A call that supersedes what was kept keeps what it leaves. -/
theorem fetched?_of_supersedes (h : Supersedes kind id (call, (s.perform call).1.isOk))
    (hleft : call.leaves? kind id = some left) : (s.perform call).2.fetched? kind id = left := by
  have hok : (s.perform call).1.isOk = true := h.1
  rw [fetched?_after, if_pos hok, hleft]
  rfl

/-- Any other call leaves it alone. -/
theorem fetched?_of_not_supersedes (h : ¬ Supersedes kind id (call, (s.perform call).1.isOk)) :
    (s.perform call).2.fetched? kind id = s.fetched? kind id := by
  rw [supersedes_iff, not_and, not_exists] at h
  -- Either the call has nothing to do with the id, or it failed.
  by_cases hok : (s.perform call).1.isOk = true
  · have hnone : call.leaves? kind id = none := Option.eq_none_iff_forall_ne_some.2 (h hok)
    rw [fetched?_after, if_pos hok, hnone]
    rfl
  · rw [fetched?_after, if_neg hok]
    rfl

/-- What a call left is kept as long as the call stands. -/
theorem Stands.fetched?_eq (h : Stands kind id call calls) (hleft : call.leaves? kind id = some left) :
    (afterCalls calls).fetched? kind id = left := by
  -- The last call either is the one that stands, or it did not supersede what was kept before it.
  induction calls using List.reverseRecOn with
  | nil => exact absurd h not_since_nil
  | append_singleton calls last ih =>
      rw [afterCalls_append_singleton]
      rcases (stands_append_singleton calls).1 h with heq | ⟨hbefore, hlast⟩
      · obtain ⟨rfl, hok⟩ := Prod.mk.inj heq
        exact fetched?_of_supersedes (supersedes_iff.2 ⟨hok, left, hleft⟩) hleft
      · rw [fetched?_of_not_supersedes hlast]
        exact ih hbefore

/-- Nothing is kept if no call stands that left something. -/
theorem fetched?_eq_none (h : ∀ call f, call.leaves? kind id = some (some f) → ¬ Stands kind id call calls) :
    (afterCalls calls).fetched? kind id = none := by
  induction calls using List.reverseRecOn with
  | nil => cases kind <;> rfl
  | append_singleton calls last ih =>
      rw [afterCalls_append_singleton]
      by_cases hlast : Supersedes kind id (last, ((afterCalls calls).perform last).1.isOk)
      · rcases supersedes_iff.1 hlast with ⟨hok, left, hleft⟩
        rw [fetched?_of_supersedes hlast hleft]
        -- The last call stands, so that it was none that leaves something.
        cases left with
        | none => rfl
        | some f =>
            refine absurd ((stands_append_singleton calls).2 (Or.inl ?_)) (h last f hleft)
            rw [hok]
      · rw [fetched?_of_not_supersedes hlast]
        refine ih fun call f hleft hstands => h call f hleft ?_
        exact (stands_append_singleton calls).2 (Or.inr ⟨hstands, hlast⟩)

/-! ## What is read -/

theorem leaves?_saveModules (id : HandleId) (saved : List ModuleReference) :
    (StoreCall.saveModules id saved).leaves? .modules id = some (Fetched.ofModules (arrange saved)) :=
  if_pos ⟨rfl, rfl⟩

theorem leaves?_saveData (id : HandleId) (v : Value) :
    (StoreCall.saveData id v).leaves? .data id = some (some (.data v.render)) :=
  if_pos ⟨rfl, rfl⟩

/-- Only a save of modules leaves modules. -/
theorem saves_of_leaves?_modules {f : Fetched} (h : call.leaves? .modules id = some (some f)) :
    ∃ saved, call = .saveModules id saved := by
  cases call <;> simp_all [StoreCall.leaves?]

/-- Only a save of data leaves data. -/
theorem saves_of_leaves?_data {f : Fetched} (h : call.leaves? .data id = some (some f)) :
    ∃ v, call = .saveData id v := by
  cases call <;> simp_all [StoreCall.leaves?]

/-- What is read under an id after calls. An object that a caller saves has no name twice; as a list of members it
could, so that this is said of the values. -/
structure TellsLastSaved (calls : List StoreCall) (id : HandleId) : Prop where
  /-- The modules of the save that stands. -/
  modules : ∀ saved, Stands .modules id (.saveModules id saved) calls →
    ∃ found, ((afterCalls calls).perform (.getModules id)).1 = .ok found ∧ Arranges found saved
  noModules : (∀ saved, ¬ Stands .modules id (.saveModules id saved) calls) →
    ((afterCalls calls).perform (.getModules id)).1 = .ok []
  /-- The value of the save that stands, unless it is nested deeper than texts are read. -/
  data : ∀ v, Stands .data id (.saveData id v) calls → v.HasExactNumbers → v.HasDistinctNames →
    ((afterCalls calls).perform (.getData id)).1 =
      if v.depth ≤ greatestNesting then .ok (some v) else .error (.unreadable .malformed)
  noData : (∀ v, ¬ Stands .data id (.saveData id v) calls) →
    ((afterCalls calls).perform (.getData id)).1 = .ok none

theorem getModules_of_stands {saved : List ModuleReference}
    (h : Stands .modules id (.saveModules id saved) calls) :
    (afterCalls calls).getModules id = arrange saved :=
  Fetched.ofModules_injective (h.fetched?_eq (leaves?_saveModules id saved))

theorem getData_of_stands {v : Value} (h : Stands .data id (.saveData id v) calls)
    (hexact : v.HasExactNumbers) (hdistinct : v.HasDistinctNames) :
    (afterCalls calls).getData id =
      if v.depth ≤ greatestNesting then .ok (some v) else .error (.unreadable .malformed) := by
  have hkept := getData_of_fetched? (h.fetched?_eq (leaves?_saveData id v))
  -- The text that was saved is read as it was written, or it is nested too deep.
  calc (afterCalls calls).getData id
      = ((Json.decode .value v.render).map some).mapError .unreadable := hkept
    _ = ((if v.depth ≤ greatestNesting then Except.ok v else .error .malformed).map some).mapError
          .unreadable := by rw [Json.decode_render_eq hexact hdistinct]
    _ = _ := by split <;> rfl

theorem stands_saveData (id : HandleId) (v : Value) : Stands .data id (.saveData id v) [.saveData id v] :=
  (stands_append_singleton []).2 (Or.inl rfl)

/-- A value that is nested too deep is saved without an error, and only its reader fails. -/
theorem unreadable_of_deep {v : Value} (id : HandleId) (hexact : v.HasExactNumbers)
    (hdistinct : v.HasDistinctNames) (hdeep : greatestNesting < v.depth) :
    ((afterCalls [.saveData id v]).perform (.getData id)).1 = .error (.unreadable .malformed) :=
  (getData_of_stands (stands_saveData id v) hexact hdistinct).trans (if_neg (Nat.not_le.2 hdeep))

/-- Whatever was called, and for whatever ids, the modules and the data that are read are those that were saved
last, unless something removed them since. -/
theorem tells_last_saved (calls : List StoreCall) (id : HandleId) : TellsLastSaved calls id where
  modules saved h :=
    ⟨_, congrArg Except.ok (getModules_of_stands h), arranges_arrange saved⟩
  noModules h := by
    have hnone : (afterCalls calls).fetched? .modules id = none := by
      refine fetched?_eq_none fun call f hleft hstands => ?_
      obtain ⟨saved, rfl⟩ := saves_of_leaves?_modules hleft
      exact h saved hstands
    exact congrArg Except.ok (Fetched.ofModules_injective hnone)
  data v h hexact hdistinct := getData_of_stands h hexact hdistinct
  noData h := by
    have hnone : (afterCalls calls).fetched? .data id = none := by
      refine fetched?_eq_none fun call f hleft hstands => ?_
      obtain ⟨v, rfl⟩ := saves_of_leaves?_data hleft
      exact h v hstands
    exact getData_of_none hnone

/-- Two handles are stored and data are saved of both, and then the second one is deleted. -/
def savedAndDeleted : List StoreCall :=
  [.insert [.advised ⟨"a"⟩ default default, .advised ⟨"b"⟩ default default], .saveData ⟨"b"⟩ (.natural 1),
    .saveModules ⟨"b"⟩ [⟨"b", "1"⟩], .saveModules ⟨"a"⟩ [⟨"b", "1"⟩, ⟨"a", "2"⟩, ⟨"b", "1"⟩],
    .saveData ⟨"a"⟩ (.natural 2), .saveData ⟨"a"⟩ (.object [("x", .natural 3)]), .delete ⟨"b"⟩]

/-- What was saved last of the first handle is read, a repeated module once, and nothing of the second one. -/
theorem last_saved_of_repeated :
    (∃ found, ((afterCalls savedAndDeleted).perform (.getModules ⟨"a"⟩)).1 = .ok found ∧
        Arranges found [⟨"b", "1"⟩, ⟨"a", "2"⟩, ⟨"b", "1"⟩]) ∧
      ((afterCalls savedAndDeleted).perform (.getData ⟨"a"⟩)).1 = .ok (some (.object [("x", .natural 3)])) ∧
      ((afterCalls savedAndDeleted).perform (.getModules ⟨"b"⟩)).1 = .ok [] ∧
      ((afterCalls savedAndDeleted).perform (.getData ⟨"b"⟩)).1 = .ok none := by
  have hmodules :
      Stands .modules ⟨"a"⟩ (.saveModules ⟨"a"⟩ [⟨"b", "1"⟩, ⟨"a", "2"⟩, ⟨"b", "1"⟩])
        savedAndDeleted := by
    refine ⟨(empty.outcomes savedAndDeleted).take 3, _, (empty.outcomes savedAndDeleted).drop 4, rfl, rfl, ?_⟩
    simp [savedAndDeleted, outcomes, Supersedes]
  have hdata : Stands .data ⟨"a"⟩ (.saveData ⟨"a"⟩ (.object [("x", .natural 3)])) savedAndDeleted := by
    refine ⟨(empty.outcomes savedAndDeleted).take 5, _, (empty.outcomes savedAndDeleted).drop 6, rfl, rfl, ?_⟩
    simp [savedAndDeleted, outcomes, Supersedes]
  -- The removal at the end superseded whatever was saved of the other handle.
  have hremoved {kind : SyncKind} {call : StoreCall} (hcall : call ≠ .delete ⟨"b"⟩) :
      ¬ Stands kind ⟨"b"⟩ call savedAndDeleted := by
    intro hstands
    rcases (stands_append_singleton (savedAndDeleted.take 6)).1 hstands with heq | ⟨-, hkept⟩
    · exact hcall (Prod.mk.inj heq).1.symm
    · exact hkept ⟨rfl, rfl⟩
  have hdepth : (Value.object [("x", .natural 3)]).depth ≤ greatestNesting := by decide
  refine ⟨(tells_last_saved _ ⟨"a"⟩).modules _ hmodules, ?_, ?_, ?_⟩
  · refine ((tells_last_saved _ ⟨"a"⟩).data _ hdata ?_ ?_).trans (if_pos hdepth)
    · simp [Value.HasExactNumbers, Value.AllExactMembers, Value.natural, Number.IsExact, Number.leastInteger,
        Number.greatestInteger]
    · simp [Value.HasDistinctNames, Value.AllDistinctMembers, Value.natural]
  · exact (tells_last_saved _ ⟨"b"⟩).noModules fun saved => hremoved (by simp)
  · exact (tells_last_saved _ ⟨"b"⟩).noData fun v => hremoved (by simp)

/-- A value may be nested so deep that it is saved and cannot be read again. -/
theorem not_told_of_nested :
    (Value.nested 127).HasExactNumbers ∧ (Value.nested 127).HasDistinctNames ∧
      Stands .data ⟨"a"⟩ (.saveData ⟨"a"⟩ (.nested 127)) [.saveData ⟨"a"⟩ (.nested 127)] ∧
      ((afterCalls [.saveData ⟨"a"⟩ (.nested 127)]).perform (.getData ⟨"a"⟩)).1 =
        .error (.unreadable .malformed) := by
  have hexact := Value.hasExactNumbers_nested 127
  have hdistinct := Value.hasDistinctNames_nested 127
  have hdeep : greatestNesting < (Value.nested 127).depth := by
    rw [Value.depth_nested]
    decide
  exact ⟨hexact, hdistinct, stands_saveData _ _, unreadable_of_deep ⟨"a"⟩ hexact hdistinct hdeep⟩

end Store
end CmInventory
