import CmInventory.Proofs.Inventory.AtWork
import CmInventory.Proofs.Inventory.Picks
import CmInventory.Proofs.Store.HandleMap

/-!
# Candidates for a retry

Which locked handles are due is decided twice. The store selects handles by the category of the reason that stands
beside their records, and of these the rule on the status picks those that have waited. A handle that is locked
without a reason has no category, so it is never selected, while the rule on its status says that it may be tried
again. The two agree on everything that is stored exactly if no handle is locked without a reason
(`due_as_ready_iff`), which holds as long as only the operations of members write the store
(`ensures_dueForRetry_of_kept`).
-/

namespace CmInventory

open Inventory

variable {now : Instant} {base : Interval} {w : World}

/-- Every handle that is locked is locked for a reason. -/
def Store.NamesReasons (s : Store) : Prop :=
  ∀ h : Handle, s.get h.id = .ok h → h.lifecycle = .locked → h.status.lockReason ≠ none

/-- In a store that the operations of members keep, the handles that are found are those that may be tried again. -/
theorem Inventory.ensures_dueForRetry_of_kept (hk : w.store.Kept) :
    (dueForRetry now base).run.Ensures .alone
      (fun result w' => w.Same w' ∧ ∃ due, result = .ok due ∧ (due.map (·.id)).Nodup ∧
        ∀ h, h ∈ due ↔ w.store.record? h.id = some h ∧ h.status.isReadyForRetry now base = true) w := by
  refine (ensures_dueForRetry hk.sound).mono ?_
  rintro result w' ⟨hsame, due, hresult, hnodup, hmem⟩
  refine ⟨hsame, due, hresult, hnodup, fun h => (hmem h).trans ?_⟩
  refine and_congr_right fun hr => and_iff_right_of_imp fun hready => ?_
  have hlocked := HandleStatus.lifecycle_of_isReadyForRetry hready
  exact Option.isSome_iff_ne_none.1 ((hk.records _ h hr).locked hlocked)

/-- Whatever was called since the store was empty, the handles that are found for a retry are the stored ones that
have a reason and may be tried again, each of them once. They are all stored handles that may be tried again exactly
if no handle is locked without a reason. -/
theorem due_as_ready_iff (calls : List StoreCall) (now : Instant) (base : Interval)
    (hw : w.store = Store.afterCalls calls) {c : Circumstances} (hc : ∀ n call, c.storeFailure n call = none) :
    ∃ due, ((dueForRetry now base).run.run (World.reply c) w).1 = .ok due ∧ (due.map (·.id)).Nodup ∧
      (∀ h, h ∈ due ↔ w.store.get h.id = .ok h ∧ h.status.lockReason ≠ none ∧
        h.status.isReadyForRetry now base = true) ∧
      ((∀ h, h ∈ due ↔ w.store.get h.id = .ok h ∧ h.status.isReadyForRetry now base = true) ↔
        w.store.NamesReasons) := by
  have hs : w.store.Sound := hw ▸ (Store.records_afterCalls calls).1
  have hfound : (dueForRetry now base).run.Ensures .alone _ w := ensures_dueForRetry hs
  rcases World.run_of_ensures (World.only_deletes hc) hfound with ⟨-, due, hdue, hnodup, hmem⟩
  simp only [← hs.get_eq_ok_iff] at hmem
  refine ⟨due, hdue, hnodup, hmem, ?_⟩
  constructor
  · intro hall h hget hlocked hnone
    have hready : h.status.isReadyForRetry now base = true :=
      (HandleStatus.isReadyForRetry_of_none hnone).2 hlocked
    exact ((hmem h).1 ((hall h).2 ⟨hget, hready⟩)).2.1 hnone
  · intro hnames h
    refine (hmem h).trans (and_congr_right fun hget => and_iff_right_of_imp fun hready => ?_)
    exact hnames h hget (HandleStatus.lifecycle_of_isReadyForRetry hready)

/-- A handle that is locked without a reason. -/
def unreasonedHandle : Handle :=
  { (default : Handle) with id := ⟨"a"⟩, status := { (default : HandleStatus) with lifecycle := .locked } }

/-- That handle is inserted. It may be tried again, and it is never found. -/
theorem due_without_unreasoned :
    let w := { World.empty with store := Store.afterCalls [.insert [unreasonedHandle]] }
    w.store.get ⟨"a"⟩ = .ok unreasonedHandle ∧
      unreasonedHandle.status.isReadyForRetry .epoch (.ofSeconds 60) = true ∧
      ¬ w.store.NamesReasons ∧
      ∃ due, ((dueForRetry .epoch (.ofSeconds 60)).run.run (World.reply World.undisturbed) w).1 = .ok due ∧
        unreasonedHandle ∉ due := by
  intro w
  have hget : w.store.get ⟨"a"⟩ = .ok unreasonedHandle := HandleRow.handle_ofHandle _
  have hready : unreasonedHandle.status.isReadyForRetry .epoch (.ofSeconds 60) = true := by decide
  rcases due_as_ready_iff (w := w) [.insert [unreasonedHandle]] .epoch (.ofSeconds 60) rfl
    (c := World.undisturbed) (fun _ _ => rfl) with ⟨due, hdue, -, hmem, -⟩
  refine ⟨hget, hready, fun hnames => hnames unreasonedHandle hget rfl rfl, due, hdue, ?_⟩
  exact fun hin => ((hmem _).1 hin).2.1 rfl

end CmInventory
