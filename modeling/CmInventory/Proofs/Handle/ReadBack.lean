import CmInventory.Handle.Basic
import CmInventory.Proofs.Json.Lossless
import CmInventory.Proofs.Time.ReadBack

/-!
# Handles are read back from their records

Every part of a handle, and the handle as a whole, is taken back from its JSON text: all texts, all maps
of properties, present and absent members, every instant (`Handle.lossless`).
-/

namespace CmInventory

open Json (Lossless)
open Json.Fields (gives_ifAny gives_map gives_seq gives_single)
open Json.Value (memberIfAny)

theorem HandleId.lossless : Lossless HandleId.toJson HandleId.decoder 0 :=
  Lossless.text.map fun _ => rfl

theorem Lifecycle.lossless : Lossless Lifecycle.toJson Lifecycle.decoder 0 :=
  Lossless.enumeration Lifecycle.ofName?_name

theorem SyncState.lossless : Lossless SyncState.toJson SyncState.decoder 0 :=
  Lossless.enumeration SyncState.ofName?_name

theorem LockCategory.lossless : Lossless LockCategory.toJson LockCategory.decoder 0 :=
  Lossless.enumeration LockCategory.ofName?_name

theorem Instant.lossless : Lossless Instant.toJson Instant.decoder 0 :=
  Lossless.parsedText Instant.ofText?_render

theorem Endpoints.lossless : Lossless Endpoints.toJson Endpoints.decoder 1 := by
  refine Lossless.record (fun e => ?_) (fun _ => by simp) fun e ctx hn _ => ?_
  · exact ⟨Lossless.text.exact _, Lossless.text.exact _, Lossless.text.exact _, trivial⟩
  · refine gives_seq (gives_seq (gives_map Endpoints.mk ?_) ?_) ?_
    all_goals exact gives_single hn (by simp) (Lossless.text.takes _ _ (Nat.zero_le _))

theorem LockReason.lossless : Lossless LockReason.toJson LockReason.decoder 1 := by
  refine Lossless.record (fun r => ?_) (fun _ => by simp) fun r ctx hn _ => ?_
  · have := r.attempt.toNat_lt
    simp only [Json.Value.HasExactNumbers, Json.Value.AllExactMembers, LockCategory.toJson,
      Json.Value.natural, Json.Number.IsExact, Json.Number.leastInteger, Json.Number.greatestInteger,
      true_and, and_true]
    omega
  · -- The attempt is read as a natural number and made a word again.
    have hattempt : UInt32.ofNat r.attempt.toNat = r.attempt := by simp
    have hmade : r = ⟨r.category, UInt32.ofNat r.attempt.toNat, r.message⟩ := by rw [hattempt]
    conv => rhs; rw [hmade]
    refine gives_seq (gives_seq (gives_map _ ?_) ?_) ?_
    · exact gives_single hn (by simp) (LockCategory.lossless.takes _ _ (Nat.zero_le _))
    · exact gives_single hn (by simp) (Lossless.takes_natural r.attempt.toNat_lt _)
    · exact gives_single hn (by simp) (Lossless.text.takes _ _ (Nat.zero_le _))

namespace OperationalStore

theorem time_lossless : Lossless timeToJson (Json.Decoder.nullable Instant.decoder) 0 :=
  Instant.lossless.nullable (fun _ => Json.Value.noConfusion) rfl fun _ => rfl

theorem lossless : Lossless OperationalStore.toJson OperationalStore.decoder 1 := by
  refine Lossless.record (fun o => ?_) (fun _ => by simp) fun o ctx hn _ => ?_
  · exact ⟨SyncState.lossless.exact _, time_lossless.exact _, trivial⟩
  · refine gives_seq (gives_map OperationalStore.mk ?_) ?_
    · exact gives_single hn (by simp) (SyncState.lossless.takes _ _ (Nat.zero_le _))
    · exact gives_single hn (by simp) (time_lossless.takes _ _ (Nat.zero_le _))

theorem stores_lossless :
    Lossless OperationalStore.storesToJson OperationalStore.storesDecoder 2 := by
  refine Lossless.record (fun o => ?_) (fun _ => by simp) fun o ctx hn hctx => ?_
  · exact ⟨lossless.exact o, trivial⟩
  · exact gives_map id (gives_single hn (by simp) (lossless.takes o _ hctx))

end OperationalStore

namespace HandleStatus

theorem lossless : Lossless HandleStatus.toJson HandleStatus.decoder 3 := by
  refine Lossless.record (fun s => ?_) (fun s => ?_) fun s ctx hn hctx => ?_
  · cases s.lockReason <;>
      simp [memberIfAny, Json.Value.AllExactMembers, Lifecycle.lossless.exact, Instant.lossless.exact,
        Lossless.bool.exact, OperationalStore.stores_lossless.exact, LockReason.lossless.exact]
  · -- The names differ whether the reason is among the members or not.
    cases s.lockReason <;> simp [memberIfAny]
  · have hreason : 1 ≤ ctx.nesting := by omega
    refine gives_seq (gives_seq (gives_seq (gives_seq
      (gives_map HandleStatus.mk ?_) ?_) ?_) ?_) ?_
    · exact gives_single hn (by simp) (Lifecycle.lossless.takes _ _ (Nat.zero_le _))
    · refine gives_ifAny LockReason.lossless (fun _ => Json.Value.noConfusion) hreason hn ?_ ?_
      · intro r h
        simp [h, memberIfAny]
      · intro h
        simp [h, memberIfAny]
    · exact gives_single hn (by simp) (Instant.lossless.takes _ _ (Nat.zero_le _))
    · exact gives_single hn (by simp) (Lossless.bool.takes _ _ (Nat.zero_le _))
    · exact gives_single hn (by simp) (OperationalStore.stores_lossless.takes _ _ hctx)

end HandleStatus

namespace Handle

theorem lossless : Lossless Handle.toJson Handle.decoder 4 := by
  refine Lossless.record (fun h => ?_) (fun h => ?_) fun h ctx hn hctx => ?_
  · cases h.moduleSetTag <;>
      simp [memberIfAny, Json.Value.AllExactMembers, HandleId.lossless.exact, Endpoints.lossless.exact,
        Lossless.text.dictionary.exact, HandleStatus.lossless.exact, Lossless.text.exact]
  · cases h.moduleSetTag <;> simp [memberIfAny]
  · have hflat : 1 ≤ ctx.nesting := by omega
    refine gives_seq (gives_seq (gives_seq (gives_seq (gives_seq
      (gives_map Handle.mk ?_) ?_) ?_) ?_) ?_) ?_
    · exact gives_single hn (by simp) (HandleId.lossless.takes _ _ (Nat.zero_le _))
    · exact gives_single hn (by simp) (Endpoints.lossless.takes _ _ hflat)
    · exact gives_single hn (by simp) (Lossless.text.dictionary.takes _ _ hflat)
    · exact gives_single hn (by simp) (Lossless.text.dictionary.takes _ _ hflat)
    · exact gives_single hn (by simp) (HandleStatus.lossless.takes _ _ hctx)
    · refine gives_ifAny Lossless.text (fun _ => Json.Value.noConfusion) (Nat.zero_le _) hn ?_ ?_
      · intro t htag
        simp [htag, memberIfAny]
      · intro htag
        simp [htag, memberIfAny]

end Handle
end CmInventory
