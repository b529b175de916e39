import CmInventory.Proofs.Handle.ReadBack
import CmInventory.Registration.Request
import CmInventory.Registration.Response

/-!
# Registrations and their answers are read back

A property or a setting without a value is written as null, so that it is told apart from one that is not
mentioned; a reason or a text that a response lacks is left out.
-/

namespace CmInventory

open Json (Lossless)
open Json.Fields (gives_ifAny gives_map gives_seq gives_single)
open Json.Value (memberIfAny)

/-! ## Requests -/

namespace RequestedHandle

theorem properties_lossless :
    Lossless propertiesToJson (Json.Decoder.dictionary (.nullable .text)) 1 :=
  Lossless.optionalText.dictionary

theorem flag_lossless : Lossless flagToJson (Json.Decoder.nullable .bool) 0 :=
  Lossless.bool.nullable (fun _ => Json.Value.noConfusion) rfl fun _ => rfl

theorem lossless : Lossless RequestedHandle.toJson RequestedHandle.decoder 2 := by
  refine Lossless.record (fun r => ?_) (fun _ => by simp) fun r ctx hn hctx => ?_
  · exact ⟨Lossless.text.exact _, properties_lossless.exact _, properties_lossless.exact _,
      flag_lossless.exact _, Lossless.optionalText.exact _, trivial⟩
  · refine gives_seq (gives_seq (gives_seq (gives_seq (gives_map RequestedHandle.mk ?_) ?_) ?_) ?_) ?_
    · exact gives_single hn (by simp) (Lossless.text.takes _ _ (Nat.zero_le _))
    · exact gives_single hn (by simp) (properties_lossless.takes _ _ hctx)
    · exact gives_single hn (by simp) (properties_lossless.takes _ _ hctx)
    · exact gives_single hn (by simp) (flag_lossless.takes _ _ (Nat.zero_le _))
    · exact gives_single hn (by simp) (Lossless.optionalText.takes _ _ (Nat.zero_le _))

end RequestedHandle

theorem Registration.lossless : Lossless Registration.toJson Registration.decoder 4 := by
  have hhandles := RequestedHandle.lossless.list
  have hids := Lossless.text.list
  refine Lossless.record (fun r => ?_) (fun _ => by simp) fun r ctx hn hctx => ?_
  · exact ⟨Lossless.text.exact _, Lossless.text.exact _, Lossless.text.exact _, hhandles.exact _,
      hhandles.exact _, hids.exact _, trivial⟩
  · have hflat : 1 ≤ ctx.nesting := by omega
    refine gives_seq (gives_seq (gives_seq (gives_seq (gives_seq
      (gives_map (fun combined data model created updated removed =>
        Registration.mk ⟨combined, data, model⟩ created updated removed) ?_) ?_) ?_) ?_) ?_) ?_
    · exact gives_single hn (by simp) (Lossless.text.takes _ _ (Nat.zero_le _))
    · exact gives_single hn (by simp) (Lossless.text.takes _ _ (Nat.zero_le _))
    · exact gives_single hn (by simp) (Lossless.text.takes _ _ (Nat.zero_le _))
    · exact gives_single hn (by simp) (hhandles.takes _ _ hctx)
    · exact gives_single hn (by simp) (hhandles.takes _ _ hctx)
    · exact gives_single hn (by simp) (hids.takes _ _ hflat)

/-! ## Responses -/

theorem Refusal.lossless : Lossless Refusal.toJson Refusal.decoder 0 :=
  Lossless.enumeration Refusal.ofName?_name

theorem ResponseStatus.lossless : Lossless ResponseStatus.toJson ResponseStatus.decoder 0 :=
  Lossless.enumeration ResponseStatus.ofName?_name

theorem HandleResponse.lossless : Lossless HandleResponse.toJson HandleResponse.decoder 1 := by
  refine Lossless.record (fun r => ?_) (fun r => ?_) fun r ctx hn hctx => ?_
  · cases r.refusal <;> cases r.text <;>
      simp [memberIfAny, Json.Value.AllExactMembers, HandleId.lossless.exact, ResponseStatus.lossless.exact,
        Refusal.lossless.exact, Lossless.text.exact]
  · cases r.refusal <;> cases r.text <;> simp [memberIfAny]
  · refine gives_seq (gives_seq (gives_seq (gives_map HandleResponse.mk ?_) ?_) ?_) ?_
    · exact gives_single hn (by simp) (HandleId.lossless.takes _ _ (Nat.zero_le _))
    · exact gives_single hn (by simp) (ResponseStatus.lossless.takes _ _ (Nat.zero_le _))
    · refine gives_ifAny Refusal.lossless (fun _ => Json.Value.noConfusion) (Nat.zero_le _) hn ?_ ?_
      · intro refusal h
        simp [h, memberIfAny]
      · intro h
        cases r.text <;> simp [h, memberIfAny]
    · refine gives_ifAny Lossless.text (fun _ => Json.Value.noConfusion) (Nat.zero_le _) hn ?_ ?_
      · intro text h
        simp [h, memberIfAny]
      · intro h
        cases r.refusal <;> simp [h, memberIfAny]

theorem RegistrationResponse.lossless :
    Lossless RegistrationResponse.toJson RegistrationResponse.decoder 3 := by
  have hanswers := HandleResponse.lossless.list
  refine Lossless.record (fun r => ?_) (fun _ => by simp) fun r ctx hn hctx => ?_
  · exact ⟨hanswers.exact _, hanswers.exact _, hanswers.exact _, trivial⟩
  · refine gives_seq (gives_seq (gives_map RegistrationResponse.mk ?_) ?_) ?_
    all_goals exact gives_single hn (by simp) (hanswers.takes _ _ hctx)

end CmInventory
