import CmInventory.Proofs.Json.Lossless
import CmInventory.Service.Body

/-!
# Bodies and configurations are read back

A notice that was written as JSON is read back from its text, and so is every configuration: no setting is
refused.
-/

namespace CmInventory

open Json Json.Fields Json.Decoder

theorem ForwardNotice.lossless : Lossless ForwardNotice.toJson ForwardNotice.decoder 2 := by
  refine Lossless.record (fun n => ?_) (fun _ => by simp) fun n ctx hn hctx => ?_
  · exact ⟨Lossless.text.exact _, Lossless.text.exact _, Lossless.text.list.exact _, trivial⟩
  · refine gives_seq (gives_seq (gives_map ForwardNotice.mk ?_) ?_) ?_
    · exact gives_single hn (by simp) (Lossless.text.takes _ _ (Nat.zero_le _))
    · exact gives_single hn (by simp) (Lossless.text.takes _ _ (Nat.zero_le _))
    · exact gives_single hn (by simp) (Lossless.text.list.takes _ _ hctx)

/-! ## Configurations -/

theorem Word.lossless :
    Lossless (fun n : UInt64 => .natural n.toNat) ((natural UInt64.size).map UInt64.ofNat) 0 where
  exact := fun n => by
    have hlt := n.toNat_lt
    simp only [Json.Value.natural, Json.Value.HasExactNumbers, Json.Number.IsExact,
      Json.Number.leastInteger, Json.Number.greatestInteger]
    omega
  takes := fun n ctx _ => by
    have hword : natural UInt64.size ctx (Json.Value.natural n.toNat).tree = .ok n.toNat :=
      Lossless.takes_natural n.toNat_lt_size ctx
    rw [Decoder.map, hword, Except.map, UInt64.ofNat_toNat]

theorem SubscriptionConfig.lossless :
    Lossless SubscriptionConfig.toJson SubscriptionConfig.decoder 1 := by
  refine Lossless.record (fun c => ?_) (fun _ => by simp) fun c ctx hn _ => ?_
  · exact ⟨Word.lossless.exact _, Word.lossless.exact _, Lossless.bool.exact _, Lossless.bool.exact _,
      trivial⟩
  · refine gives_seq (gives_seq (gives_seq (gives_map SubscriptionConfig.mk ?_) ?_) ?_) ?_
    · exact gives_single hn (by simp) (Word.lossless.takes _ _ (Nat.zero_le _))
    · exact gives_single hn (by simp) (Word.lossless.takes _ _ (Nat.zero_le _))
    · exact gives_single hn (by simp) (Lossless.bool.takes _ _ (Nat.zero_le _))
    · exact gives_single hn (by simp) (Lossless.bool.takes _ _ (Nat.zero_le _))

theorem WatchdogConfig.lossless : Lossless WatchdogConfig.toJson WatchdogConfig.decoder 1 := by
  refine Lossless.record (fun c => ?_) (fun _ => by simp) fun c ctx hn _ => ?_
  · exact ⟨Word.lossless.exact _, Word.lossless.exact _, Word.lossless.exact _, Word.lossless.exact _,
      trivial⟩
  · refine gives_seq (gives_seq (gives_seq (gives_map WatchdogConfig.mk ?_) ?_) ?_) ?_
    all_goals exact gives_single hn (by simp) (Word.lossless.takes _ _ (Nat.zero_le _))

theorem PluginConfig.lossless : Lossless PluginConfig.toJson PluginConfig.decoder 1 := by
  refine Lossless.record (fun c => ?_) (fun _ => by simp) fun c ctx hn _ => ?_
  · exact ⟨Word.lossless.exact _, Word.lossless.exact _, trivial⟩
  · refine gives_seq (gives_map PluginConfig.mk ?_) ?_
    all_goals exact gives_single hn (by simp) (Word.lossless.takes _ _ (Nat.zero_le _))

theorem Topics.lossless : Lossless Topics.toJson Topics.decoder 1 := by
  refine Lossless.record (fun t => ?_) (fun _ => by simp) fun t ctx hn _ => ?_
  · exact ⟨Lossless.text.exact _, Lossless.text.exact _, trivial⟩
  · refine gives_seq (gives_map Topics.mk ?_) ?_
    all_goals exact gives_single hn (by simp) (Lossless.text.takes _ _ (Nat.zero_le _))

namespace Config

theorem lossless (generatedId : String) : Lossless Config.toJson (Config.decoder generatedId) 2 := by
  refine Lossless.record (fun c => ?_) (fun _ => by simp) fun c ctx hn hctx => ?_
  · exact ⟨Lossless.text.exact _, WatchdogConfig.lossless.exact _, SubscriptionConfig.lossless.exact _,
      PluginConfig.lossless.exact _, Topics.lossless.exact _, trivial⟩
  · refine gives_seq (gives_seq (gives_seq (gives_seq (gives_map Config.mk ?_) ?_) ?_) ?_) ?_
    · exact gives_single hn (by simp) (Lossless.text.takes _ _ (Nat.zero_le _))
    · exact gives_single hn (by simp) (WatchdogConfig.lossless.takes _ _ hctx)
    · exact gives_single hn (by simp) (SubscriptionConfig.lossless.takes _ _ hctx)
    · exact gives_single hn (by simp) (PluginConfig.lossless.takes _ _ hctx)
    · exact gives_single hn (by simp) (Topics.lossless.takes _ _ hctx)

/-- Every configuration is read back from its text. -/
theorem ofText_render (generatedId : String) (c : Config) :
    ofText generatedId c.toJson.render = .ok c :=
  (lossless generatedId).decode_render (by decide) c

end Config
end CmInventory
