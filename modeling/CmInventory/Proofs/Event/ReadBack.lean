import CmInventory.Event.Basic
import CmInventory.Proofs.Registration.ReadBack

/-!
# Events are read back

An event id is read back from its groups of digits. An event is written as an object of its kind and its content;
the kind stands first, so that the content is not set aside when it is read.
-/

namespace CmInventory

open Json (Lossless)
open Json.Fields (gives_ifAny gives_map gives_seq gives_single)
open Json.Value (memberIfAny)

/-! ## Event ids -/

namespace EventId

theorem digit?_digitChar : ∀ d, digit? (digitChar d) = some d := by decide

/-- None of the marks in front of an id starts with a digit. -/
theorem digitChar_ne : ∀ d, digitChar d ≠ '\x7b' ∧ digitChar d ≠ 'u' ∧ digitChar d ≠ 'U' := by decide

theorem take?_digits (ds : List (Fin 16)) (rest : List Char) :
    take? ds.length (ds.map digitChar ++ rest) = some (ds, rest) := by
  induction ds with
  | nil => rfl
  | cons d ds ih => simp [take?, digit?_digitChar, ih]

theorem groups?_grouped (sizes : List Nat) (ds : List (Fin 16)) (h : ds.length = sizes.foldr (· + ·) 0) :
    groups? sizes (grouped sizes ds) = some (ds, []) := by
  induction sizes generalizing ds with
  | nil =>
      obtain rfl := List.length_eq_zero_iff.1 h
      rfl
  | cons size sizes ih =>
      -- Behind the last group there is no hyphen, so it is a case of its own.
      cases sizes with
      | nil =>
          have hlen : ds.length = size := by simpa using h
          have htake := take?_digits ds []
          rwa [List.append_nil, hlen] at htake
      | cons next sizes =>
          rw [List.foldr_cons] at h
          have hlen : (ds.take size).length = size := by
            rw [List.length_take]
            omega
          have hrest : (ds.drop size).length = (next :: sizes).foldr (· + ·) 0 := by
            rw [List.length_drop]
            omega
          have htake := take?_digits (ds.take size) ('-' :: grouped (next :: sizes) (ds.drop size))
          rw [hlen] at htake
          simp only [grouped, groups?, htake, Option.bind_eq_bind, Option.bind_some, ih _ hrest]
          simp

theorem length_grouped (sizes : List Nat) (ds : List (Fin 16)) :
    (grouped sizes ds).length = ds.length + (sizes.length - 1) := by
  induction sizes generalizing ds with
  | nil => simp [grouped]
  | cons size sizes ih =>
      cases sizes with
      | nil => simp [grouped]
      | cons next sizes =>
          simp only [grouped, List.length_append, List.length_map, List.length_cons, ih, List.length_take,
            List.length_drop]
          omega

theorem ofText?_render (id : EventId) : ofText? id.render = some id := by
  have hlength : (grouped groupSizes id.digits).length = 36 := by
    rw [length_grouped, id.length_digits]
    rfl
  have hread : finish [] (groups? groupSizes (grouped groupSizes id.digits)) = some id := by
    rw [groups?_grouped groupSizes id.digits id.length_digits]
    simp [finish, id.length_digits]
  -- The text starts with a digit, and so with no brace and no mark.
  obtain ⟨d, more, hstart⟩ : ∃ d more, grouped groupSizes id.digits = digitChar d :: more := by
    rcases hds : id.digits with _ | ⟨d, ds⟩
    · have hlen := id.length_digits
      rw [hds] at hlen
      cases hlen
    · exact ⟨d, _, rfl⟩
  rcases digitChar_ne d with ⟨hbrace, hlower, hupper⟩
  rw [ofText?, render, String.toList_ofList]
  rw [hstart] at hlength hread ⊢
  have hmarks : ["urn:uuid:".toList, "URN:UUID:".toList].contains ((digitChar d :: more).take 9) = false := by
    simp [hlower, hupper]
  split
  · rename_i rest heq
    exact absurd (List.cons.inj heq).1 hbrace
  · rw [if_neg (by omega), hmarks, if_neg Bool.false_ne_true]
    exact hread

theorem lossless : Lossless EventId.toJson EventId.decoder 0 :=
  Lossless.parsedText ofText?_render

end EventId

/-! ## Statuses under subscriptions -/

theorem DeviceVerdict.lossless : Lossless DeviceVerdict.toJson DeviceVerdict.decoder 0 :=
  Lossless.enumeration DeviceVerdict.ofName?_name

theorem Outcome.lossless : Lossless Outcome.toJson Outcome.decoder 0 :=
  Lossless.enumeration Outcome.ofName?_name

theorem DeviceStatus.lossless : Lossless DeviceStatus.toJson DeviceStatus.decoder 1 := by
  refine Lossless.record (fun s => ?_) (fun s => ?_) fun s ctx hn hctx => ?_
  · cases s.details <;>
      simp [memberIfAny, Json.Value.AllExactMembers, HandleId.lossless.exact, DeviceVerdict.lossless.exact,
        Lossless.text.exact]
  · cases s.details <;> simp [memberIfAny]
  · refine gives_seq (gives_seq (gives_map DeviceStatus.mk ?_) ?_) ?_
    · exact gives_single hn (by simp) (HandleId.lossless.takes _ _ (Nat.zero_le _))
    · exact gives_single hn (by simp) (DeviceVerdict.lossless.takes _ _ (Nat.zero_le _))
    · refine gives_ifAny Lossless.text (fun _ => Json.Value.noConfusion) (Nat.zero_le _) hn ?_ ?_
      · intro details h
        simp [h, memberIfAny]
      · intro h
        simp [h, memberIfAny]

theorem PluginAnswer.lossless : Lossless PluginAnswer.toJson PluginAnswer.decoder 3 := by
  have hstatuses := DeviceStatus.lossless.list
  refine Lossless.record (fun a => ?_) (fun _ => by simp) fun a ctx hn hctx => ?_
  · exact ⟨Lossless.text.exact _, Lossless.text.exact _, Lossless.text.exact _, Lossless.text.exact _,
      hstatuses.exact _, trivial⟩
  · refine gives_seq (gives_seq (gives_seq (gives_seq (gives_map PluginAnswer.mk ?_) ?_) ?_) ?_) ?_
    · exact gives_single hn (by simp) (Lossless.text.takes _ _ (Nat.zero_le _))
    · exact gives_single hn (by simp) (Lossless.text.takes _ _ (Nat.zero_le _))
    · exact gives_single hn (by simp) (Lossless.text.takes _ _ (Nat.zero_le _))
    · exact gives_single hn (by simp) (Lossless.text.takes _ _ (Nat.zero_le _))
    · exact gives_single hn (by simp) (hstatuses.takes _ _ hctx)

theorem OutcomeReport.lossless : Lossless OutcomeReport.toJson OutcomeReport.decoder 3 := by
  have hstatuses := DeviceStatus.lossless.list
  refine Lossless.record (fun r => ?_) (fun _ => by simp) fun r ctx hn hctx => ?_
  · exact ⟨Lossless.text.exact _, Lossless.text.exact _, Lossless.text.exact _, Outcome.lossless.exact _,
      hstatuses.exact _, trivial⟩
  · refine gives_seq (gives_seq (gives_seq (gives_seq (gives_map OutcomeReport.mk ?_) ?_) ?_) ?_) ?_
    · exact gives_single hn (by simp) (Lossless.text.takes _ _ (Nat.zero_le _))
    · exact gives_single hn (by simp) (Lossless.text.takes _ _ (Nat.zero_le _))
    · exact gives_single hn (by simp) (Lossless.text.takes _ _ (Nat.zero_le _))
    · exact gives_single hn (by simp) (Outcome.lossless.takes _ _ (Nat.zero_le _))
    · exact gives_single hn (by simp) (hstatuses.takes _ _ hctx)

/-! ## Events -/

namespace LifecycleEvent

theorem state_lossless : Lossless stateToJson (Json.Decoder.nullable Lifecycle.decoder) 0 :=
  Lifecycle.lossless.nullable (fun _ => Json.Value.noConfusion) rfl fun _ => rfl

theorem lossless : Lossless LifecycleEvent.toJson LifecycleEvent.decoder 1 := by
  refine Lossless.record (fun e => ?_) (fun _ => by simp) fun e ctx hn hctx => ?_
  · exact ⟨EventId.lossless.exact _, HandleId.lossless.exact _, state_lossless.exact _,
      Lifecycle.lossless.exact _, Instant.lossless.exact _, trivial⟩
  · refine gives_seq (gives_seq (gives_seq (gives_seq (gives_map LifecycleEvent.mk ?_) ?_) ?_) ?_) ?_
    · exact gives_single hn (by simp) (EventId.lossless.takes _ _ (Nat.zero_le _))
    · exact gives_single hn (by simp) (HandleId.lossless.takes _ _ (Nat.zero_le _))
    · exact gives_single hn (by simp) (state_lossless.takes _ _ (Nat.zero_le _))
    · exact gives_single hn (by simp) (Lifecycle.lossless.takes _ _ (Nat.zero_le _))
    · exact gives_single hn (by simp) (Instant.lossless.takes _ _ (Nat.zero_le _))

end LifecycleEvent

namespace Event

theorem kind_lossless : Lossless (fun k => .text (Kind.name k)) kindDecoder 0 :=
  Lossless.enumeration Kind.ofName?_name

theorem content_exact (e : Event) : e.content.HasExactNumbers := by
  cases e with
  | lifecycle e => exact LifecycleEvent.lossless.exact e
  | outcome r => exact OutcomeReport.lossless.exact r

theorem contentDecoder_content (e : Event) (ctx : Json.Context) (h : 3 ≤ ctx.nesting) :
    contentDecoder e.kind ctx e.content.tree = .ok e := by
  cases e with
  | lifecycle e => simp [contentDecoder, kind, content, Json.Decoder.map, Except.map,
      LifecycleEvent.lossless.takes e ctx (by omega)]
  | outcome r => simp [contentDecoder, kind, content, Json.Decoder.map, Except.map,
      OutcomeReport.lossless.takes r ctx h]

theorem lossless : Lossless Event.toJson Event.decoder 4 where
  exact := fun e => by
    rw [toJson, Json.Value.HasExactNumbers]
    exact ⟨kind_lossless.exact _, content_exact e, trivial⟩
  takes := fun e ctx hctx => by
    have hin : 3 ≤ ctx.nesting - 1 := by omega
    -- The rule for records does not apply: what the second member is read as depends on the first.
    have hfault : Json.Decoder.memberFault ["type", "event"] [] 0 true
        (Json.Value.memberTrees [("type", .text e.kind.name), ("event", e.content)]) = none :=
      Json.Decoder.memberFault_memberTrees _ (by simp) [] (by simp) 0
    have hkind := kind_lossless.takes e.kind { ctx with nesting := ctx.nesting - 1 } (Nat.zero_le _)
    have hcontent := contentDecoder_content e { ctx with nesting := ctx.nesting - 1 } hin
    simp only [toJson, Json.Value.tree, decoder, Lossless.enter_succ ctx (by omega), bind, Except.bind, hfault]
    simp only [Json.Value.memberTrees, findMember?]
    simp [hkind, hcontent]

end Event

/-! ## All of them -/

/-- Whatever is stored, requested, answered or announced is read back from the text that is written for it. -/
theorem written_values_read_back :
    (∀ h : Handle, Json.decode Handle.decoder h.toJson.render = .ok h) ∧
    (∀ s : HandleStatus, Json.decode HandleStatus.decoder s.toJson.render = .ok s) ∧
    (∀ r : LockReason, Json.decode LockReason.decoder r.toJson.render = .ok r) ∧
    (∀ r : Registration, Json.decode Registration.decoder r.toJson.render = .ok r) ∧
    (∀ r : RequestedHandle, Json.decode RequestedHandle.decoder r.toJson.render = .ok r) ∧
    (∀ r : RegistrationResponse, Json.decode RegistrationResponse.decoder r.toJson.render = .ok r) ∧
    (∀ r : HandleResponse, Json.decode HandleResponse.decoder r.toJson.render = .ok r) ∧
    (∀ a : PluginAnswer, Json.decode PluginAnswer.decoder a.toJson.render = .ok a) ∧
    (∀ r : OutcomeReport, Json.decode OutcomeReport.decoder r.toJson.render = .ok r) ∧
    (∀ e : LifecycleEvent, Json.decode LifecycleEvent.decoder e.toJson.render = .ok e) ∧
    (∀ e : Event, Json.decode Event.decoder e.toJson.render = .ok e) :=
  ⟨Handle.lossless.decode_render (by decide), HandleStatus.lossless.decode_render (by decide),
    LockReason.lossless.decode_render (by decide), Registration.lossless.decode_render (by decide),
    RequestedHandle.lossless.decode_render (by decide), RegistrationResponse.lossless.decode_render (by decide),
    HandleResponse.lossless.decode_render (by decide), PluginAnswer.lossless.decode_render (by decide),
    OutcomeReport.lossless.decode_render (by decide), LifecycleEvent.lossless.decode_render (by decide),
    Event.lossless.decode_render (by decide)⟩

end CmInventory
