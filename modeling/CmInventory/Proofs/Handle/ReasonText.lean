import CmInventory.Handle.LockReason
import Mathlib.Data.List.TakeWhile

/-!
# Lock reasons and their text

A text tells a number of attempts and a message (`LockReason.Tells`) if it starts with a marker, which consists
of `Attempt #`, decimal digits and ` failed:`, and its digits stand for the number (`LockReason.StandFor`). A
reason is read from what its text tells, and from a text that tells nothing it takes the whole text as its message.

The text of a reason that counts attempts tells them, so such a reason is always read back. The text of a reason
that counts none is its message, which is read back as long as it tells nothing itself
(`LockReason.ofDetails_details_iff`). A marker of no attempts is not written again, so what stands behind it may be
read in its place the next time (`LockReason.reread_iff`).
-/

namespace CmInventory
namespace LockReason

variable {text message : String} {cs digits rest : List Char} {n m : Nat}

/-! ## Markers -/

/-- What stands behind a marker, less one space. -/
def unspaced : List Char → List Char
  | ' ' :: cs => cs
  | cs => cs

theorem unspaced_of_bare (h : ∀ message, cs = ' ' :: message → False) : unspaced cs = cs := by
  unfold unspaced
  split
  · exact absurd rfl (h _)
  · rfl

/-- Some characters are a marker with given digits and what stands behind it. -/
structure Marked (cs digits rest : List Char) : Prop where
  digits_ne_nil : digits ≠ []
  decimal : ∀ c ∈ digits, Text.isDecimalDigit c
  eq_append : cs = markerStart ++ digits ++ markerEnd ++ rest

/-- Whether a text starts with a marker, whatever its digits stand for. -/
def StartsWithMarker (text : String) : Prop :=
  ∃ digits rest, Marked text.toList digits rest

theorem after?_eq_some_iff {start : List Char} : after? start cs = some rest ↔ cs = start ++ rest := by
  induction start generalizing cs with
  | nil => simp [after?]
  | cons a start ih =>
      cases cs with
      | nil => simp [after?]
      | cons c cs =>
          rw [after?]
          by_cases h : a = c
          · simp [h, ih]
          · simp [h, Ne.symm h]

/-- The digits of a marker end where its end starts. -/
theorem takeWhile_digits (h : ∀ c ∈ digits, Text.isDecimalDigit c) (rest : List Char) :
    (digits ++ (markerEnd ++ rest)).takeWhile Text.isDecimalDigit = digits ∧
      (digits ++ (markerEnd ++ rest)).dropWhile Text.isDecimalDigit = markerEnd ++ rest := by
  have hspace : Text.isDecimalDigit ' ' = false := by decide
  have hend : markerEnd ++ rest = ' ' :: ("failed:".toList ++ rest) := rfl
  constructor
  · rw [List.takeWhile_append_of_pos h, hend, List.takeWhile_cons, hspace]
    simp
  · rw [List.dropWhile_append_of_pos h, hend, List.dropWhile_cons, hspace]
    simp

theorem marker?_eq (cs : List Char) :
    marker? cs = (after? markerStart cs).bind fun cs =>
      (after? markerEnd (cs.dropWhile Text.isDecimalDigit)).bind fun rest =>
        if (cs.takeWhile Text.isDecimalDigit).isEmpty then none
        else some (cs.takeWhile Text.isDecimalDigit, unspaced rest) := by
  refine congrArg (Option.bind _) (funext fun cs₁ => congrArg (Option.bind _) (funext fun rest => ?_))
  refine if_congr Iff.rfl rfl ?_
  split
  · rfl
  · rename_i hbare
    rw [unspaced_of_bare hbare]

/-- A marker is found exactly where there is one. -/
theorem marker?_eq_some_iff {message : List Char} :
    marker? cs = some (digits, message) ↔ ∃ rest, Marked cs digits rest ∧ message = unspaced rest := by
  rw [marker?_eq]
  constructor
  · intro h
    rcases Option.bind_eq_some_iff.1 h with ⟨cs₁, hstart, h⟩
    rcases Option.bind_eq_some_iff.1 h with ⟨rest, hend, h⟩
    rw [after?_eq_some_iff] at hstart hend
    split at h
    · cases h
    rename_i hsome
    cases h
    refine ⟨rest, ⟨by simpa using hsome, fun c hc => List.mem_takeWhile_imp hc, ?_⟩, rfl⟩
    calc
      cs = markerStart ++ (cs₁.takeWhile Text.isDecimalDigit ++ cs₁.dropWhile Text.isDecimalDigit) := by
        rw [hstart, List.takeWhile_append_dropWhile]
      _ = markerStart ++ cs₁.takeWhile Text.isDecimalDigit ++ markerEnd ++ rest := by
        rw [hend]
        simp
  · rintro ⟨rest, h, rfl⟩
    have hstart : after? markerStart cs = some (digits ++ (markerEnd ++ rest)) :=
      after?_eq_some_iff.2 (by simp [h.eq_append])
    rcases takeWhile_digits h.decimal rest with ⟨htake, hdrop⟩
    have hsome : ¬ digits.isEmpty = true := by simpa using h.digits_ne_nil
    rw [hstart, Option.bind_some, htake, hdrop, after?_eq_some_iff.2 rfl, Option.bind_some, if_neg hsome]

theorem startsWithMarker_iff : StartsWithMarker text ↔ (marker? text.toList).isSome := by
  rw [Option.isSome_iff_exists]
  constructor
  · rintro ⟨digits, rest, h⟩
    exact ⟨_, marker?_eq_some_iff.2 ⟨rest, h, rfl⟩⟩
  · rintro ⟨⟨digits, message⟩, h⟩
    rcases marker?_eq_some_iff.1 h with ⟨rest, hmarked, -⟩
    exact ⟨digits, rest, hmarked⟩

instance (text : String) : Decidable (StartsWithMarker text) :=
  decidable_of_iff _ startsWithMarker_iff.symm

/-! ## Numbers of attempts -/

/-- The number that digits stand for behind a number `n`. All of them are digits of ASCII and the number is not
too large, or some of them that are at the front are digits of ASCII and make it too large. -/
inductive StandFor (n : Nat) (digits : List Char) (m : Nat) : Prop
  | exactly (hdigits : ∀ c ∈ digits, c.isDigit) (hvalue : Nat.ofDigitChars 10 digits n = m)
      (hsize : m < UInt32.size)
  | tooLarge (front back : List Char) (hfront : digits = front ++ back) (hdigits : ∀ c ∈ front, c.isDigit)
      (hsize : UInt32.size ≤ Nat.ofDigitChars 10 front n) (hvalue : m = UInt32.size - 1)

theorem le_ofDigitChars (digits : List Char) (n : Nat) : n ≤ Nat.ofDigitChars 10 digits n := by
  induction digits generalizing n with
  | nil => simp
  | cons c rest ih =>
      rw [Nat.ofDigitChars_cons]
      exact Nat.le_trans (by omega) (ih _)

theorem StandFor.lt (h : StandFor n digits m) : m < UInt32.size := by
  cases h with
  | exactly _ _ hsize => exact hsize
  | tooLarge _ _ _ _ _ hvalue => rw [hvalue]; decide

theorem standFor_nil (hn : n < UInt32.size) : StandFor n [] m ↔ n = m := by
  constructor
  · intro h
    cases h with
    | exactly _ hvalue _ => exact hvalue
    | tooLarge front back hfront _ hsize _ =>
        obtain ⟨rfl, -⟩ := List.append_eq_nil_iff.1 hfront.symm
        exact absurd hsize (Nat.not_le.2 hn)
  · rintro rfl
    exact .exactly (by simp) rfl hn

/-- The first digit is read on top of what stands before it. What stands behind a number that is too large
does not count. -/
theorem standFor_cons {c : Char} (hn : n < UInt32.size) :
    StandFor n (c :: digits) m ↔ c.isDigit = true ∧
      if 10 * n + (c.toNat - 48) < UInt32.size then StandFor (10 * n + (c.toNat - 48)) digits m
      else m = UInt32.size - 1 := by
  constructor
  · intro h
    cases h with
    | exactly hdigits hvalue hsize =>
        rw [Nat.ofDigitChars_cons] at hvalue
        -- Reading on makes a number only larger, so it was not too large before.
        have hlt : 10 * n + (c.toNat - 48) < UInt32.size :=
          Nat.lt_of_le_of_lt (le_ofDigitChars digits _) (hvalue ▸ hsize)
        rw [List.forall_mem_cons] at hdigits
        exact ⟨hdigits.1, (if_pos hlt).symm ▸ .exactly hdigits.2 hvalue hsize⟩
    | tooLarge front back hfront hdigits hsize hvalue =>
        -- The digits that make it too large are not none, as `n` itself is not.
        cases front with
        | nil => exact absurd hsize (Nat.not_le.2 hn)
        | cons d front =>
            rw [List.cons_append, List.cons.injEq] at hfront
            obtain ⟨rfl, hback⟩ := hfront
            rw [List.forall_mem_cons] at hdigits
            rw [Nat.ofDigitChars_cons] at hsize
            refine ⟨hdigits.1, ?_⟩
            split
            · exact .tooLarge front back hback hdigits.2 hsize hvalue
            · exact hvalue
  · rintro ⟨hdigit, h⟩
    split at h
    · cases h with
      | exactly hdigits hvalue hsize =>
          exact .exactly (List.forall_mem_cons.2 ⟨hdigit, hdigits⟩) (Nat.ofDigitChars_cons.trans hvalue) hsize
      | tooLarge front back hfront hdigits hsize hvalue =>
          refine .tooLarge (c :: front) back (by rw [hfront, List.cons_append])
            (List.forall_mem_cons.2 ⟨hdigit, hdigits⟩) ?_ hvalue
          rwa [Nat.ofDigitChars_cons]
    · rename_i hlarge
      refine .tooLarge [c] digits rfl (by simpa using hdigit) ?_ h
      rw [Nat.ofDigitChars_cons, Nat.ofDigitChars_nil]
      exact Nat.not_lt.1 hlarge

theorem attempts?_eq_some_iff (hn : n < UInt32.size) : attempts? n digits = some m ↔ StandFor n digits m := by
  induction digits generalizing n with
  | nil => rw [attempts?, standFor_nil hn, Option.some_inj]
  | cons c rest ih =>
      rw [attempts?, standFor_cons hn]
      by_cases hdigit : c.isDigit = true
      · by_cases hsize : 10 * n + (c.toNat - 48) < UInt32.size
        · simp [hdigit, hsize, ih hsize]
        · simp [hdigit, hsize, eq_comm]
      · simp [hdigit]

theorem standFor_toDigits (hn : n < UInt32.size) : StandFor 0 (Nat.toDigits 10 n) n :=
  .exactly (fun _ hc => Nat.isDigit_of_mem_toDigits (by decide) (by decide) hc) Nat.ofDigitChars_ten_toDigits hn

/-! ## What a text tells -/

/-- A text tells a number of attempts and a message. -/
def Tells (text : String) (n : Nat) (message : String) : Prop :=
  ∃ digits rest, Marked text.toList digits rest ∧ StandFor 0 digits n ∧ message = String.ofList (unspaced rest)

theorem Tells.startsWithMarker (h : Tells text n message) : StartsWithMarker text := by
  rcases h with ⟨digits, rest, hmarked, -⟩
  exact ⟨digits, rest, hmarked⟩

/-- The message is only a part of the text. -/
theorem Tells.ne (h : Tells text n message) : message ≠ text := by
  rcases h with ⟨digits, rest, hmarked, -, rfl⟩
  intro heq
  have hle : (unspaced rest).length ≤ rest.length := by
    unfold unspaced
    split <;> simp
  -- What is left out is longer than the start of a marker.
  have hlength := congrArg List.length hmarked.eq_append
  rw [← heq, String.toList_ofList] at hlength
  simp only [List.length_append] at hlength
  have hstart : markerStart.length = 9 := rfl
  omega

/-- A reason is read from what its text tells. -/
theorem ofDetails_of_tells (h : Tells text n message) (category : LockCategory) :
    ofDetails category text = ⟨category, UInt32.ofNat n, message⟩ := by
  rcases h with ⟨digits, rest, hmarked, hvalue, rfl⟩
  have hmarker := marker?_eq_some_iff.2 ⟨rest, hmarked, rfl⟩
  have hcount := (attempts?_eq_some_iff (by decide)).2 hvalue
  rw [ofDetails, hmarker]
  simp [hcount]

/-- A text that tells nothing is the message as a whole. -/
theorem ofDetails_of_not_tells (h : ∀ n message, ¬ Tells text n message) (category : LockCategory) :
    ofDetails category text = ⟨category, 0, text⟩ := by
  rw [ofDetails]
  cases hmarker : marker? text.toList with
  | none => rfl
  | some found =>
      rcases found with ⟨digits, message⟩
      cases hcount : attempts? 0 digits with
      | none => simp [hcount]
      | some n =>
          rcases marker?_eq_some_iff.1 hmarker with ⟨rest, hmarked, -⟩
          exact absurd ⟨digits, rest, hmarked, (attempts?_eq_some_iff (by decide)).1 hcount, rfl⟩ (h n _)

/-- The text of a reason that counts attempts tells them. -/
theorem tells_details {r : LockReason} (h : r.attempt ≠ 0) : Tells r.details r.attempt.toNat r.message := by
  refine ⟨Nat.toDigits 10 r.attempt.toNat, ' ' :: r.message.toList, ⟨Nat.toDigits_ne_nil, ?_, ?_⟩,
    standFor_toDigits r.attempt.toNat_lt, ?_⟩
  · intro c hc
    exact Text.isDecimalDigit_of_isDigit (Nat.isDigit_of_mem_toDigits (by decide) (by decide) hc)
  · rw [details, if_neg h, String.toList_ofList]
  · rw [unspaced, String.ofList_toList]

theorem details_of_attempt_eq_zero {r : LockReason} (h : r.attempt = 0) : r.details = r.message :=
  if_pos h

/-! ## Reading back -/

/-- A reason is read back from its text exactly if it counts attempts or its message tells nothing. -/
theorem ofDetails_details_iff (r : LockReason) :
    ofDetails r.category r.details = r ↔ r.attempt ≠ 0 ∨ ∀ n message, ¬ Tells r.message n message := by
  by_cases hzero : r.attempt = 0
  · rw [details_of_attempt_eq_zero hzero, or_iff_right (not_not_intro hzero)]
    constructor
    · intro hread n message htells
      -- Only a part of the message would be read back.
      rw [ofDetails_of_tells htells] at hread
      exact htells.ne (congrArg LockReason.message hread)
    · intro hnot
      rw [ofDetails_of_not_tells hnot, ← hzero]
  · refine iff_of_true ?_ (Or.inl hzero)
    rw [ofDetails_of_tells (tells_details hzero), UInt32.ofNat_toNat]

/-- Every reason that counts attempts is read back from its text, whatever its message is, and so is every reason
that counts none and whose message does not start with a marker. -/
theorem read_back_from_details (r : LockReason) (h : r.attempt ≠ 0 ∨ ¬ StartsWithMarker r.message) :
    ofDetails r.category r.details = r := by
  refine (ofDetails_details_iff r).2 (h.imp_right fun hnot n message htells => ?_)
  exact hnot htells.startsWithMarker

/-- A message that looks like a marker behind the greatest number of attempts, and one that looks like a marker
but for its digits where no attempts are counted. -/
theorem read_back_from_details_lookalikes :
    let counted : LockReason := ⟨.moduleSyncFailed, 4294967295, " Attempt #0 failed:\n"⟩
    let uncounted : LockReason := ⟨.misbehaving, 0, "Attempt # failed: x"⟩
    counted.attempt ≠ 0 ∧ ofDetails counted.category counted.details = counted ∧
      ¬ StartsWithMarker uncounted.message ∧ ofDetails uncounted.category uncounted.details = uncounted := by
  have hattempt : (4294967295 : UInt32) ≠ 0 := by decide
  have hmessage : ¬ StartsWithMarker "Attempt # failed: x" := by decide
  exact ⟨hattempt, read_back_from_details _ (Or.inl hattempt), hmessage,
    read_back_from_details _ (Or.inr hmessage)⟩

theorem category_ofDetails (category : LockCategory) (text : String) :
    (ofDetails category text).category = category := by
  by_cases h : ∀ n message, ¬ Tells text n message
  · rw [ofDetails_of_not_tells h]
  · simp only [not_forall, not_not] at h
    rcases h with ⟨n, message, h⟩
    rw [ofDetails_of_tells h]

/-- Text that is read, written and read again gives the same reason, unless it tells no attempts and a message
that tells some itself. -/
theorem reread_iff (category : LockCategory) (text : String) :
    ofDetails category (ofDetails category text).details = ofDetails category text ↔
      ∀ message, Tells text 0 message → ∀ n rest, ¬ Tells message n rest := by
  have hread := ofDetails_details_iff (ofDetails category text)
  rw [category_ofDetails] at hread
  rw [hread]
  by_cases hnot : ∀ n message, ¬ Tells text n message
  · rw [ofDetails_of_not_tells hnot]
    exact iff_of_true (Or.inr hnot) fun message h => absurd h (hnot 0 message)
  · simp only [not_forall, not_not] at hnot
    rcases hnot with ⟨n, message, htells⟩
    rw [ofDetails_of_tells htells]
    constructor
    · intro hor message' hzero
      -- A text tells only one number and one message.
      have hsame := (ofDetails_of_tells htells category).symm.trans (ofDetails_of_tells hzero category)
      rw [LockReason.mk.injEq] at hsame
      exact hsame.2.2 ▸ hor.resolve_left (not_not_intro hsame.2.1)
    · intro h
      by_cases hn : n = 0
      · exact Or.inr (h message (hn ▸ htells))
      · refine Or.inl fun hzero => hn ?_
        rcases htells with ⟨_, _, _, hvalue, _⟩
        have := congrArg UInt32.toNat hzero
        rwa [UInt32.toNat_ofNat_of_lt' hvalue.lt] at this

/-- A marker of no attempts in front of another marker is lost, and the second one is read in its place. -/
theorem reread_other_of_markers :
    let text := "Attempt #0 failed: Attempt #5 failed: x"
    let read := ofDetails .moduleSyncFailed text
    read = ⟨.moduleSyncFailed, 0, "Attempt #5 failed: x"⟩ ∧
      ofDetails .moduleSyncFailed read.details = ⟨.moduleSyncFailed, 5, "x"⟩ ∧
      ¬ ∀ message, Tells text 0 message → ∀ n rest, ¬ Tells message n rest := by
  refine ⟨by decide, by decide, fun h => ?_⟩
  have hsame := (reread_iff .moduleSyncFailed _).2 h
  exact absurd hsame (by decide)

end LockReason
end CmInventory
