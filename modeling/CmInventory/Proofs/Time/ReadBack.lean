import CmInventory.Proofs.Json.ReadBack
import CmInventory.Time.Notation

/-!
# Instants are read back from their text

The text of an instant stands for that instant and no other (`Instant.ofText?_render`), over the whole
range of years and with a second numbered 60.
-/

namespace CmInventory
namespace Instant

open Json.Numeral (EndsDigits)

/-! ## Numbers of a fixed width -/

theorem endsDigits_cons {c : Char} (h : c.isDigit = false) (rest : List Char) :
    EndsDigits (c :: rest) := by
  intro d after heq
  rcases List.cons.inj heq with ⟨rfl, -⟩
  exact h

theorem number?_append {cs rest : List Char} (width : Nat) (hd : ∀ c ∈ cs, c.isDigit)
    (hne : cs ≠ []) (hw : cs.length ≤ width) (hr : EndsDigits rest) :
    number? width (cs ++ rest) = some (Nat.ofDigitChars 10 cs 0, rest) := by
  have htake : ((cs ++ rest).take width).takeWhile Char.isDigit = cs := by
    rw [List.take_append, List.take_of_length_le hw, List.takeWhile_append_of_pos hd]
    have hrest : (rest.take (width - cs.length)).takeWhile Char.isDigit = [] := by
      cases rest with
      | nil => simp
      | cons c after =>
          cases width - cs.length with
          | zero => simp
          | succ n => simp [hr c after rfl]
    rw [hrest, List.append_nil]
  simp [number?, htake, hne, Nat.ofDigitChars_eq_foldl]

theorem isDigit_of_mem_padded (width n : Nat) : ∀ c ∈ padded width n, c.isDigit := by
  intro c hc
  rcases List.mem_append.1 hc with hc | hc
  · rw [List.eq_of_mem_replicate hc]
    decide
  · exact Nat.isDigit_of_mem_toDigits (by decide) (by decide) hc

theorem padded_ne_nil (width n : Nat) : padded width n ≠ [] := by
  simp [padded]

theorem length_padded {width n : Nat} (hw : 0 < width) (h : n < Nat.pow 10 width) :
    (padded width n).length = width := by
  have hlen : (Nat.toDigits 10 n).length ≤ width :=
    (Nat.length_toDigits_le_iff (by decide) hw).2 h
  simp only [padded, List.length_append, List.length_replicate]
  omega

theorem ofDigitChars_padded (width n : Nat) : Nat.ofDigitChars 10 (padded width n) 0 = n := by
  simp [padded, Nat.ofDigitChars_append]

theorem number?_padded {width n : Nat} (hw : 0 < width) (h : n < Nat.pow 10 width)
    {rest : List Char} (hr : EndsDigits rest) :
    number? width (padded width n ++ rest) = some (n, rest) := by
  have hlen := length_padded hw h
  rw [number?_append _ (isDigit_of_mem_padded _ _) (padded_ne_nil width n) (by omega) hr,
    ofDigitChars_padded]

theorem isSpace_of_isDigit {c : Char} (h : c.isDigit) : Text.isSpace c = false := by
  simp only [Char.isDigit, ge_iff_le, Bool.and_eq_true, decide_eq_true_eq] at h
  have h₁ : 48 ≤ c.toNat := h.1
  have h₂ : c.toNat ≤ 57 := h.2
  simp [Text.isSpace]
  omega

theorem trimStart_cons {c : Char} (h : Text.isSpace c = false) (cs : List Char) :
    Text.trimStart (c :: cs) = c :: cs := by
  simp [Text.trimStart, h]

theorem trimStart_padded (width n : Nat) (rest : List Char) :
    Text.trimStart (padded width n ++ rest) = padded width n ++ rest := by
  cases hp : padded width n with
  | nil => exact absurd hp (padded_ne_nil width n)
  | cons c cs =>
      have hc : c.isDigit := isDigit_of_mem_padded width n c (by simp [hp])
      exact trimStart_cons (isSpace_of_isDigit hc) _

theorem field?_padded {width n : Nat} (hw : 0 < width) (h : n < Nat.pow 10 width)
    {rest : List Char} (hr : EndsDigits rest) :
    field? width (padded width n ++ rest) = some (n, rest) := by
  rw [field?, trimStart_padded, number?_padded hw h hr]

/-! ## The parts of an instant -/

theorem mark?_self (mark : Char) (h : Text.isSpace mark = false) (rest : List Char) :
    mark? mark (mark :: rest) = some rest := by
  rw [mark?, trimStart_cons h]
  simp

theorem year?_yearChars (year : Int) {rest : List Char} (hr : EndsDigits rest) :
    year? (yearChars year ++ rest) = some (year, rest) := by
  -- With a sign in front a year may have any number of digits.
  have hsigned : number? (padded 4 year.natAbs ++ rest).length (padded 4 year.natAbs ++ rest) =
      some (year.natAbs, rest) := by
    have hlen : (padded 4 year.natAbs).length ≤ (padded 4 year.natAbs ++ rest).length := by simp
    rw [number?_append _ (isDigit_of_mem_padded _ _) (padded_ne_nil _ _) hlen hr, ofDigitChars_padded]
  unfold yearChars
  split
  case isTrue h =>
    have hyear : year.toNat < Nat.pow 10 4 := by
      have : Nat.pow 10 4 = 10000 := rfl
      omega
    have hread := number?_padded (by decide) hyear hr
    cases hp : padded 4 year.toNat with
    | nil => exact absurd hp (padded_ne_nil _ _)
    | cons c cs =>
        have hc : c.isDigit := isDigit_of_mem_padded 4 year.toNat c (by simp [hp])
        have h₁ : c ≠ '-' := by rintro rfl; exact absurd hc (by decide)
        have h₂ : c ≠ '+' := by rintro rfl; exact absurd hc (by decide)
        rw [hp] at hread
        rw [year?, List.cons_append, trimStart_cons (isSpace_of_isDigit hc)]
        rw [List.cons_append] at hread
        simp [h₁, h₂, hread]
        omega
  case isFalse h =>
    split
    case isTrue hneg =>
      rw [year?, List.cons_append, trimStart_cons (by decide)]
      simp only [hsigned, Option.map_some, Option.some.injEq, Prod.mk.injEq, and_true]
      omega
    case isFalse hpos =>
      rw [year?, List.cons_append, trimStart_cons (by decide)]
      simp only [hsigned, Option.map_some, Option.some.injEq, Prod.mk.injEq, and_true]
      omega

theorem fraction?_digits {width n : Nat} (hw : 0 < width ∧ width ≤ 9) (h : n < Nat.pow 10 width)
    (rest : List Char) :
    fraction? ('.' :: padded width n ++ 'Z' :: rest) =
      some (n * Nat.pow 10 (9 - width), 'Z' :: rest) := by
  have hend : EndsDigits ('Z' :: rest) := endsDigits_cons (by decide) rest
  have hlen := length_padded hw.1 h
  have hread := number?_append 9 (isDigit_of_mem_padded width n) (padded_ne_nil width n)
    (by omega) hend
  rw [ofDigitChars_padded] at hread
  have hz : ('Z' : Char).isDigit = false := by decide
  simp [fraction?, hread, hlen, hz]

theorem fraction?_fractionChars {n : Nat} (h : n < 1000000000) (rest : List Char) :
    fraction? (fractionChars n ++ 'Z' :: rest) = some (n, 'Z' :: rest) := by
  unfold fractionChars
  split
  case isTrue hzero => simp [fraction?, hzero]
  split
  case isTrue hmilli =>
    have hn : n / 1000000 < Nat.pow 10 3 := by
      have : Nat.pow 10 3 = 1000 := rfl
      omega
    rw [fraction?_digits (by decide) hn]
    have : Nat.pow 10 (9 - 3) = 1000000 := rfl
    simp only [this, Option.some.injEq, Prod.mk.injEq, and_true]
    omega
  split
  case isTrue hmicro =>
    have hn : n / 1000 < Nat.pow 10 6 := by
      have : Nat.pow 10 6 = 1000000 := rfl
      omega
    rw [fraction?_digits (by decide) hn]
    have : Nat.pow 10 (9 - 6) = 1000 := rfl
    simp only [this, Option.some.injEq, Prod.mk.injEq, and_true]
    omega
  case isFalse =>
    have hn : n < Nat.pow 10 9 := h
    rw [fraction?_digits (by decide) hn]
    simp

/-! ## Whole instants -/

theorem addMinutes?_zero (t : Instant) : t.addMinutes? 0 = some t := by
  simp [addMinutes?]

theorem daysInMonth_le (year : Int) (month : Nat) : Calendar.daysInMonth year month ≤ 31 := by
  unfold Calendar.daysInMonth
  split
  · split <;> omega
  · split <;> omega

/-- An instant is read back from its text. -/
theorem ofText?_render (t : Instant) : ofText? t.render = some t := by
  have htwo : ∀ {n : Nat} {rest : List Char}, n < 100 → EndsDigits rest →
      field? 2 (padded 2 n ++ rest) = some (n, rest) := fun h hr => field?_padded (by decide) h hr
  -- Every field is narrow enough for its width, by what an instant carries of its ranges.
  have hmonth : t.month < 100 := by have := t.isMonth; omega
  have hday : t.day < 100 := by
    have := t.isDay
    have := daysInMonth_le t.year t.month
    omega
  rcases t.isTime with ⟨hhour, hminute, hsecond, hnano⟩
  have hfrac := fraction?_fractionChars hnano []
  have hdash : ∀ rest, EndsDigits ('-' :: rest) := endsDigits_cons (by decide)
  have hT : ∀ rest, EndsDigits ('T' :: rest) := endsDigits_cons (by decide)
  have hcolon : ∀ rest, EndsDigits (':' :: rest) := endsDigits_cons (by decide)
  have hafter : EndsDigits (fractionChars t.nanosecond ++ ['Z']) := by
    unfold fractionChars
    split
    · exact endsDigits_cons (by decide) _
    split
    · exact endsDigits_cons (by decide) _
    split
    · exact endsDigits_cons (by decide) _
    · exact endsDigits_cons (by decide) _
  have hsep : ∀ rest, separator? ('T' :: rest) = some rest := fun rest => by simp [separator?]
  rw [ofText?, render, String.toList_ofList, chars]
  -- One step for each part of the text, in the order in which the parts are read.
  refine Option.bind_eq_some_iff.2 ⟨_, year?_yearChars t.year (hdash _), ?_⟩
  refine Option.bind_eq_some_iff.2 ⟨_, mark?_self '-' (by decide) _, ?_⟩
  refine Option.bind_eq_some_iff.2 ⟨_, htwo hmonth (hdash _), ?_⟩
  refine Option.bind_eq_some_iff.2 ⟨_, mark?_self '-' (by decide) _, ?_⟩
  refine Option.bind_eq_some_iff.2 ⟨_, htwo hday (hT _), ?_⟩
  refine Option.bind_eq_some_iff.2 ⟨_, hsep _, ?_⟩
  refine Option.bind_eq_some_iff.2 ⟨_, htwo (by omega) (hcolon _), ?_⟩
  refine Option.bind_eq_some_iff.2 ⟨_, mark?_self ':' (by decide) _, ?_⟩
  refine Option.bind_eq_some_iff.2 ⟨_, htwo (by omega) (hcolon _), ?_⟩
  refine Option.bind_eq_some_iff.2 ⟨_, mark?_self ':' (by decide) _, ?_⟩
  refine Option.bind_eq_some_iff.2 ⟨_, htwo (by omega) hafter, ?_⟩
  refine Option.bind_eq_some_iff.2 ⟨_, hfrac, ?_⟩
  have hzone : offset? (Text.trimStart ['Z']) = some (0, []) := by
    rw [trimStart_cons (by decide)]
    rfl
  refine Option.bind_eq_some_iff.2 ⟨_, hzone, ?_⟩
  exact Option.bind_eq_some_iff.2 ⟨t, ofFields?_self t, addMinutes?_zero t⟩

end Instant
end CmInventory
