import CmInventory.Json.Printer
import CmInventory.Json.Reader

/-!
# Reading what was written

The text of a value is read back as the outline of the value, whatever follows it, as long as that
does not go on with a number at the end of the text (`Reader.value_chars`). It is therefore read as a
whole document (`ofText_render`).

Floating-point numbers are left out: their shortest text is a matter of its own, and no record of the
inventory holds one.
-/

namespace CmInventory
namespace Json

/-! ## Strings -/

namespace Reader

/-- The piece as which a written character is read. -/
def writtenPiece (c : Char) : Piece :=
  if c.toNat < 0x20 ∧ (c = '\x08' ∨ c = '\t' ∨ c = '\n' ∨ c = '\x0c' ∨ c = '\r') then .char c
  else if c.toNat < 0x20 then .unit c.toNat
  else .char c

theorem unit?_hexDigit :
    ∀ n < 32, unit? '0' '0' (hexDigit (n / 16)) (hexDigit (n % 16)) = some n := by
  decide

theorem pieces_plain {c : Char} (hq : c ≠ '"') (hb : c ≠ '\\') (hc : ¬ c.toNat < 0x20)
    (found : List Piece) (rest : List Char) :
    pieces found (c :: rest) = pieces (.char c :: found) rest := by
  rw [pieces.eq_def]
  split
  case h_1 heq => cases heq
  case h_2 heq =>
    cases heq
    exact (hq rfl).elim
  case h_3 heq =>
    cases heq
    exact (hb rfl).elim
  case h_4 _ heq =>
    cases heq
    exact (hb rfl).elim
  case h_5 heq =>
    cases heq
    exact if_neg hc

theorem pieces_escape (c : Char) (found : List Piece) (rest : List Char) :
    pieces found (escape c ++ rest) = pieces (writtenPiece c :: found) rest := by
  by_cases hq : c = '"'
  · subst hq; simp [escape, pieces, writtenPiece, shortEscape?]
  by_cases hb : c = '\\'
  · subst hb; simp [escape, pieces, writtenPiece, shortEscape?]
  by_cases h8 : c = '\x08'
  · subst h8; simp [escape, pieces, writtenPiece, shortEscape?]
  by_cases ht : c = '\t'
  · subst ht; simp [escape, pieces, writtenPiece, shortEscape?]
  by_cases hn : c = '\n'
  · subst hn; simp [escape, pieces, writtenPiece, shortEscape?]
  by_cases hf : c = '\x0c'
  · subst hf; simp [escape, pieces, writtenPiece, shortEscape?]
  by_cases hr : c = '\r'
  · subst hr; simp [escape, pieces, writtenPiece, shortEscape?]
  -- The control characters that have no short escape are written as units.
  by_cases hc : c.toNat < 0x20
  · have hu := unit?_hexDigit c.toNat hc
    simp [escape, pieces, writtenPiece, hu, hc, hq, hb, h8, ht, hn, hf, hr]
  · have he : escape c = [c] := by simp [escape, hc, hq, hb, h8, ht, hn, hf, hr]
    have hp : writtenPiece c = .char c := by simp [writtenPiece, hc]
    rw [he, hp, List.singleton_append, pieces_plain hq hb hc]

theorem pieces_written (cs : List Char) (found : List Piece) (rest : List Char) :
    pieces found (cs.flatMap escape ++ '"' :: rest) =
      some ((cs.map writtenPiece).reverse ++ found, rest) := by
  induction cs generalizing found with
  | nil => simp [pieces]
  | cons c cs ih =>
      rw [List.flatMap_cons, List.append_assoc, pieces_escape, ih]
      simp

theorem assemble_unit {n : Nat} (h : n < 0x20) (rest : List Piece) :
    assemble (.unit n :: rest) = (assemble rest).map (Char.ofNat n :: ·) := by
  have h₁ : isTrailing n = false := by simp [isTrailing]; omega
  have h₂ : isLeading n = false := by simp [isLeading]; omega
  -- Only a leading surrogate looks at the piece after it.
  rcases rest with _ | ⟨_ | _, _⟩ <;> simp [assemble, h₁, h₂]

theorem assemble_writtenPiece (c : Char) (rest : List Piece) :
    assemble (writtenPiece c :: rest) = (assemble rest).map (c :: ·) := by
  unfold writtenPiece
  split
  · rfl
  split
  · rename_i h
    rw [assemble_unit h, Char.ofNat_toNat]
  · rfl

theorem assemble_written (cs : List Char) : assemble (cs.map writtenPiece) = some cs := by
  induction cs with
  | nil => rfl
  | cons c cs ih => rw [List.map_cons, assemble_writtenPiece, ih]; rfl

/-- A written string is read back. -/
theorem string?_written (s : String) (rest : List Char) :
    string? (s.toList.flatMap escape ++ '"' :: rest) = some (some s, rest) := by
  simp [string?, pieces_written, assemble_written, String.ofList_toList]

end Reader

/-! ## Numbers -/

namespace Numeral

/-- A text that does not go on with a digit. -/
def EndsDigits (rest : List Char) : Prop :=
  ∀ c after, rest = c :: after → c.isDigit = false

/-- The digits of characters. -/
def ofChars (cs : List Char) : List Nat :=
  cs.map fun c => c.toNat - 48

theorem digits_append {cs rest : List Char} (hd : ∀ c ∈ cs, c.isDigit) (hr : EndsDigits rest) :
    digits (cs ++ rest) = (ofChars cs, rest) := by
  induction cs with
  | nil =>
      cases rest with
      | nil => rfl
      | cons c after => simp [digits, digit?, hr c after rfl, ofChars]
  | cons c cs ih =>
      have hc : c.isDigit := hd c (by simp)
      have ih := ih fun x hx => hd x (by simp [hx])
      simp [digits, digit?, hc, ih, ofChars]

theorem ofDigits_ofChars (cs : List Char) : ofDigits (ofChars cs) = Nat.ofDigitChars 10 cs 0 := by
  simp [ofDigits, ofChars, Nat.ofDigitChars_eq_foldl, List.foldl_map]

/-- The text of a positive number does not start with a zero. -/
theorem toDigits_head {n : Nat} (h : 0 < n) :
    ∃ c cs, Nat.toDigits 10 n = c :: cs ∧ c ≠ '0' := by
  -- The first digit of a number is the first one of its tenth part.
  induction n using Nat.strongRecOn with
  | ind n ih =>
      by_cases hn : n < 10
      · refine ⟨n.digitChar, [], Nat.toDigits_of_lt_base hn, ?_⟩
        have : ∀ m < 10, 0 < m → m.digitChar ≠ '0' := by decide
        exact this n hn h
      · rcases ih (n / 10) (by omega) (by omega) with ⟨c, cs, hcs, hc⟩
        refine ⟨c, cs ++ [(n % 10).digitChar], ?_, hc⟩
        rw [Nat.toDigits_of_base_le (by decide) (by omega), hcs]
        rfl

theorem whole?_toDigits {rest : List Char} (hr : EndsDigits rest) (n : Nat) :
    whole? (Nat.toDigits 10 n ++ rest) = some (ofChars (Nat.toDigits 10 n), rest) := by
  have hd : ∀ c ∈ Nat.toDigits 10 n, c.isDigit := fun c hc =>
    Nat.isDigit_of_mem_toDigits (by decide) (by decide) hc
  have hread := digits_append hd hr
  by_cases hn : n = 0
  · subst hn
    simp only [Nat.toDigits_zero] at hread ⊢
    rw [whole?, hread]
    rfl
  -- Digits after a zero in front would be refused, so the first digit has to be known.
  · rcases toDigits_head (Nat.pos_of_ne_zero hn) with ⟨c, cs, hcs, hc⟩
    rw [hcs] at hread hd ⊢
    have hdigit : 48 < c.toNat := by
      have h₁ : c.isDigit := hd c (by simp)
      have h₂ : c.toNat ≠ 48 := fun h => hc (by rw [← Char.ofNat_toNat c, h])
      have h₃ : 48 ≤ c.toNat := by
        simp only [Char.isDigit, Bool.and_eq_true, decide_eq_true_eq] at h₁
        exact h₁.1
      omega
    rw [whole?, hread]
    unfold ofChars
    rw [List.map_cons]
    split
    · simp_all
    · rename_i heq
      simp only [Prod.mk.injEq, List.cons.injEq] at heq
      omega
    · rfl

/-- A text that does not go on with a part of a number. -/
def Ends (rest : List Char) : Prop :=
  ∀ c after, rest = c :: after → c.isDigit = false ∧ c ≠ '.' ∧ c ≠ 'e' ∧ c ≠ 'E'

theorem Ends.endsDigits {rest : List Char} (h : Ends rest) : EndsDigits rest :=
  fun c after heq => (h c after heq).1

theorem Ends.fraction? {rest : List Char} (h : Ends rest) : fraction? rest = some (none, rest) := by
  unfold Numeral.fraction?
  split
  · exact absurd rfl (h _ _ rfl).2.1
  · rfl

theorem Ends.exponent? {rest : List Char} (h : Ends rest) : exponent? rest = some (none, rest) := by
  unfold Numeral.exponent?
  split
  · exact absurd rfl (h _ _ rfl).2.2.1
  · exact absurd rfl (h _ _ rfl).2.2.2
  · rfl

/-- The literal of an integer. -/
def ofInteger (i : Int) : Numeral :=
  ⟨decide (i < 0), ofChars (Nat.toDigits 10 i.natAbs), none, none⟩

theorem read?_integerText {rest : List Char} (h : Ends rest) (i : Int) :
    read? (integerText i ++ rest) = some (ofInteger i, rest) := by
  have hwhole := whole?_toDigits h.endsDigits i.natAbs
  cases i with
  | ofNat n =>
      -- The digits of a number that is not negative are not taken for a sign.
      have hsign : ∀ r, Nat.toDigits 10 n ++ rest ≠ '-' :: r := by
        intro r heq
        cases hds : Nat.toDigits 10 n with
        | nil => exact Nat.toDigits_ne_nil hds
        | cons c cs =>
            have hc : c.isDigit :=
              Nat.isDigit_of_mem_toDigits (b := 10) (n := n) (by decide) (by decide) (by simp [hds])
            rw [hds] at heq
            rcases List.cons.inj heq with ⟨rfl, -⟩
            exact absurd hc (by decide)
      have hpos : ¬ ((n : Int) < 0) := by omega
      simp only [Int.ofNat_eq_natCast, Int.natAbs_natCast] at hwhole
      simp [read?, integerText, hwhole, h.fraction?, h.exponent?, ofInteger, hpos]
  | negSucc n =>
      have habs : (Int.negSucc n).natAbs = n + 1 := rfl
      have hneg : Int.negSucc n < 0 := Int.negSucc_lt_zero n
      rw [habs] at hwhole
      simp [read?, integerText, hwhole, h.fraction?, h.exponent?, ofInteger, hneg, habs]

theorem integer_ofInteger (i : Int) : (ofInteger i).integer = i := by
  have hdigits : ofDigits (ofChars (Nat.toDigits 10 i.natAbs)) = i.natAbs := by
    rw [ofDigits_ofChars, Nat.ofDigitChars_ten_toDigits]
  simp only [integer, ofInteger, hdigits, decide_eq_true_eq]
  split <;> omega

theorem number_ofInteger {i : Int} (h : (Number.integer i).IsExact) :
    (ofInteger i).number = some (.integer i) := by
  have hzero : ((ofInteger i).negative && i == 0) = false := by
    simp only [ofInteger, Bool.and_eq_false_iff, decide_eq_false_iff_not, beq_eq_false_iff_ne]
    omega
  have hkeeps : (ofInteger i).keepsInteger = true := by
    simp only [keepsInteger, integer_ofInteger, hzero]
    simp [isInteger, ofInteger, h.1, h.2]
  simp [number, hkeeps, integer_ofInteger]

theorem integerText_head (i : Int) :
    ∃ c cs, integerText i = c :: cs ∧ (c.isDigit ∨ c = '-') := by
  cases i with
  | ofNat n =>
      cases hds : Nat.toDigits 10 n with
      | nil => exact absurd hds Nat.toDigits_ne_nil
      | cons c cs =>
          refine ⟨c, cs, hds, Or.inl ?_⟩
          exact Nat.isDigit_of_mem_toDigits (b := 10) (n := n) (by decide) (by decide) (by simp [hds])
  | negSucc n => exact ⟨'-', _, rfl, Or.inr rfl⟩

end Numeral

/-! ## Values -/

namespace Reader

open Numeral (Ends)

theorem skipSpace_cons {c : Char} (h : isSpace c = false) (cs : List Char) :
    skipSpace (c :: cs) = c :: cs := by
  simp [skipSpace, h]

theorem isSpace_of_startsNumber {c : Char} (hc : c.isDigit ∨ c = '-') : isSpace c = false := by
  unfold isSpace
  simp only [Bool.or_eq_false_iff, decide_eq_false_iff_not]
  refine ⟨⟨⟨?_, ?_⟩, ?_⟩, ?_⟩ <;> (rintro rfl; revert hc; decide)

theorem value_number {c : Char} (hc : c.isDigit ∨ c = '-') (bound : Nat) (cs : List Char) :
    value (bound + 1) (c :: cs) = number (c :: cs) := by
  have hs : isSpace c = false := isSpace_of_startsNumber hc
  have hne : ∀ d : Char, ¬ (d.isDigit ∨ d = '-') → c ≠ d := by
    rintro d hd rfl
    exact hd hc
  have h₁ : c ≠ '{' := hne _ (by decide)
  have h₂ : c ≠ '[' := hne _ (by decide)
  have h₃ : c ≠ '"' := hne _ (by decide)
  have h₄ : c ≠ 'n' := hne _ (by decide)
  have h₅ : c ≠ 't' := hne _ (by decide)
  have h₆ : c ≠ 'f' := hne _ (by decide)
  rw [value, skipSpace_cons hs]
  simp [h₁, h₂, h₃, h₄, h₅, h₆]

/-- The first character of a value is none of those that an array or an object looks out for. -/
theorem chars_head {v : Value} (h : v.HasExactNumbers) :
    ∃ c cs, v.chars = c :: cs ∧ isSpace c = false ∧ c ≠ ']' := by
  cases v with
  | null => exact ⟨_, _, by rw [Value.chars], by decide, by decide⟩
  | bool b => cases b <;> exact ⟨_, _, by rw [Value.chars], by decide, by decide⟩
  | number n =>
      cases n with
      | integer i =>
          rcases Numeral.integerText_head i with ⟨c, cs, hcs, hc⟩
          refine ⟨c, cs, by rw [Value.chars, Number.text, hcs], isSpace_of_startsNumber hc, ?_⟩
          rintro rfl
          revert hc
          decide
      | double x => exact absurd h (by simp [Value.HasExactNumbers, Number.IsExact])
  | text s => exact ⟨_, _, by rw [Value.chars, quote], by decide, by decide⟩
  | array items => exact ⟨_, _, by rw [Value.chars], by decide, by decide⟩
  | object members => exact ⟨_, _, by rw [Value.chars], by decide, by decide⟩

theorem ends_cons {c : Char} (h : c = ',' ∨ c = ']' ∨ c = '}') (rest : List Char) :
    Ends (c :: rest) := by
  intro d after heq
  rcases List.cons.inj heq with ⟨rfl, -⟩
  rcases h with rfl | rfl | rfl <;> decide

theorem isComplete_tree (v : Value) : v.tree.isComplete = true := by
  cases v <;> simp [Value.tree, Tree.isComplete]

-- The recursion is that of the reader: a bound that is as large as the text that is left covers every
-- value, item and member in it.
mutual

/-- A written value is read back, whatever follows it. -/
theorem value_chars : ∀ (v : Value) (bound : Nat) (rest : List Char), v.HasExactNumbers →
    v.chars.length ≤ bound → Ends rest → value bound (v.chars ++ rest) = (v.tree, rest)
  | v, 0, rest, hv, hb, _ => by
      rcases chars_head hv with ⟨c, cs, hcs, -⟩
      simp [hcs] at hb
  | .null, bound + 1, rest, _, _, _ => by
      simp [Value.chars, Value.tree, value, skipSpace, isSpace]
  | .bool true, bound + 1, rest, _, _, _ => by
      simp [Value.chars, Value.tree, value, skipSpace, isSpace]
  | .bool false, bound + 1, rest, _, _, _ => by
      simp [Value.chars, Value.tree, value, skipSpace, isSpace]
  | .number (.double _), bound + 1, rest, hv, _, _ => by
      simp [Value.HasExactNumbers, Number.IsExact] at hv
  | .number (.integer i), bound + 1, rest, hv, _, hr => by
      rcases Numeral.integerText_head i with ⟨c, cs, hcs, hc⟩
      have hread := Numeral.read?_integerText hr i
      have hnumber := Numeral.number_ofInteger (by simpa [Value.HasExactNumbers] using hv)
      simp only [Value.chars, Number.text, Value.tree]
      rw [hcs] at hread ⊢
      rw [List.cons_append, value_number hc, ← List.cons_append, number, hread]
      simp [hnumber]
  | .text s, bound + 1, rest, _, _, _ => by
      simp [Value.chars, Value.tree, quote, value, skipSpace, isSpace, string?_written]
  | .array [], bound + 1, rest, _, _, _ => by
      simp [Value.chars, Value.itemsChars, Value.tree, Value.itemTrees, value, skipSpace, isSpace]
  | .array (v :: vs), bound + 1, rest, hv, hb, _ => by
      have hexact : Value.AllExact (v :: vs) := by simpa [Value.HasExactNumbers] using hv
      have hlen : (Value.itemsChars (v :: vs)).length ≤ bound := by
        simpa [Value.chars] using hb
      have hitems := items_chars v vs bound [] rest hexact hlen
      rcases chars_head hexact.1 with ⟨c, cs, hcs, hspace, hc⟩
      -- An array that is not empty goes on with its first item, which is no closing bracket.
      have hhead : ∃ after, Value.itemsChars (v :: vs) ++ rest = c :: after := by
        cases vs <;> exact ⟨_, by rw [Value.itemsChars, hcs]; rfl⟩
      rcases hhead with ⟨after, hafter⟩
      rw [hafter] at hitems
      rw [Value.chars, List.cons_append, hafter, value, skipSpace_cons (by decide)]
      simp [skipSpace_cons hspace, hc, hitems, Value.tree]
  | .object [], bound + 1, rest, _, _, _ => by
      simp [Value.chars, Value.membersChars, Value.tree, Value.memberTrees, value, skipSpace, isSpace]
  | .object (m :: ms), bound + 1, rest, hv, hb, _ => by
      have hexact : Value.AllExactMembers (m :: ms) := by simpa [Value.HasExactNumbers] using hv
      have hlen : (Value.membersChars (m :: ms)).length ≤ bound := by
        simpa [Value.chars] using hb
      have hmembers := members_chars m ms bound [] rest hexact hlen
      have hhead : ∃ after, Value.membersChars (m :: ms) ++ rest = '"' :: after := by
        cases ms <;> exact ⟨_, by rw [Value.membersChars, quote]; rfl⟩
      rcases hhead with ⟨after, hafter⟩
      rw [hafter] at hmembers
      rw [Value.chars, List.cons_append, hafter, value, skipSpace_cons (by decide)]
      simp [skipSpace_cons (c := '"') (by decide), hmembers, Value.tree]

theorem items_chars : ∀ (v : Value) (vs : List Value) (bound : Nat) (found : List Tree)
    (rest : List Char), Value.AllExact (v :: vs) → (Value.itemsChars (v :: vs)).length ≤ bound →
    items bound found (Value.itemsChars (v :: vs) ++ rest) =
      (.array (found.reverse ++ Value.itemTrees (v :: vs)) true, rest)
  | v, vs, 0, found, rest, hv, hb => by
      cases vs <;> simp [Value.itemsChars] at hb
  | v, [], bound + 1, found, rest, hv, hb => by
      simp only [Value.itemsChars, List.length_append, List.length_singleton] at hb
      have hvalue := value_chars v bound (']' :: rest) hv.1 (by omega)
        (ends_cons (by simp) rest)
      rw [Value.itemsChars, List.append_assoc, List.singleton_append, items, hvalue]
      simp [isComplete_tree, skipSpace, isSpace, Value.itemTrees]
  | v, w :: vs, bound + 1, found, rest, hv, hb => by
      simp only [Value.itemsChars, List.length_append, List.length_cons] at hb
      have hvalue := value_chars v bound (',' :: (Value.itemsChars (w :: vs) ++ rest)) hv.1
        (by omega) (ends_cons (by simp) _)
      have hitems := items_chars w vs bound (v.tree :: found) rest hv.2 (by omega)
      rw [Value.itemsChars, List.append_assoc, List.cons_append, items, hvalue]
      simp [isComplete_tree, skipSpace, isSpace, hitems, Value.itemTrees]

theorem members_chars : ∀ (m : String × Value) (ms : List (String × Value)) (bound : Nat)
    (found : List (Option String × Tree)) (rest : List Char), Value.AllExactMembers (m :: ms) →
    (Value.membersChars (m :: ms)).length ≤ bound →
    members bound found (Value.membersChars (m :: ms) ++ rest) =
      (.object (found.reverse ++ Value.memberTrees (m :: ms)) true, rest)
  | m, ms, 0, found, rest, hv, hb => by
      cases ms <;> simp [Value.membersChars, quote] at hb
  | (name, v), [], bound + 1, found, rest, hv, hb => by
      simp only [Value.membersChars, quote, List.length_append, List.length_cons] at hb
      have hvalue := value_chars v bound ('}' :: rest) hv.1 (by omega)
        (ends_cons (by simp) rest)
      rw [Value.membersChars, quote, members]
      simp [skipSpace, isSpace, string?_written, hvalue, isComplete_tree, Value.memberTrees]
  | (name, v), n :: ms, bound + 1, found, rest, hv, hb => by
      simp only [Value.membersChars, quote, List.length_append, List.length_cons] at hb
      have hvalue := value_chars v bound (',' :: (Value.membersChars (n :: ms) ++ rest)) hv.1
        (by omega) (ends_cons (by simp) _)
      have hmembers := members_chars n ms bound ((some name, v.tree) :: found) rest hv.2
        (by omega)
      rw [Value.membersChars, quote, members]
      simp [skipSpace, isSpace, string?_written, hvalue, isComplete_tree, hmembers,
        Value.memberTrees]

end

end Reader

/-- A written value is a whole document. -/
theorem ofText_render {v : Value} (h : v.HasExactNumbers) :
    Document.ofText v.render = ⟨v.tree, true⟩ := by
  have hend : Numeral.Ends [] := fun c after heq => by cases heq
  have hread := Reader.value_chars v (2 * v.chars.length + 2) [] h (by omega) hend
  rw [List.append_nil] at hread
  simp [Document.ofText, Value.render, hread, Reader.skipSpace]

end Json
end CmInventory
