/-!
# White space and blank text

The characters with the Unicode property `White_Space`, the trimming of text on both sides, and blank
text: text of white space alone. `isBlank_iff_trim` says that text is blank exactly if trimming
leaves nothing of it.
-/

namespace CmInventory
namespace Text

/-- The characters with the Unicode property `White_Space`. -/
def isSpace (c : Char) : Bool :=
  let n := c.toNat
  (0x09 ≤ n && n ≤ 0x0D) || n == 0x20 || n == 0x85 || n == 0xA0 || n == 0x1680 ||
    (0x2000 ≤ n && n ≤ 0x200A) || n == 0x2028 || n == 0x2029 || n == 0x202F || n == 0x205F ||
    n == 0x3000

/-- Characters without the white space they start with. -/
def trimStart (cs : List Char) : List Char :=
  cs.dropWhile isSpace

/-- Characters without the leading characters that satisfy `p`, seen from the end. -/
def dropEndWhile (p : Char → Bool) (cs : List Char) : List Char :=
  (cs.reverse.dropWhile p).reverse

/-- Text without the white space at its two ends. -/
def trim (s : String) : String :=
  String.ofList (dropEndWhile isSpace (trimStart s.toList))

/-- Text that holds nothing but white space. -/
def isBlank (s : String) : Bool :=
  s.toList.all isSpace

/-! ## Laws -/

/-- White space of the core library is white space here. -/
theorem isSpace_of_isWhitespace {c : Char} (h : c.isWhitespace) : isSpace c := by
  simp only [Char.isWhitespace, Bool.or_eq_true, decide_eq_true_eq] at h
  rcases h with ((rfl | rfl) | rfl) | rfl <;> decide

theorem dropWhile_eq_nil_iff_all {p : Char → Bool} {cs : List Char} :
    cs.dropWhile p = [] ↔ cs.all p = true := by
  induction cs with
  | nil => simp
  | cons c cs ih =>
      rw [List.dropWhile_cons, List.all_cons]
      cases p c with
      | true => exact ih
      | false => simp

theorem isBlank_iff_trim {s : String} : isBlank s = true ↔ trim s = "" := by
  unfold isBlank trim dropEndWhile trimStart
  rw [← dropWhile_eq_nil_iff_all]
  constructor
  · intro h
    simp [h]
  · intro h
    have hl : (s.toList.dropWhile isSpace).reverse.dropWhile isSpace = [] := by
      have := congrArg String.toList h
      simpa using this
    have hall := dropWhile_eq_nil_iff_all.1 hl
    cases hd : s.toList.dropWhile isSpace with
    | nil => rfl
    | cons c cs =>
        have hc : isSpace c = false := by
          have := List.head?_dropWhile_not isSpace s.toList
          simpa [hd] using this
        rw [hd] at hall
        simp [hc] at hall

end Text
end CmInventory
