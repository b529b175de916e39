import CmInventory.Json.Value

/-!
# Numerals

The number literals of JSON: an optional minus sign, a whole part without superfluous zeros, an
optional fraction and an optional exponent.

A literal of digits alone is an integer if it is in the range from `-2 ^ 63` to `2 ^ 64 - 1` and not
`-0`. For every other literal the digits are gathered into a significand as long as it stays below
`2 ^ 64`; whole digits after that count as powers of ten, and digits of the fraction are dropped.
-/

namespace CmInventory
namespace Json

/-- A number literal: digits as numbers below ten. -/
structure Numeral where
  negative : Bool
  whole : List Nat
  fraction : Option (List Nat)
  exponent : Option (Bool × List Nat)
  deriving DecidableEq, Repr

namespace Numeral

/-- The value of an ASCII digit. -/
def digit? (c : Char) : Option Nat :=
  if c.isDigit then some (c.toNat - 48) else none

/-- The digits at the start and the text after them. -/
def digits : List Char → List Nat × List Char
  | [] => ([], [])
  | c :: rest =>
      match digit? c with
      | some d =>
          let (ds, after) := digits rest
          (d :: ds, after)
      | none => ([], c :: rest)

/-- At least one digit at the start, and the text after the digits. -/
def digits1? (cs : List Char) : Option (List Nat × List Char) :=
  match digits cs with
  | ([], _) => none
  | found => some found

/-- A whole part: one zero, or digits that do not start with one. -/
def whole? (cs : List Char) : Option (List Nat × List Char) :=
  match digits cs with
  | ([], _) => none
  | (0 :: _ :: _, _) => none
  | found => some found

/-- A fraction, if there is a decimal point. -/
def fraction? : List Char → Option (Option (List Nat) × List Char)
  | '.' :: rest => (digits1? rest).map fun (ds, after) => (some ds, after)
  | cs => some (none, cs)

/-- The sign and the digits of an exponent, after its mark. -/
def signedDigits? : List Char → Option ((Bool × List Nat) × List Char)
  | '+' :: rest => (digits1? rest).map fun (ds, after) => ((false, ds), after)
  | '-' :: rest => (digits1? rest).map fun (ds, after) => ((true, ds), after)
  | cs => (digits1? cs).map fun (ds, after) => ((false, ds), after)

/-- An exponent, if there is a mark of one. -/
def exponent? : List Char → Option (Option (Bool × List Nat) × List Char)
  | 'e' :: rest | 'E' :: rest => (signedDigits? rest).map fun (e, after) => (some e, after)
  | cs => some (none, cs)

/-- The literal at the start and the text after it. -/
def read? (cs : List Char) : Option (Numeral × List Char) := do
  let (negative, cs) := match cs with
    | '-' :: rest => (true, rest)
    | _ => (false, cs)
  let (whole, cs) ← whole? cs
  let (fraction, cs) ← fraction? cs
  let (exponent, cs) ← exponent? cs
  return (⟨negative, whole, fraction, exponent⟩, cs)

/-! ## The number of a literal -/

/-- The natural number with the given decimal digits. -/
def ofDigits (ds : List Nat) : Nat :=
  ds.foldl (fun n d => 10 * n + d) 0

/-- The bound of significands. -/
def significandBound : Nat := UInt64.size

/-- Gathers digits into a significand as long as it stays below the bound; also the digits that are
left over. -/
def gather (significand : Nat) : List Nat → Nat × List Nat
  | [] => (significand, [])
  | d :: rest =>
      if 10 * significand + d < significandBound then gather (10 * significand + d) rest
      else (significand, d :: rest)

/-- Significand and exponent of ten. -/
def decimal (n : Numeral) : Nat × Int :=
  let (s, dropped) := gather 0 n.whole
  let fraction := n.fraction.getD []
  let (s', unused) := gather s fraction
  let written : Int :=
    match n.exponent with
    | none => 0
    | some (true, ds) => -(ofDigits ds : Int)
    | some (false, ds) => ofDigits ds
  -- Whole digits that were left over still count as places; those of the fraction do not.
  (s', dropped.length - (fraction.length - unused.length : Nat) + written)

/-- Whether the literal consists of a sign and digits. -/
def isInteger (n : Numeral) : Bool :=
  n.fraction.isNone && n.exponent.isNone

/-- The number that a literal of digits alone stands for. -/
def integer (n : Numeral) : Int :=
  if n.negative then -(ofDigits n.whole : Int) else ofDigits n.whole

/-- Whether the literal is read as an integer: it has digits alone, is in the range of integers and
is not a zero with a minus sign. -/
def keepsInteger (n : Numeral) : Bool :=
  n.isInteger && decide (Number.leastInteger ≤ n.integer) &&
    decide (n.integer ≤ Number.greatestInteger) && !(n.negative && n.integer == 0)

/-- The number of the literal; none if its magnitude is too large. -/
def number (n : Numeral) : Option Number :=
  if n.keepsInteger then
    some (.integer n.integer)
  else
    let (significand, exponent) := n.decimal
    (Binary64.ofDecimal n.negative significand exponent).map .double

end Numeral
end Json
end CmInventory
