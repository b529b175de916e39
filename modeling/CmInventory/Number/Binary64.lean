/-!
# Binary floating-point numbers of 64 bits

The finite numbers of the binary format with 53 bits of precision, as exact values
`±significand · 2 ^ exponent`. Every operation computes the exact result and rounds it once, to the
nearest number, a tie to the even significand; `none` says that the result is too large.

Main definitions:

- `Binary64.round`: the nearest number to a ratio of natural numbers;
- `Binary64.ofDecimal`: the number that `significand · 10 ^ exponent` is read as. The power of ten is
  itself a rounded number and is applied by one multiplication or division, so the result may differ
  from the nearest number in the last place.
-/

namespace CmInventory

/-- The number `±significand · 2 ^ exponent`. -/
structure Binary64 where
  negative : Bool
  significand : Nat
  exponent : Int
  deriving DecidableEq, Repr

namespace Binary64

/-- The least exponent: that of the numbers below the normal range. -/
def leastExponent : Int := -1074

/-- The greatest exponent of a finite number. -/
def greatestExponent : Int := 971

def zero (negative : Bool) : Binary64 := ⟨negative, 0, leastExponent⟩

/-- The least significand of 53 bits. -/
def leastNormal : Nat := 4503599627370496

instance : Inhabited Binary64 := ⟨zero false⟩

/-- Whether the number is zero, of either sign. -/
def isZero (x : Binary64) : Bool :=
  x.significand == 0

def neg (x : Binary64) : Binary64 :=
  { x with negative := !x.negative }

/-- The quotient of two natural numbers rounded to the nearest one, a tie to the even one. -/
def divideToEven (num den : Nat) : Nat :=
  let q := num / den
  let twice := 2 * (num % den)
  if twice < den then q
  else if den < twice then q + 1
  else if q % 2 = 0 then q
  else q + 1

/-- The ratio `num / den · 2 ^ (-e)` as a pair of natural numbers. -/
def shifted (num den : Nat) (e : Int) : Nat × Nat :=
  (num * Nat.pow 2 (-e).toNat, den * Nat.pow 2 e.toNat)

/-- The exponent at which the positive ratio `num / den` has a significand of 53 bits, at least the
least exponent. -/
def exponentFor (num den : Nat) : Int :=
  -- The quotient of the leading bits is right or one too high.
  let guess : Int := (num.log2 : Int) - (den.log2 : Int) - 52
  let (n, d) := shifted num den guess
  let exact := if n < leastNormal * d then guess - 1 else guess
  max exact leastExponent

/-- The number nearest to `± num / den`, if there is a finite one. -/
def round (negative : Bool) (num den : Nat) : Option Binary64 :=
  if num = 0 then
    some (zero negative)
  else
    let e := exponentFor num den
    let (n, d) := shifted num den e
    let m := divideToEven n d
    -- Rounding up may carry into a bit more than fits.
    let x : Binary64 := if m = 2 * leastNormal then ⟨negative, leastNormal, e + 1⟩ else ⟨negative, m, e⟩
    if greatestExponent < x.exponent then none
    else if x.significand = 0 then some (zero negative)
    else some x

/-- The absolute value as a ratio of natural numbers. -/
def ratio (x : Binary64) : Nat × Nat :=
  (x.significand * Nat.pow 2 x.exponent.toNat, Nat.pow 2 (-x.exponent).toNat)

/-- The rounded product. -/
def mul (x y : Binary64) : Option Binary64 :=
  let (a, b) := x.ratio
  let (c, d) := y.ratio
  round (x.negative != y.negative) (a * c) (b * d)

/-- The rounded quotient, for a divisor other than zero. -/
def div (x y : Binary64) : Option Binary64 :=
  let (a, b) := x.ratio
  let (c, d) := y.ratio
  round (x.negative != y.negative) (a * d) (b * c)

/-- The number nearest to a natural number below `2 ^ 64`. -/
def ofNat (n : Nat) : Binary64 :=
  (round false n 1).getD (zero false)

/-- The greatest power of ten that is a finite number. -/
def greatestTenPower : Nat := 308

/-- The number nearest to `10 ^ k`, for `k` up to the greatest power. -/
def tenPower (k : Nat) : Binary64 :=
  (round false (Nat.pow 10 k) 1).getD (zero false)

/-- `x / 10 ^ (308 · steps + rest)`: a division by the greatest power of ten for each step, until the
number is zero, and one by the rest. -/
def divideByTens (x : Binary64) (rest : Nat) : Nat → Option Binary64
  | 0 => x.div (tenPower rest)
  | steps + 1 =>
      if x.isZero then some x
      else (x.div (tenPower greatestTenPower)).bind fun y => y.divideByTens rest steps

/-- `x / 10 ^ k`, in as few divisions by powers of ten as possible, the greatest ones first. -/
def scaleDown (x : Binary64) (k : Nat) : Option Binary64 :=
  let steps := (k - 1) / greatestTenPower
  x.divideByTens (k - greatestTenPower * steps) steps

/-- `x · 10 ^ k`, by one multiplication; too large if `10 ^ k` is, unless `x` is zero. -/
def scaleUp (x : Binary64) (k : Nat) : Option Binary64 :=
  if k ≤ greatestTenPower then x.mul (tenPower k)
  else if x.isZero then some x
  else none

/-- `x · 10 ^ e`. -/
def scaleByTen (x : Binary64) (e : Int) : Option Binary64 :=
  if 0 ≤ e then x.scaleUp e.toNat else x.scaleDown (-e).toNat

/-- The number that `significand · 10 ^ exponent` is read as, for a significand below `2 ^ 64`;
`none` if it is too large. -/
def ofDecimal (negative : Bool) (significand : Nat) (exponent : Int) : Option Binary64 :=
  (scaleByTen (ofNat significand) exponent).map fun x => if negative then x.neg else x

end Binary64
end CmInventory
