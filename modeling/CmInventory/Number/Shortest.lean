import CmInventory.Number.Binary64

/-!
# Shortest decimal text

The text of a binary floating-point number with the fewest digits that read back as the number, of
several such texts the one nearest to it.

The reals that round to a number form an interval, which holds its end points exactly if the
significand is even. For one digit, two digits and so on, the two points next to the value on the
grid of decimals with that many digits are tried: the first grid with a point in the interval wins.

`DecimalLayout` holds the decisions of a format: between which exponents a number is written
without one, and how an exponent is marked. `DecimalLayout.json` is that of the JSON texts
written here.
-/

namespace CmInventory
namespace Binary64

/-- A decimal `digits · 10 ^ exponent`. -/
structure Decimal where
  digits : Nat
  exponent : Int
  deriving DecidableEq, Repr

/-- The interval of a number in quarters of the last place of its significand: the lower end, the
value and the upper end. Below a power of two the next number is only half as far away. -/
def quarters (x : Binary64) : Nat × Nat × Nat :=
  let m := x.significand
  let below := if m = leastNormal ∧ leastExponent < x.exponent then 1 else 2
  (4 * m - below, 4 * m, 4 * m + 2)

/-- Scales `n · 2 ^ (x.exponent - 2)` by `10 ^ (-grid)`, as a ratio. -/
def onGrid (x : Binary64) (n : Nat) (grid : Int) : Nat × Nat :=
  let e := x.exponent - 2
  let num := n * Nat.pow 2 e.toNat * Nat.pow 10 (-grid).toNat
  let den := Nat.pow 2 (-e).toNat * Nat.pow 10 grid.toNat
  (num, den)

/-- Whether the point `c` of the grid rounds to the number. -/
def reads (x : Binary64) (grid : Int) (c : Nat) : Bool :=
  let (low, _, high) := x.quarters
  let (ln, ld) := x.onGrid low grid
  let (hn, hd) := x.onGrid high grid
  -- The ends of the interval belong to the number with the even significand.
  if x.significand % 2 = 0 then ln ≤ c * ld && c * hd ≤ hn
  else ln < c * ld && c * hd < hn

/-- The point of the grid that reads as the number and is nearest to it, if there is one. -/
def pointOn (x : Binary64) (grid : Int) : Option Nat :=
  let (_, value, _) := x.quarters
  let (num, den) := x.onGrid value grid
  let c := num / den
  let below := x.reads grid c
  let above := x.reads grid (c + 1)
  let twice := 2 * (num % den)
  -- Both neighbours read as the number: the nearer one counts, of a tie the even one.
  if below && above then
    if twice < den then some c
    else if den < twice then some (c + 1)
    else if c % 2 = 0 then some c
    else some (c + 1)
  else if below then some c
  else if above then some (c + 1)
  else none

/-- The greatest `p` with `10 ^ p` at most the absolute value of a number other than zero. -/
def leadingPlace (x : Binary64) : Int :=
  let (num, den) := x.ratio
  let rec up (fuel : Nat) (p : Int) : Int :=
    match fuel with
    | 0 => p
    | fuel + 1 =>
        let next := p + 1
        let reached :=
          den * Nat.pow 10 next.toNat ≤ num * Nat.pow 10 (-next).toNat
        if reached then up fuel next else p
  up 640 (-326)

/-- The shortest decimal that reads as the number. Seventeen digits always suffice. -/
def shortest (x : Binary64) : Decimal :=
  if x.isZero then
    ⟨0, 0⟩
  else
    let place := x.leadingPlace
    let found := (List.range 17).findSome? fun (k : Nat) =>
      let grid := place - (k : Int)
      (x.pointOn grid).map fun c => (⟨c, grid⟩ : Decimal)
    found.getD ⟨0, 0⟩

end Binary64

/-- How a format writes decimals: the exponents of ten, in scientific notation, between which a
number is written positionally, and the sign of a positive exponent. -/
structure DecimalLayout where
  leastPositional : Int
  greatestPositional : Int
  positiveMark : String

namespace DecimalLayout

/-- Numbers from `10 ^ (-5)` to below `10 ^ 16` are written positionally and always with a decimal
point, other numbers with an exponent that carries its sign. -/
def json : DecimalLayout := ⟨-5, 15, "+"⟩

/-- The digits of a natural number without the zeros at the end, and how many were dropped. -/
def significantDigits (n : Nat) : List Char × Nat :=
  let digits := (Nat.toDigits 10 n).reverse
  let kept := digits.dropWhile (· == '0')
  (kept.reverse, digits.length - kept.length)

/-- The absolute value of a number as text. -/
def absText (layout : DecimalLayout) (d : Binary64.Decimal) : String :=
  if d.digits = 0 then
    "0.0"
  else
    let (digits, dropped) := significantDigits d.digits
    let place : Int := d.exponent + dropped + (digits.length : Int) - 1
    if layout.leastPositional ≤ place ∧ place ≤ layout.greatestPositional then
      if place < 0 then
        String.ofList ('0' :: '.' :: (List.replicate (-place - 1).toNat '0' ++ digits))
      else
        let whole := place.toNat + 1
        if digits.length ≤ whole then
          String.ofList (digits ++ List.replicate (whole - digits.length) '0') ++ ".0"
        else
          String.ofList (digits.take whole ++ '.' :: digits.drop whole)
    else
      let mantissa :=
        match digits with
        | [d] => [d]
        | d :: rest => d :: '.' :: rest
        | [] => []
      let mark := if place < 0 then "-" else layout.positiveMark
      String.ofList mantissa ++ "e" ++ mark ++ toString place.natAbs

/-- The shortest text of a number that reads back as it. -/
def text (layout : DecimalLayout) (x : Binary64) : String :=
  (if x.negative then "-" else "") ++ layout.absText x.shortest

end DecimalLayout
end CmInventory
