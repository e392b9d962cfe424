import ReleaseTrain.Number.Binary64

/-!
# Decimal digits of a binary number

Two questions are answered exactly, in natural numbers.

* `Decimal.shortest`: the fewest digits that read back as the same binary number, and of those the
  nearest to it.
* `Decimal.rounded`: the nearest decimal with a given number of significant digits, ties to even.

## Why a grid and two neighbours

The decimals with `n` significant digits around a value form a grid.  If any point of the grid lies
among the reals that round to the value, so does one of the two grid points next to the value, so
only those two are looked at.  Everything is compared on a common scale: a decimal `c * 10 ^ s` is
weighed as `c * decimalWeight`, a multiple `b` of a quarter of the binary unit as
`b * binaryWeight`.
-/

namespace ReleaseTrain

/-- The decimal number `coefficient * 10 ^ scale`. -/
structure Decimal where
  coefficient : Nat
  scale : Int
deriving DecidableEq, Repr

namespace Decimal

/-- Drops the zeros at the end of a coefficient, as many as `fuel` allows. -/
def dropZeros : Nat → Decimal → Decimal
  | 0, d => d
  | fuel + 1, d =>
    if d.coefficient ≠ 0 ∧ d.coefficient % 10 = 0 then
      dropZeros fuel ⟨d.coefficient / 10, d.scale + 1⟩
    else d

/-- The number of decimal digits of a natural number. -/
def digitCount (n : Nat) : Nat := (Nat.toDigits 10 n).length

/-- The place of the leading digit of `n / d`: the ratio is at least `10 ^ (place - 1)` and below
`10 ^ place`. -/
def leadingPlace (n d : Nat) : Int :=
  if d ≤ n then digitCount (n / d) else 1 - (digitCount ((d - 1) / n) : Int)

/-- What a unit of `10 ^ scale` weighs beside a unit of `2 ^ exponent`. -/
def decimalWeight (scale exponent : Int) : Nat :=
  Nat.pow 10 scale.toNat * Nat.pow 2 (-exponent).toNat

/-- What a unit of `2 ^ exponent` weighs beside a unit of `10 ^ scale`. -/
def binaryWeight (scale exponent : Int) : Nat :=
  Nat.pow 2 exponent.toNat * Nat.pow 10 (-scale).toNat

/-- The place of the leading digit of `significand * 2 ^ exponent`. -/
def placeOf (significand : Nat) (exponent : Int) : Int :=
  leadingPlace (significand * Nat.pow 2 exponent.toNat) (Nat.pow 2 (-exponent).toNat)

/-- The point of the grid of `count` digits that reads back as `significand * 2 ^ exponent`, if the
grid has one.  The bounds of the reals that round to the value are half a unit away, but only a
quarter below the least significand, and they count exactly if the significand is even. -/
def onGrid? (significand : Nat) (exponent : Int) (count : Nat) : Option Decimal :=
  let scale := placeOf significand exponent - count
  let weight := decimalWeight scale (exponent - 2)
  let unit := binaryWeight scale (exponent - 2)
  let value := 4 * significand * unit
  let lowest :=
    if significand = Nat.pow 2 52 ∧ Binary64.leastExponent < exponent then value - unit
    else value - 2 * unit
  let highest := value + 2 * unit
  let within (c : Nat) : Bool :=
    if significand % 2 = 0 then lowest ≤ c * weight && c * weight ≤ highest
    else lowest < c * weight && c * weight < highest
  let below := value / weight
  let above := below + 1
  match within below, within above with
  | true, true => some ⟨roundHalfEven value weight, scale⟩
  | true, false => some ⟨below, scale⟩
  | false, true => some ⟨above, scale⟩
  | false, false => none

/-- The fewest digits that read back as `significand * 2 ^ exponent`.  Seventeen always do, so the
search ends there. -/
def shortest (significand : Nat) (exponent : Int) : Decimal :=
  let found := (List.range 17).findSome? fun i => onGrid? significand exponent (i + 1)
  dropZeros 20 (found.getD ⟨significand, 0⟩)

/-- The nearest decimal of `count` significant digits to `significand * 2 ^ exponent`, a half going
to the even digit. -/
def rounded (count : Nat) (significand : Nat) (exponent : Int) : Decimal :=
  let scale := placeOf significand exponent - count
  let nearest := roundHalfEven (significand * binaryWeight scale exponent)
    (decimalWeight scale exponent)
  dropZeros (count + 1) ⟨nearest, scale⟩

end Decimal

end ReleaseTrain
