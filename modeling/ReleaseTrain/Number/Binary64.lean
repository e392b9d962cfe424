/-!
# Binary floating-point numbers of double width

A delay or a time limit may be written with a fraction, and then it is held as a binary number of
53 significant bits.  The numbers are kept as exact data, a sign, a significand and an exponent, so
that every statement about them is one about natural numbers and integers.

* `roundHalfEven`: a quotient to the nearest natural number, ties to the even neighbour.
* `Binary64.ofRatio`: the number nearest to a ratio; too large a ratio becomes an infinity.
* `Binary64.ofDecimal`: the number nearest to `coefficient * 10 ^ scale`.
-/

namespace ReleaseTrain

/-- `n / d` rounded to the nearest natural number, a half going to the even neighbour. -/
def roundHalfEven (n d : Nat) : Nat :=
  let quotient := n / d
  let remainder := n % d
  if 2 * remainder < d then quotient
  else if d < 2 * remainder then quotient + 1
  else quotient + quotient % 2

/-- A binary number of double width.  A finite one is `± significand * 2 ^ exponent`, where the
significand is below `2 ^ 53`, the exponent is at least `-1074`, and the significand reaches
`2 ^ 52` unless the exponent is the least one. -/
inductive Binary64 where
  | nan
  | infinite (negative : Bool)
  | finite (negative : Bool) (significand : Nat) (exponent : Int)
deriving DecidableEq, Repr

namespace Binary64

/-- The exponent of the smallest positive number. -/
def leastExponent : Int := -1074

/-- The exponent of the largest finite numbers. -/
def greatestExponent : Int := 971

/-- Zero with a sign. -/
def zero (negative : Bool) : Binary64 := .finite negative 0 leastExponent

/-- Both zeros, and nothing else, count as zero. -/
def isZero : Binary64 → Bool
  | .finite _ significand _ => significand == 0
  | _ => false

/-- The ratio `numerator / denominator / 2 ^ exponent` as a pair of natural numbers. -/
def scaled (numerator denominator : Nat) (exponent : Int) : Nat × Nat :=
  (numerator * Nat.pow 2 (-exponent).toNat, denominator * Nat.pow 2 exponent.toNat)

/-- The number nearest to `± numerator / denominator`.

The two binary logarithms give the exponent up to one, and the quotient at the first guess decides
which of the two it is.  A significand that rounds up to `2 ^ 53` moves to the next exponent. -/
def ofRatio (negative : Bool) (numerator denominator : Nat) : Binary64 :=
  if numerator = 0 then zero negative
  else
    let guess : Int := (numerator.log2 : Int) - (denominator.log2 : Int) - 53
    let (n, d) := scaled numerator denominator guess
    let fitted := if Nat.pow 2 53 ≤ n / d then guess + 1 else guess
    let exponent := max fitted leastExponent
    let (n, d) := scaled numerator denominator exponent
    let significand := roundHalfEven n d
    let (significand, exponent) :=
      if significand = Nat.pow 2 53 then (Nat.pow 2 52, exponent + 1) else (significand, exponent)
    if greatestExponent < exponent then .infinite negative
    else .finite negative significand exponent

/-- How many decimal places beyond the point, on either side, can still matter. -/
def decimalReach : Int := 400

/-- The number nearest to `± coefficient * 10 ^ scale`.  A decimal whose leading digit stands far
outside the range is settled by its size alone, so that no huge power of ten is computed. -/
def ofDecimal (negative : Bool) (coefficient : Nat) (scale : Int) : Binary64 :=
  if coefficient = 0 then zero negative
  else
    let leading : Int := (coefficient.log2 : Int) * 30103 / 100000 + scale
    if decimalReach < leading then .infinite negative
    else if leading < -decimalReach then zero negative
    else ofRatio negative
      (coefficient * Nat.pow 10 scale.toNat) (Nat.pow 10 (-scale).toNat)

/-- The number nearest to an integer; an infinity if the integer is beyond the finite numbers. -/
def ofInt (n : Int) : Binary64 :=
  ofRatio (decide (n < 0)) n.natAbs 1

end Binary64

end ReleaseTrain
