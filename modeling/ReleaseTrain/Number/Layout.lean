import ReleaseTrain.Number.Decimal

/-!
# How a number is written

A number appears in two places of the output: in full, where a delay or a time limit is recorded,
and in brief, in the sentence that announces a delay.  Both share the layout rules and differ in
the record `Layout`.

* `Layout.full`: the shortest digits that read back; a whole number ends in `.0`.
* `Layout.brief`: six significant digits, with no zeros at the end.
* `Number`: a whole number or a binary one, as settings write it; `Number.text`, `Number.brief?`.
* `Number.isWritable`: which numbers have a text of a reasonable length.
-/

namespace ReleaseTrain

/-- The choices that differ between the ways of writing a number. -/
structure Layout where
  /-- The digits before the point beyond which an exponent is written instead. -/
  widest : Int
  /-- What follows the digits of a whole number. -/
  wholeMark : String
deriving DecidableEq, Repr

namespace Layout

/-- Written in full: positional below `10 ^ 16`, and a whole number is marked as a fraction. -/
def full : Layout := ⟨16, ".0"⟩

/-- Written in brief: positional below `10 ^ 6`. -/
def brief : Layout := ⟨6, ""⟩

/-- An exponent of ten with its sign and at least two digits. -/
def exponentText (n : Int) : String :=
  let digits := toString n.natAbs
  (if n < 0 then "e-" else "e+") ++ (if n.natAbs < 10 then "0" ++ digits else digits)

/-- A positive decimal.  Numbers below `10 ^ -4` and those wider than the layout allows get an
exponent and one digit before the point. -/
def decimalText (layout : Layout) (d : Decimal) : String :=
  let digits := Nat.toDigits 10 d.coefficient
  let point : Int := digits.length + d.scale
  let zeros (n : Int) := List.replicate n.toNat '0'
  if point ≤ -4 ∨ layout.widest < point then
    let tail := digits.drop 1
    String.ofList (digits.take 1 ++ (if tail.isEmpty then [] else '.' :: tail))
      ++ exponentText (point - 1)
  else if point ≤ 0 then
    String.ofList ('0' :: '.' :: (zeros (-point) ++ digits))
  else if (digits.length : Int) ≤ point then
    String.ofList (digits ++ zeros (point - digits.length)) ++ layout.wholeMark
  else
    String.ofList (digits.take point.toNat ++ '.' :: digits.drop point.toNat)

/-- The sign that stands before a number. -/
def signText (negative : Bool) : String := if negative then "-" else ""

/-- A binary number, with its digits chosen by `digitsOf`. -/
def render (layout : Layout) (digitsOf : Nat → Int → Decimal) : Binary64 → String
  | .nan => "nan"
  | .infinite negative => signText negative ++ "inf"
  | .finite negative significand exponent =>
    signText negative ++
      (if significand = 0 then "0" ++ layout.wholeMark
        else layout.decimalText (digitsOf significand exponent))

end Layout

/-- A binary number in full. -/
def Binary64.text (x : Binary64) : String := Layout.full.render Decimal.shortest x

/-- A binary number in brief. -/
def Binary64.brief (x : Binary64) : String := Layout.brief.render (Decimal.rounded 6) x

/-- A number as it is written in settings and answers: whole, or with a fraction or an exponent.
The two kinds are kept apart because they are printed differently. -/
inductive Number where
  | whole (n : Int)
  | binary (x : Binary64)
deriving DecidableEq, Repr

namespace Number

/-- Zero of either kind. -/
def isZero : Number → Bool
  | whole n => n == 0
  | binary x => x.isZero

/-- A number in full. -/
def text : Number → String
  | whole n => toString n
  | binary x => x.text

/-- The most digits with which a whole number is read or written. -/
def digitLimit : Nat := 4300

/-- Whether a number is not too long to be written. -/
def isWritable : Number → Bool
  | whole n => n.natAbs < Nat.pow 10 digitLimit
  | binary _ => true

/-- The nearest binary number; there is none for a whole number beyond the finite ones. -/
def toBinary? : Number → Option Binary64
  | whole n =>
    match Binary64.ofInt n with
    | .infinite _ => none
    | x => some x
  | binary x => some x

/-- A number in brief, which goes through a binary number. -/
def brief? (n : Number) : Option String := n.toBinary?.map Binary64.brief

/-- Equal amounts, whatever the kind: `1` and `1.0` are the same amount.  A binary number equals a
whole one if it is the value nearest to it and has no fraction, that is, if both have the same
exact value. -/
def sameAmount : Number → Number → Bool
  | whole m, whole n => m == n
  | binary x, binary y => sameBinary x y
  | whole m, binary y => sameWhole m y
  | binary x, whole n => sameWhole n x
where
  sameBinary : Binary64 → Binary64 → Bool
    | .nan, _ => false
    | _, .nan => false
    | x, y => x == y || (x.isZero && y.isZero)
  sameWhole (n : Int) : Binary64 → Bool
    | .finite negative significand exponent =>
      let magnitude := significand * Nat.pow 2 exponent.toNat
      let signed : Int := if negative then -magnitude else magnitude
      signed == n * Nat.pow 2 (-exponent).toNat
    | _ => false

end Number

end ReleaseTrain
