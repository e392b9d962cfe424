import ReleaseTrain.Number.Layout
import ReleaseTrain.Text.Blank
import ReleaseTrain.Text.Digit

/-!
# Numerals

* `Numeral.decimal?`: digits with an optional point and an optional exponent.
* `Numeral.binary?`: a decimal or one of the words `inf`, `infinity` and `nan`, with a sign, blank
  characters around it, and single underscores between digits.  Digits of any script are accepted.
* `Numeral.whole?`: a sign and digits in a given base.
* `Numeral.hexadecimal?`: a sign and hexadecimal digits, which may be announced by `0x`.

A text that is not a number as a whole is not a number at all: nothing may be left over.
-/

namespace ReleaseTrain.Numeral

open ReleaseTrain.Text

/-- The value of a digit in a base up to sixteen, capital and small letters alike. -/
def digit? (base : Nat) (c : Char) : Option Nat :=
  let value :=
    if c.isDigit then some (c.toNat - 48)
    else if 'a' ≤ c ∧ c ≤ 'f' then some (c.toNat - 87)
    else if 'A' ≤ c ∧ c ≤ 'F' then some (c.toNat - 55)
    else none
  value.filter (· < base)

/-- The number that a row of digits stands for. -/
def ofDigits (base : Nat) (digits : List Nat) : Nat :=
  digits.foldl (fun n d => n * base + d) 0

/-- A row of digits as a number, or nothing if there is no digit or something else among them. -/
def natural? (base : Nat) (cs : List Char) : Option Nat :=
  if cs.isEmpty then none else (cs.mapM (digit? base)).map (ofDigits base)

/-- A leading sign and the rest. -/
def splitSign : List Char → Bool × List Char
  | '-' :: rest => (true, rest)
  | '+' :: rest => (false, rest)
  | cs => (false, cs)

/-- A number that may carry a sign. -/
def signed (negative : Bool) (n : Nat) : Int := if negative then -(n : Int) else n

/-- The exponent of a decimal: nothing at all, or the letter `e` with a whole number. -/
def exponent? : List Char → Option Int
  | [] => some 0
  | c :: rest =>
    if c = 'e' ∨ c = 'E' then
      let (negative, digits) := splitSign rest
      (natural? 10 digits).map (signed negative)
    else none

/-- A decimal without a sign: at least one digit, before or after the point. -/
def decimal? (cs : List Char) : Option Decimal :=
  let before := cs.takeWhile Char.isDigit
  let rest := cs.dropWhile Char.isDigit
  let (after, tail) :=
    match rest with
    | '.' :: fraction => (fraction.takeWhile Char.isDigit, fraction.dropWhile Char.isDigit)
    | _ => ([], rest)
  if before.isEmpty && after.isEmpty then none
  else do
    let coefficient ← natural? 10 (before ++ after)
    let exponent ← exponent? tail
    some ⟨coefficient, exponent - after.length⟩

/-- Digits of any script as the ten digits of ASCII. -/
def plainDigits (cs : List Char) : List Char :=
  cs.map fun c => ((digitValue? c).map fun d => Char.ofNat (48 + d)).getD c

/-- A text without its underscores, if each of them stands between two digits. -/
def dropUnderscores? (isDigit : Char → Bool) (previous : Option Char) :
    List Char → Option (List Char)
  | [] => some []
  | '_' :: rest =>
    if previous.any isDigit && rest.head?.any isDigit then
      dropUnderscores? isDigit (some '_') rest
    else none
  | c :: rest => (dropUnderscores? isDigit (some c) rest).map (c :: ·)

/-- A binary number without a sign: a decimal or a word for what is not finite. -/
def unsigned? (negative : Bool) (cs : List Char) : Option Binary64 :=
  let word := String.ofList (cs.map Char.toLower)
  if word = "inf" ∨ word = "infinity" then some (.infinite negative)
  else if word = "nan" then some .nan
  else (decimal? cs).map fun d => .ofDecimal negative d.coefficient d.scale

/-- The binary number nearest to what a text says. -/
def binary? (cs : List Char) : Option Binary64 := do
  let cs ← dropUnderscores? Char.isDigit none (plainDigits (trim isNumberSpace cs))
  let (negative, rest) := splitSign cs
  unsigned? negative rest

/-- The whole number that a text says in a base, with an optional sign. -/
def whole? (base : Nat) (cs : List Char) : Option Int :=
  let (negative, rest) := splitSign (plainDigits (trim isNumberSpace cs))
  (natural? base rest).map (signed negative)

/-- Hexadecimal digits without what announces them, and whether they were announced. -/
def splitHexMark : List Char → Bool × List Char
  | '0' :: 'x' :: rest => (true, rest)
  | '0' :: 'X' :: rest => (true, rest)
  | cs => (false, cs)

/-- The whole number that a text says in hexadecimal digits of either case, with an optional sign
and an optional `0x`.  Single underscores may stand between the digits and after the `0x`. -/
def hexadecimal? (cs : List Char) : Option Int := do
  let (negative, rest) := splitSign (plainDigits (trim isNumberSpace cs))
  let (isMarked, digits) := splitHexMark rest
  let isDigit := fun c => (digit? 16 c).isSome
  let digits ← dropUnderscores? isDigit (if isMarked then some '0' else none) digits
  (natural? 16 digits).map (signed negative)

end ReleaseTrain.Numeral
