import ReleaseTrain.Json.Error
import ReleaseTrain.Number.Numeral
import ReleaseTrain.Text.Surrogate
import ReleaseTrain.Value

/-!
# JSON documents

`Json.parse` reads a whole text as one value.  Besides the values of the standard, the words `NaN`,
`Infinity` and `-Infinity` stand for numbers.  A key that comes again in a table keeps its first
place and takes the later value.  Half of a surrogate pair that stands alone is kept in its text.

## How a fault finds its place

The readers work on what is left of the text, so a fault knows how many characters were left when
it was met; only `parse` knows the whole text and turns that number into line, column and index.

## Why it ends

Lists and tables call for the values inside them with a smaller depth, which is the limit on
nesting.  Along a list or a table every step takes at least one character off the text, so the
number of characters bounds the steps.
-/

namespace ReleaseTrain.Json

/-- A fault with the number of characters that were left where it was met. -/
inductive Fault where
  | broken (problem : Problem) (left : Nat)
  | tooManyDigits (count : Nat)
  | tooDeep
deriving DecidableEq, Repr

/-- What a reader gives: something read, and the rest of the text. -/
abbrev Reading (α : Type) := Except Fault (α × List Char)

/-- A fault at the head of the given rest. -/
def broken {α : Type} (problem : Problem) (rest : List Char) : Reading α :=
  .error (.broken problem rest.length)

/-- The four blank characters of the grammar. -/
def isBlank (c : Char) : Bool := c == ' ' || c == '\t' || c == '\n' || c == '\r'

/-- The rest of a text after blank characters. -/
def skipBlank (cs : List Char) : List Char := cs.dropWhile isBlank

/-- The character that a letter stands for after a backslash. -/
def simpleEscape? (c : Char) : Option Char :=
  match c with
  | '\x22' => some '\x22'
  | '\x5c' => some '\x5c'
  | '/' => some '/'
  | 'b' => some '\x08'
  | 'f' => some '\x0c'
  | 'n' => some '\n'
  | 'r' => some '\r'
  | 't' => some '\t'
  | _ => none

/-- Four hexadecimal digits as a number. -/
def codeUnit? (a b c d : Char) : Option Nat := Numeral.natural? 16 [a, b, c, d]

/-- The rest of a text literal after its opening quote; `opening` is what was left at that quote and
`read` are the code points read since, the last one first.  A numeric escape is complete only if the
text goes on after it, and half of a pair that stands alone is kept as a code point of its own. -/
def textRest (opening : Nat) (read : List Nat) : List Char → Reading Text
  | [] => .error (.broken .textUnterminated opening)
  | '\x22' :: rest => .ok (Text.ofPoints read.reverse, rest)
  | ['\x5c'] => .error (.broken .textUnterminated opening)
  | '\x5c' :: 'u' :: a :: b :: c :: d :: '\x5c' :: 'u' :: e :: f :: g :: h :: next :: rest =>
    match codeUnit? a b c d with
    | none => .error (.broken .unknownCodePoint (rest.length + 12))
    | some first =>
      if Text.Surrogate.isLeading first then
        match codeUnit? e f g h with
        | none => .error (.broken .unknownCodePoint (rest.length + 6))
        | some second =>
          if Text.Surrogate.isTrailing second then
            textRest opening (Text.Surrogate.pair first second :: read) (next :: rest)
          else textRest opening (first :: read)
            ('\x5c' :: 'u' :: e :: f :: g :: h :: next :: rest)
      else textRest opening (first :: read)
        ('\x5c' :: 'u' :: e :: f :: g :: h :: next :: rest)
  | '\x5c' :: 'u' :: a :: b :: c :: d :: next :: rest =>
    match codeUnit? a b c d with
    | none => .error (.broken .unknownCodePoint (rest.length + 6))
    | some unit => textRest opening (unit :: read) (next :: rest)
  | '\x5c' :: 'u' :: rest => .error (.broken .unknownCodePoint (rest.length + 1))
  | '\x5c' :: c :: rest =>
    match simpleEscape? c with
    | none => .error (.broken .unknownEscape (rest.length + 2))
    | some plain => textRest opening (plain.toNat :: read) rest
  | c :: rest =>
    if c.toNat < 0x20 then .error (.broken .controlCharacter (rest.length + 1))
    else textRest opening (c.toNat :: read) rest

/-- The whole part of a number: a zero, or digits that do not start with zero. -/
def wholePart (cs : List Char) : List Char × List Char :=
  match cs with
  | '0' :: rest => (['0'], rest)
  | _ => (cs.takeWhile Char.isDigit, cs.dropWhile Char.isDigit)

/-- The fraction of a number with its point, if a digit follows the point. -/
def fractionPart (cs : List Char) : List Char × List Char :=
  match cs with
  | '.' :: rest =>
    let digits := rest.takeWhile Char.isDigit
    if digits.isEmpty then ([], cs) else ('.' :: digits, rest.dropWhile Char.isDigit)
  | _ => ([], cs)

/-- The exponent of a number, if it has a digit. -/
def exponentPart (cs : List Char) : List Char × List Char :=
  match cs with
  | c :: rest =>
    if c = 'e' ∨ c = 'E' then
      let (sign, digits) :=
        match rest with
        | '+' :: more => (['+'], more)
        | '-' :: more => (['-'], more)
        | _ => ([], rest)
      let taken := digits.takeWhile Char.isDigit
      if taken.isEmpty then ([], cs)
      else ('e' :: (sign ++ taken), digits.dropWhile Char.isDigit)
    else ([], cs)
  | [] => ([], [])

/-- A number at the head of a text.  Without fraction and exponent it is whole, and then the number
of its digits is limited. -/
def number (cs : List Char) : Reading Value :=
  let (negative, unsigned) :=
    match cs with
    | '-' :: rest => (true, rest)
    | _ => (false, cs)
  let (whole, afterWhole) := wholePart unsigned
  if whole.isEmpty then broken .valueExpected cs
  else
    let (fraction, afterFraction) := fractionPart afterWhole
    let (exponent, rest) := exponentPart afterFraction
    if fraction.isEmpty && exponent.isEmpty then
      if Number.digitLimit < whole.length then .error (.tooManyDigits whole.length)
      else
        let magnitude := (Numeral.natural? 10 whole).getD 0
        .ok (.number (.whole (Numeral.signed negative magnitude)), rest)
    else
      match Numeral.unsigned? negative (whole ++ fraction ++ exponent) with
      | none => broken .valueExpected cs
      | some x => .ok (.number (.binary x), rest)

/-- The words that stand for a value. -/
def words : List (String × Value) :=
  [("null", .null), ("true", .bool true), ("false", .bool false), ("NaN", .number (.binary .nan)),
   ("Infinity", .number (.binary (.infinite false))),
   ("-Infinity", .number (.binary (.infinite true)))]

/-- A word or a number at the head of a text. -/
def scalar (cs : List Char) : Reading Value :=
  match words.find? fun (word, _) => word.toList.isPrefixOf cs with
  | some (word, value) => .ok (value, cs.drop word.length)
  | none => number cs

/-- The members of a list from the first on, up to the closing bracket. -/
def members (item : List Char → Reading Value) (read : List Value) :
    (fuel : Nat) → List Char → Reading Value
  | 0, cs => broken .valueExpected cs
  | fuel + 1, cs =>
    match item cs with
    | .error fault => .error fault
    | .ok (value, rest) =>
      match skipBlank rest with
      | ']' :: rest => .ok (.list (value :: read).reverse, rest)
      | ',' :: rest => members item (value :: read) fuel (skipBlank rest)
      | rest => broken .commaExpected rest

/-- The entries of a table from the first on, up to the closing brace. -/
def entries (item : List Char → Reading Value) (read : Entries Text Value) :
    (fuel : Nat) → List Char → Reading Value
  | 0, cs => broken .keyExpected cs
  | fuel + 1, cs =>
    match cs with
    | '\x22' :: afterQuote =>
      match textRest cs.length [] afterQuote with
      | .error fault => .error fault
      | .ok (key, rest) =>
        match skipBlank rest with
        | ':' :: rest =>
          match item (skipBlank rest) with
          | .error fault => .error fault
          | .ok (value, rest) =>
            let read := read.put key value
            match skipBlank rest with
            | '\x7d' :: rest => .ok (.table read, rest)
            | ',' :: rest => entries item read fuel (skipBlank rest)
            | rest => broken .commaExpected rest
        | rest => broken .colonExpected rest
    | _ => broken .keyExpected cs

/-- A value at the head of a text, with at most `depth` lists and tables around each other. -/
def value : (depth : Nat) → List Char → Reading Value
  | _, '\x22' :: rest => (textRest (rest.length + 1) [] rest).map fun (t, rest) => (.text t, rest)
  | 0, '[' :: _ => .error .tooDeep
  | 0, '\x7b' :: _ => .error .tooDeep
  | depth + 1, '[' :: rest =>
    match skipBlank rest with
    | ']' :: rest => .ok (.list [], rest)
    | rest => members (value depth) [] (rest.length + 1) rest
  | depth + 1, '\x7b' :: rest =>
    match skipBlank rest with
    | '\x7d' :: rest => .ok (.table [], rest)
    | rest => entries (value depth) [] (rest.length + 1) rest
  | _, cs => scalar cs

/-- How many lists and tables may stand inside each other. -/
def depthLimit : Nat := 985

/-- A whole text as one value. -/
def document (cs : List Char) : Except Fault Value :=
  match cs with
  | '\ufeff' :: _ => .error (.broken .byteOrderMark cs.length)
  | _ =>
    match value depthLimit (skipBlank cs) with
    | .error fault => .error fault
    | .ok (found, rest) =>
      match skipBlank rest with
      | [] => .ok found
      | rest => .error (.broken .trailingText rest.length)

/-- The place of a fault: lines are counted from one, and so are the columns of a line. -/
def locate (cs : List Char) : Fault → Error
  | .broken problem left =>
    let index := cs.length - left
    let before := cs.take index
    let column := (before.reverse.takeWhile (· ≠ '\n')).length + 1
    .broken problem (before.count '\n' + 1) column index
  | .tooManyDigits count => .tooManyDigits count
  | .tooDeep => .tooDeep

/-- Reads a text as one value. -/
def parse (text : String) : Except Error Value :=
  (document text.toList).mapError (locate text.toList)

end ReleaseTrain.Json
