import ReleaseTrain.Number.Numeral
import ReleaseTrain.Value

/-!
# Literals of settings files

Settings files are written in TOML.  This module reads what stands between the punctuation.

* `Literal.basic`, `Literal.plain`: texts on one line, with and without escapes.
* `Literal.basicLines`, `Literal.plainLines`: texts over several lines.
* `Literal.scalar?`: a token as a number, a date or a time.

Each reader of a text takes what follows the opening quotes, collects code points, the last one
first, and gives the text with the rest.
-/

namespace ReleaseTrain.Toml

/-- Why a settings file is not read. -/
inductive Fault where
  /-- The text breaks the grammar. -/
  | unexpected
  /-- A text literal holds a character or an escape that it must not hold. -/
  | badText
  /-- A token is neither a number nor a date nor a time. -/
  | badScalar
  /-- A key or a table is defined again. -/
  | redefined (key : Text)
  /-- A key has too many parts, or arrays and inline tables are nested too deeply. -/
  | tooDeep
  /-- A table holds too many tables inside each other to be walked through. -/
  | tooHigh
deriving DecidableEq, Repr

/-- What a reader gives: something read, and the rest of the text. -/
abbrev Reading (α : Type) := Except Fault (α × List Char)

namespace Literal

/-- Controls that no literal and no comment may hold. -/
def isForbidden (c : Char) : Bool := c.toNat < 0x20 && c != '\t' || c.toNat == 0x7f

/-- White space that a backslash at the end of a line removes. -/
def isBlankOrNewline (c : Char) : Bool := c == ' ' || c == '\t' || c == '\n' || c == '\r'

/-- The character that a letter stands for after a backslash. -/
def simpleEscape? (c : Char) : Option Char :=
  match c with
  | 'b' => some '\x08'
  | 'e' => some '\x1b'
  | 't' => some '\t'
  | 'n' => some '\n'
  | 'f' => some '\x0c'
  | 'r' => some '\r'
  | '\x22' => some '\x22'
  | '\x5c' => some '\x5c'
  | _ => none

/-- Whether digits start like those of half of a surrogate pair. -/
def startsLikeHalf : List Char → Bool
  | first :: second :: _ => (first == 'd' || first == 'D') && !('0' ≤ second && second ≤ '7')
  | _ => false

/-- The code point that a row of characters of a given width says in hexadecimal digits. -/
def numericEscape (width : Nat) (cs : List Char) : Reading Nat :=
  let digits := cs.take width
  if digits.length < width then .error .badText
  else
    match Numeral.hexadecimal? digits with
    | none => .error .badText
    | some n => if n < 0 ∨ 0x10ffff < n then .error .badText else .ok (n.toNat, cs.drop width)

/-- What follows a backslash, as the code point that it stands for.  Half of a surrogate pair has no
escape of four digits. -/
def escape : List Char → Reading Nat
  | [] => .error .badText
  | 'x' :: rest => numericEscape 2 rest
  | 'u' :: rest => if startsLikeHalf rest then .error .badText else numericEscape 4 rest
  | 'U' :: rest => if startsLikeHalf rest then .error .badText else numericEscape 8 rest
  | c :: rest =>
    match simpleEscape? c with
    | none => .error .badText
    | some plain => .ok (plain.toNat, rest)

/-- A text on one line, up to its closing double quote. -/
def basic (read : List Nat) : (fuel : Nat) → List Char → Reading Text
  | _, [] => .error .unexpected
  | 0, _ => .error .unexpected
  | _, '\x22' :: rest => .ok (Text.ofPoints read.reverse, rest)
  | fuel + 1, '\x5c' :: rest =>
    match escape rest with
    | .error fault => .error fault
    | .ok (point, rest) => basic (point :: read) fuel rest
  | fuel + 1, c :: rest =>
    if isForbidden c then .error .badText else basic (c.toNat :: read) fuel rest

/-- A text on one line without escapes, up to its closing single quote. -/
def plain (read : List Nat) : List Char → Reading Text
  | [] => .error .unexpected
  | '\x27' :: rest => .ok (Text.ofPoints read.reverse, rest)
  | c :: rest => if isForbidden c then .error .badText else plain (c.toNat :: read) rest

/-- The end of a text over several lines, if the text ends here: three quotes close it, and up to
two more before them belong to it. -/
def closing? (quote : Char) (read : List Nat) (cs : List Char) : Option (Reading Text) :=
  let run := (cs.takeWhile (· = quote)).length
  if run < 3 then none
  else if 5 < run then some (.error .unexpected)
  else
    let read := List.replicate (run - 3) quote.toNat ++ read
    some (.ok (Text.ofPoints read.reverse, cs.drop run))

/-- A text over several lines.  A backslash before white space that holds a line end removes that
white space. -/
def basicLines (read : List Nat) : (fuel : Nat) → List Char → Reading Text
  | 0, _ => .error .unexpected
  | fuel + 1, cs =>
    match closing? '\x22' read cs with
    | some result => result
    | none =>
      match cs with
      | [] => .error .unexpected
      | '\x5c' :: rest =>
        let blank := rest.takeWhile isBlankOrNewline
        if blank.isEmpty then
          match escape rest with
          | .error fault => .error fault
          | .ok (point, rest) => basicLines (point :: read) fuel rest
        else if blank.contains '\n' then basicLines read fuel (rest.dropWhile isBlankOrNewline)
        else .error .badText
      | c :: rest =>
        if isForbidden c && c != '\n' then .error .badText
        else basicLines (c.toNat :: read) fuel rest

/-- A text over several lines without escapes. -/
def plainLines (read : List Nat) : (fuel : Nat) → List Char → Reading Text
  | 0, _ => .error .unexpected
  | fuel + 1, cs =>
    match closing? '\x27' read cs with
    | some result => result
    | none =>
      match cs with
      | [] => .error .unexpected
      | c :: rest =>
        if isForbidden c && c != '\n' then .error .badText
        else plainLines (c.toNat :: read) fuel rest

/-- The line end right after the opening quotes of a text over several lines is not part of it. -/
def dropNewline : List Char → List Char
  | '\n' :: rest => rest
  | cs => cs

/-- A text of any of the four kinds, from its opening quote on. -/
def text (cs : List Char) : Reading Text :=
  match cs with
  | '\x22' :: '\x22' :: '\x22' :: rest => basicLines [] (rest.length + 1) (dropNewline rest)
  | '\x27' :: '\x27' :: '\x27' :: rest => plainLines [] (rest.length + 1) (dropNewline rest)
  | '\x22' :: rest => basic [] (rest.length + 1) rest
  | '\x27' :: rest => plain [] rest
  | _ => .error .unexpected

/-! ## Numbers -/

/-- The base that a number announces by its first two characters. -/
def baseOf : List Char → Nat
  | '0' :: 'b' :: _ => 2
  | '0' :: 'o' :: _ => 8
  | '0' :: 'x' :: _ => 16
  | _ => 10

/-- A number without the underscores that stand between two digits. -/
def dropUnderscores (isDigit : Char → Bool) (previous : Option Char) : List Char → List Char
  | [] => []
  | '_' :: rest =>
    let dropped := previous.any isDigit && rest.head?.any isDigit
    let tail := dropUnderscores isDigit (some '_') rest
    if dropped then tail else '_' :: tail
  | c :: rest => c :: dropUnderscores isDigit (some c) rest

/-- Whether a number starts as a number must not: with a zero before another digit, or with a point
after a sign. -/
def startsBadly (hasSign : Bool) (digits : List Char) : Bool :=
  match digits with
  | '0' :: c :: _ => !(['.', 'o', 'x', 'b', 'e', 'E'].contains c)
  | '.' :: _ :: _ => hasSign
  | _ => false

/-- Whether what is no whole number may be a binary one: it has a point or an exponent, or it is one
of the two words for numbers that are not finite, in small letters. -/
def maybeBinary (digits clean : List Char) : Bool :=
  clean.contains '.' || clean.contains 'e' || digits == "inf".toList || digits == "nan".toList

/-- A number.  Only a number without a sign may announce a base. -/
def number? (token : List Char) : Option Number :=
  let hasSign := token.head?.any fun c => c == '+' || c == '-'
  let digits := (Numeral.splitSign token).2
  let base := baseOf digits
  if startsBadly hasSign digits || (hasSign && base != 10) then none
  else
    let isDigit := fun c => (Numeral.digit? base c).isSome
    let clean := (dropUnderscores isDigit none digits).map Char.toLower
    let mantissa := if base = 16 then clean else clean.takeWhile (· ≠ 'e')
    if clean.contains '_' || clean.getLast? == some '.' || mantissa.getLast? == some '.' then none
    else
      let signed := if hasSign then token.take 1 ++ clean else clean
      let whole :=
        if base = 10 then
          let count := clean.countP fun c => (Text.digitValue? c).isSome
          if Number.digitLimit < count then none else Numeral.whole? 10 signed
        else Numeral.whole? base ('+' :: clean.drop 2)
      match whole with
      | some n => some (.whole n)
      | none =>
        if maybeBinary digits clean then (Numeral.binary? signed).map .binary else none

/-! ## Dates and times -/

/-- A row of decimal digits of a given width, and the rest. -/
def digits? (width : Nat) (cs : List Char) : Option (Nat × List Char) :=
  let row := cs.take width
  if row.length = width && row.all Char.isDigit then
    (Numeral.natural? 10 row).map fun n => (n, cs.drop width)
  else none

/-- A character that must come next. -/
def expect? (c : Char) : List Char → Option (List Char)
  | d :: rest => if d = c then some rest else none
  | [] => none

/-- A day at the head of a token, with a year of four digits.  The digits of the year may be of any
script if that is asked for. -/
def day? (anyScript : Bool) (cs : List Char) : Option (Day × List Char) := do
  let year := cs.take 4
  let (year, _) ← digits? 4 (if anyScript then Numeral.plainDigits year else year)
  let rest ← expect? '-' (cs.drop 4)
  let (month, rest) ← digits? 2 rest
  let rest ← expect? '-' rest
  let (day, rest) ← digits? 2 rest
  let found : Day := ⟨year, month, day⟩
  if found.valid then some (found, rest) else none

/-- The fraction of a second in millionths; further digits are dropped. -/
def micros (digits : List Char) : Nat :=
  let six := digits.take 6
  (Numeral.natural? 10 (six ++ List.replicate (6 - six.length) '0')).getD 0

/-- The seconds of a time, with millionths: a colon, two digits and perhaps a fraction.  A time need
not have any. -/
def seconds? : List Char → Option (Nat × Nat × List Char)
  | ':' :: rest => do
    let (second, rest) ← digits? 2 rest
    match rest with
    | '.' :: more =>
      let row := more.takeWhile Char.isDigit
      if row.isEmpty then none else some (second, micros row, more.dropWhile Char.isDigit)
    | _ => some (second, 0, rest)
  | cs => some (0, 0, cs)

/-- A time of day at the head of a token. -/
def clock? (cs : List Char) : Option (Clock × List Char) := do
  let (hour, rest) ← digits? 2 cs
  let rest ← expect? ':' rest
  let (minute, rest) ← digits? 2 rest
  let (second, micro, rest) ← seconds? rest
  let found : Clock := ⟨hour, minute, second, micro⟩
  if found.valid then some (found, rest) else none

/-- An offset from universal time that ends a token, or nothing at all. -/
def offset? : List Char → Option (Option Offset)
  | [] => some none
  | [c] => if c = 'Z' ∨ c = 'z' then some (some ⟨0, "UTC"⟩) else none
  | sign :: rest =>
    if sign = '+' ∨ sign = '-' then do
      let (hours, rest') ← digits? 2 rest
      let rest' ← expect? ':' rest'
      let (minutes, rest') ← digits? 2 rest'
      if rest'.isEmpty && hours < 24 && minutes < 60 then
        some (some ⟨Numeral.signed (sign == '-') (hours * 60 + minutes),
          String.ofList (sign :: rest)⟩)
      else none
    else none

/-- A moment: a day, a letter or a space, a time, and perhaps an offset. -/
def moment? (token : List Char) : Option Moment := do
  let (day, rest) ← day? true token
  match rest with
  | c :: rest =>
    if c = 'T' ∨ c = 't' ∨ c = ' ' then do
      let (clock, rest) ← clock? rest
      let offset ← offset? rest
      some ⟨day, clock, offset⟩
    else none
  | [] => none

/-- A token as a day and nothing more. -/
def wholeDay? (token : List Char) : Option Day :=
  match day? false token with
  | some (day, []) => some day
  | _ => none

/-- A token as a time of day and nothing more. -/
def wholeClock? (token : List Char) : Option Clock :=
  match clock? token with
  | some (clock, []) => some clock
  | _ => none

/-- A token that starts with a digit or a sign. -/
def scalar? (token : List Char) : Option Value :=
  (moment? token).map .moment <|> (wholeClock? token).map .clock <|> (number? token).map .number

end Literal

end ReleaseTrain.Toml
