import ReleaseTrain.Text.Printable

/-!
# Quoted text

A text inside a list, a table or a message is shown between quotes, with everything that has no
visible form escaped.

* `Quoted.quote`: single quotes, unless the text holds a single quote and no double quote.
* `Quoted.quotePoints`: the same for a row of code points, not all of which need be characters.
* `Quoted.escape`: what stands for one character.
-/

namespace ReleaseTrain.Text.Quoted

/-- The last `width` hexadecimal digits of a number. -/
def hexDigits (width n : Nat) : List Char :=
  let digits := Nat.toDigits 16 n
  List.replicate (width - digits.length) '0' ++ digits

/-- The shortest of the three numeric escapes that holds a code point. -/
def numericEscape (point : Nat) : List Char :=
  if point < 0x100 then '\x5c' :: 'x' :: hexDigits 2 point
  else if point < 0x10000 then '\x5c' :: 'u' :: hexDigits 4 point
  else '\x5c' :: 'U' :: hexDigits 8 point

/-- What stands for a character between the given quotes. -/
def escape (quote c : Char) : List Char :=
  if c = quote ∨ c = '\x5c' then ['\x5c', c]
  else if c = '\n' then ['\x5c', 'n']
  else if c = '\r' then ['\x5c', 'r']
  else if c = '\t' then ['\x5c', 't']
  else if isPrintable c then [c]
  else numericEscape c.toNat

/-- What stands for a code point between the given quotes. -/
def escapePoint (quote : Char) (point : Nat) : List Char :=
  if point.isValidChar then escape quote (Char.ofNat point) else numericEscape point

/-- The quote that a text is put between, given whether it holds single and double quotes. -/
def quoteFor (hasSingle hasDouble : Bool) : Char :=
  if hasSingle && !hasDouble then '\x22' else '\x27'

/-- A text between quotes. -/
def quote (text : String) : String :=
  let cs := text.toList
  let mark := quoteFor (cs.contains '\x27') (cs.contains '\x22')
  String.ofList (mark :: (cs.flatMap (escape mark) ++ [mark]))

/-- A row of code points between quotes. -/
def quotePoints (points : List Nat) : String :=
  let mark := quoteFor (points.contains 0x27) (points.contains 0x22)
  String.ofList (mark :: (points.flatMap (escapePoint mark) ++ [mark]))

end ReleaseTrain.Text.Quoted
