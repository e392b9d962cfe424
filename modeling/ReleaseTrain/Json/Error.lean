import ReleaseTrain.Number.Layout

/-!
# Why a text is no JSON document

A fault is found at a place of the text, and the message names the place by line, column and
index, all counted in characters.

* `Json.Problem`: what is wrong at a place, with its wording.
* `Json.Error`: a problem with its place, or one of two limits that a document exceeds.
-/

namespace ReleaseTrain.Json

/-- What is wrong at a place of a text. -/
inductive Problem where
  | valueExpected
  | commaExpected
  | colonExpected
  | keyExpected
  | textUnterminated
  | controlCharacter
  | unknownEscape
  | unknownCodePoint
  | trailingText
  | byteOrderMark
deriving DecidableEq, Repr

/-- The wording of a problem. -/
def Problem.message : Problem → String
  | valueExpected => "Expecting value"
  | commaExpected => "Expecting ',' delimiter"
  | colonExpected => "Expecting ':' delimiter"
  | keyExpected => "Expecting property name enclosed in double quotes"
  | textUnterminated => "Unterminated string starting at"
  | controlCharacter => "Invalid control character at"
  | unknownEscape => "Invalid \\escape"
  | unknownCodePoint => "Invalid \\uXXXX escape"
  | trailingText => "Extra data"
  | byteOrderMark => "Unexpected UTF-8 BOM (decode using utf-8-sig)"

/-- Why a text is not read as a document. -/
inductive Error where
  /-- The text breaks the grammar at an index. -/
  | broken (problem : Problem) (line column index : Nat)
  /-- A whole number has more digits than are read. -/
  | tooManyDigits (count : Nat)
  /-- Lists and tables are nested too deeply. -/
  | tooDeep
deriving DecidableEq, Repr

/-- The wording of an error. -/
def Error.message : Error → String
  | broken problem line column index =>
    problem.message ++ ": line " ++ toString line ++ " column " ++ toString column ++
      " (char " ++ toString index ++ ")"
  | tooManyDigits count =>
    "Exceeds the limit (" ++ toString Number.digitLimit ++
      " digits) for integer string conversion: value has " ++ toString count ++
      " digits; use sys.set_int_max_str_digits() to increase the limit"
  | tooDeep => "maximum nesting depth exceeded"

/-- Whether the text breaks the grammar, rather than a limit. -/
def Error.isBroken : Error → Bool
  | broken _ _ _ _ => true
  | _ => false

end ReleaseTrain.Json
