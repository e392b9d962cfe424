import ReleaseTrain.Value

/-!
# Writing JSON documents

`Json.write` gives a value as a document without blanks.  The format has no days and times, so they
are written as texts in the form of the standard; infinite numbers and what is not a number are
written as the words that `Json.parse` accepts for them.
-/

namespace ReleaseTrain.Json

/-- A character within a text.  Quotes, backslashes and controls are escaped. -/
def writeChar (c : Char) : List Char :=
  if c = '\x22' ∨ c = '\x5c' then ['\x5c', c]
  else if c.toNat < 0x20 then
    '\x5c' :: 'u' :: (List.replicate (if c.toNat < 0x10 then 3 else 2) '0' ++
      Nat.toDigits 16 c.toNat)
  else [c]

/-- A code point within a text.  One that is no character can only be written as an escape. -/
def writePoint (point : Nat) : List Char :=
  if point.isValidChar then writeChar (Char.ofNat point)
  else '\x5c' :: 'u' :: Nat.toDigits 16 point

/-- A text between quotes. -/
def writeText (text : Text) : String :=
  let inside :=
    match text with
    | .whole s => s.toList.flatMap writeChar
    | .torn points => points.flatMap writePoint
  String.ofList ('\x22' :: (inside ++ ['\x22']))

/-- A number. -/
def writeNumber : Number → String
  | .binary .nan => "NaN"
  | .binary (.infinite negative) => if negative then "-Infinity" else "Infinity"
  | n => n.text

mutual

/-- A value as a document. -/
def write : Value → String
  | .null => "null"
  | .bool b => if b then "true" else "false"
  | .number n => writeNumber n
  | .text t => writeText t
  | .list items => "[" ++ ",".intercalate (writeItems items) ++ "]"
  | .table entries => "\x7b" ++ ",".intercalate (writeEntries entries) ++ "\x7d"
  | .day d => writeText d.iso
  | .clock t => writeText t.iso
  | .moment m => writeText m.iso

/-- The members of a list, each as a document. -/
def writeItems : List Value → List String
  | [] => []
  | v :: rest => write v :: writeItems rest

/-- The entries of a table, each with its key. -/
def writeEntries : List (Text × Value) → List String
  | [] => []
  | (k, v) :: rest => (writeText k ++ ":" ++ write v) :: writeEntries rest

end

end ReleaseTrain.Json
