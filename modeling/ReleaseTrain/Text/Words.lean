import ReleaseTrain.Text.Blank

/-!
# Words of a command line

A setting that is a list may also be written as one text, and then it is split as a shell splits a
command line.

* `Words.split`: the words of a text, or why it has none.
* `Words.quote`, `Words.join`: the way back, each word between single quotes.

## The rules

Words are separated by spaces, tabs and line ends.  Between single quotes every character stands
for itself.  Between double quotes a backslash takes its meaning away from a double quote or a
backslash and is itself kept before anything else.  Outside quotes a backslash makes the next
character part of the word.  Quoted and unquoted parts that touch are one word, so a pair of quotes
with nothing in between is a word without characters.
-/

namespace ReleaseTrain.Text.Words

/-- Why a text cannot be split. -/
inductive Unsplittable where
  /-- A quote is not closed. -/
  | unclosedQuote
  /-- A backslash has nothing after it. -/
  | danglingEscape
deriving DecidableEq, Repr

/-- The single quote. -/
abbrev singleQuote : Char := '\x27'

/-- The double quote. -/
abbrev doubleQuote : Char := '\x22'

/-- The backslash. -/
abbrev backslash : Char := '\x5c'

/-- Where the reader stands: between words, in a word outside quotes, in a part between quotes, or
right after a backslash, which may itself stand between quotes. -/
inductive Place where
  | gap
  | bare
  | quoted (quote : Char)
  | escaped (within : Option Char)
deriving DecidableEq, Repr

/-- What a character after a backslash adds to the word, the last character first.  Between double
quotes the backslash itself stays unless it precedes a double quote or a backslash. -/
def unescape (within : Option Char) (c : Char) (word : List Char) : List Char :=
  match within with
  | none => c :: word
  | some quote => if c = backslash ∨ c = quote then c :: word else c :: backslash :: word

/-- Reads on from a place, with the characters of the present word in reverse. -/
def scan : Place → List Char → List Char → Except Unsplittable (List (List Char))
  | .gap, _, [] => .ok []
  | .bare, word, [] => .ok [word.reverse]
  | .quoted _, _, [] => .error .unclosedQuote
  | .escaped _, _, [] => .error .danglingEscape
  | .gap, word, c :: rest =>
    if isWordSpace c then scan .gap word rest
    else if c = backslash then scan (.escaped none) [] rest
    else if c = singleQuote ∨ c = doubleQuote then scan (.quoted c) [] rest
    else scan .bare [c] rest
  | .bare, word, c :: rest =>
    if isWordSpace c then (scan .gap [] rest).map (word.reverse :: ·)
    else if c = backslash then scan (.escaped none) word rest
    else if c = singleQuote ∨ c = doubleQuote then scan (.quoted c) word rest
    else scan .bare (c :: word) rest
  | .quoted quote, word, c :: rest =>
    if c = quote then scan .bare word rest
    else if c = backslash ∧ quote = doubleQuote then scan (.escaped (some quote)) word rest
    else scan (.quoted quote) (c :: word) rest
  | .escaped within, word, c :: rest =>
    scan (within.elim .bare .quoted) (unescape within c word) rest

/-- The words of a text. -/
def split (text : String) : Except Unsplittable (List String) :=
  (scan .gap [] text.toList).map (·.map String.ofList)

/-- A character between single quotes; a single quote leaves them for a moment. -/
def quoteChar (c : Char) : List Char :=
  if c = singleQuote then [singleQuote, doubleQuote, singleQuote, doubleQuote, singleQuote]
  else [c]

/-- A word between single quotes. -/
def quote (word : String) : String :=
  String.ofList (singleQuote :: (word.toList.flatMap quoteChar ++ [singleQuote]))

/-- Words as one text from which `split` recovers them. -/
def join (words : List String) : String := " ".intercalate (words.map quote)

end ReleaseTrain.Text.Words
