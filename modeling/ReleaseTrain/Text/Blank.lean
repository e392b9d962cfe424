/-!
# Blank characters

What counts as blank depends on who reads.  Three sets are in use, and each has its name.

* `isSpace`: white space in the sense of Unicode, with the four separator controls of ASCII; it is
  removed around the value of an environment variable.
* `isNumberSpace`: the same without the separator controls; it is removed around a number.
* `isWordSpace`: space, tab, carriage return and line feed; it separates the words of a command.
-/

namespace ReleaseTrain.Text

/-- White space beyond ASCII. -/
def wideSpaces : List Nat :=
  [0x85, 0xa0, 0x1680, 0x2000, 0x2001, 0x2002, 0x2003, 0x2004, 0x2005, 0x2006, 0x2007, 0x2008,
   0x2009, 0x200a, 0x2028, 0x2029, 0x202f, 0x205f, 0x3000]

/-- White space around a number: space, tab, the line controls, and white space beyond ASCII. -/
def isNumberSpace (c : Char) : Bool :=
  c.toNat == 0x20 || (0x09 ≤ c.toNat && c.toNat ≤ 0x0d) || wideSpaces.contains c.toNat

/-- White space of any kind, the separator controls of ASCII among it. -/
def isSpace (c : Char) : Bool :=
  isNumberSpace c || (0x1c ≤ c.toNat && c.toNat ≤ 0x1f)

/-- What separates the words of a command line. -/
def isWordSpace (c : Char) : Bool :=
  c == ' ' || c == '\t' || c == '\r' || c == '\n'

/-- A text without the characters of a kind at its two ends. -/
def trim (blank : Char → Bool) (cs : List Char) : List Char :=
  ((cs.dropWhile blank).reverse.dropWhile blank).reverse

end ReleaseTrain.Text
