import ReleaseTrain.Text.Quoted

/-!
# Texts of documents

Most texts are rows of characters.  A document may also hold a text with a code point that is no
character, half of a surrogate pair that stands alone, and then no row of characters equals it.

* `Text`: either of the two; a `String` counts as a text.
* `Text.ofPoints`: a text from its code points.
* `Text.quoted`: a text between quotes; `Text.shown`: a text as a row of characters.
* `Text.letters`: the texts of one code point that make up a text.
-/

namespace ReleaseTrain

/-- A text of a document. -/
inductive Text where
  /-- A row of characters. -/
  | whole (s : String)
  /-- A row of code points not all of which are characters. -/
  | torn (points : List Nat)
deriving DecidableEq, Repr

namespace Text

instance : Coe String Text := ⟨whole⟩

/-- A text from its code points. -/
def ofPoints (points : List Nat) : Text :=
  if points.all fun point => point.isValidChar then whole (String.ofList (points.map Char.ofNat))
  else torn points

/-- Whether a text has no code points. -/
def isEmpty : Text → Bool
  | whole s => s.isEmpty
  | torn points => points.isEmpty

/-- A text between quotes. -/
def quoted : Text → String
  | whole s => Quoted.quote s
  | torn points => Quoted.quotePoints points

/-- A text as a row of characters, in which a mark stands for what is no character. -/
def shown : Text → String
  | whole s => s
  | torn points =>
    String.ofList (points.map fun point =>
      if point.isValidChar then Char.ofNat point else '\ufffd')

/-- The texts of one code point that make up a text. -/
def letters : Text → List Text
  | whole s => s.toList.map fun c => whole (String.singleton c)
  | torn points => points.map fun point => ofPoints [point]

end Text

end ReleaseTrain
