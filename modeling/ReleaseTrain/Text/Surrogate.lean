/-!
# Surrogates

A character beyond the first 65536 is written in some formats as a pair of code units, the
surrogates.  Half of a pair that stands alone is no character.

* `Surrogate.isLeading`, `Surrogate.isTrailing`: the two halves of a pair.
* `Surrogate.pair`: the code point of a pair.

The code points that are not characters are exactly the halves and what is beyond the last
character, so `pair` always gives a character (`isValidChar_pair`).
-/

namespace ReleaseTrain.Text.Surrogate

/-- The first of two code units that together stand for one character. -/
def isLeading (unit : Nat) : Bool := 0xd800 ≤ unit && unit < 0xdc00

/-- The second of two code units that together stand for one character. -/
def isTrailing (unit : Nat) : Bool := 0xdc00 ≤ unit && unit < 0xe000

/-- The code point of a pair of code units. -/
def pair (first second : Nat) : Nat := 0x10000 + (first - 0xd800) * 0x400 + (second - 0xdc00)

theorem isValidChar_pair {first second : Nat} (leads : isLeading first)
    (trails : isTrailing second) : (pair first second).isValidChar := by
  simp only [isLeading, isTrailing, Bool.and_eq_true, decide_eq_true_eq] at leads trails
  refine Or.inr ⟨?_, ?_⟩ <;> unfold pair <;> omega

end ReleaseTrain.Text.Surrogate
