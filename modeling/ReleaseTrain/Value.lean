import ReleaseTrain.Calendar
import ReleaseTrain.Number.Layout
import ReleaseTrain.Text.Basic

/-!
# Values

Settings files and the answers of cargo and of a registry hold values of any shape, and the program
reads what it needs out of them.  Texts and keys are a `Text` each, since an answer can hold half of
a surrogate pair.

* `Value`: the type; tables keep the order of their keys.
* `Value.isTruthy`: which values count as present.
* `Value.sentence`: a value as it appears in a sentence; `Value.literal`: as it appears inside
  another value.
* `Value.isWritable`: whether no number in a value is too long for that.
* `Value.height`: how deeply a value is nested.
* `Value.members?`: the members over which a value can be walked.
* `Entries`: keys with values in the order in which the keys first came.
-/

namespace ReleaseTrain

/-- Keys with values.  A key keeps the place where it first came, whatever is put there later. -/
abbrev Entries (κ α : Type) := List (κ × α)

namespace Entries

variable {κ α : Type} [BEq κ]

/-- Gives a key a value: in place if the key is there, at the end otherwise. -/
def put (key : κ) (value : α) : Entries κ α → Entries κ α
  | [] => [(key, value)]
  | (k, v) :: rest => if k == key then (k, value) :: rest else (k, v) :: put key value rest

/-- The value of a key. -/
def get? (key : κ) : Entries κ α → Option α
  | [] => none
  | (k, v) :: rest => if k == key then some v else get? key rest

/-- Puts one entry after another, so that the last value of a key stays. -/
def putAll (entries : Entries κ α) (more : Entries κ α) : Entries κ α :=
  more.foldl (fun found (k, v) => put k v found) entries

theorem get?_put_self [LawfulBEq κ] (key : κ) (value : α) (entries : Entries κ α) :
    get? key (put key value entries) = some value := by
  induction entries with
  | nil => simp [put, get?]
  | cons entry rest ih =>
    obtain ⟨k, v⟩ := entry
    by_cases h : k == key <;> simp [put, get?, h, ih]

theorem get?_put_of_ne [LawfulBEq κ] {key other : κ} (h : key ≠ other) (value : α)
    (entries : Entries κ α) : get? other (put key value entries) = get? other entries := by
  induction entries with
  | nil => simp [put, get?, h]
  | cons entry rest ih =>
    obtain ⟨k, v⟩ := entry
    by_cases hk : k == key
    · have : (k == other) = false := by simp_all
      simp [put, get?, hk, this]
    · by_cases ho : k == other <;> simp [put, get?, hk, ho, ih]

end Entries

/-- A value of a settings file or of an answer. -/
inductive Value where
  | null
  | bool (b : Bool)
  | number (n : Number)
  | text (t : Text)
  | list (items : List Value)
  | table (entries : List (Text × Value))
  | day (d : Day)
  | clock (t : Clock)
  | moment (m : Moment)
deriving Repr

namespace Value

/-- A whole number. -/
def whole (n : Int) : Value := .number (.whole n)

/-- What counts as present: everything but null, false, zero and what is empty. -/
def isTruthy : Value → Bool
  | null => false
  | bool b => b
  | number n => !n.isZero
  | text t => !t.isEmpty
  | list items => !items.isEmpty
  | table entries => !entries.isEmpty
  | day _ | clock _ | moment _ => true

mutual

/-- A value inside another value: texts are quoted, lists and tables are bracketed. -/
def literal : Value → String
  | null => "None"
  | bool b => if b then "True" else "False"
  | number n => n.text
  | text t => t.quoted
  | list items => "[" ++ ", ".intercalate (literals items) ++ "]"
  | table entries => "\x7b" ++ ", ".intercalate (entryLiterals entries) ++ "\x7d"
  | day d => d.literal
  | clock t => t.literal
  | moment m => m.literal

/-- The members of a list, each as a literal. -/
def literals : List Value → List String
  | [] => []
  | v :: rest => literal v :: literals rest

/-- The entries of a table, each as a literal. -/
def entryLiterals : List (Text × Value) → List String
  | [] => []
  | (k, v) :: rest => (k.quoted ++ ": " ++ literal v) :: entryLiterals rest

end

/-- A value in a sentence: a text as it is, a date or time in the form of the standard, anything
else as a literal. -/
def sentence : Value → String
  | text t => t.shown
  | day d => d.iso
  | clock t => t.iso
  | moment m => m.written " "
  | v => v.literal

mutual

/-- Whether a value holds no number that is too long to be written. -/
def isWritable : Value → Bool
  | number n => n.isWritable
  | list items => areWritable items
  | table entries => entriesAreWritable entries
  | _ => true

/-- Whether all members of a list can be written. -/
def areWritable : List Value → Bool
  | [] => true
  | v :: rest => isWritable v && areWritable rest

/-- Whether all entries of a table can be written. -/
def entriesAreWritable : List (Text × Value) → Bool
  | [] => true
  | (_, v) :: rest => isWritable v && entriesAreWritable rest

end

mutual

/-- How many lists and tables lie inside each other in a value. -/
def height : Value → Nat
  | list items => heights items + 1
  | table entries => entryHeights entries + 1
  | _ => 0

/-- How many lists and tables lie inside each other in the members of a list. -/
def heights : List Value → Nat
  | [] => 0
  | v :: rest => max (height v) (heights rest)

/-- How many lists and tables lie inside each other in the entries of a table. -/
def entryHeights : List (Text × Value) → Nat
  | [] => 0
  | (_, v) :: rest => max (height v) (entryHeights rest)

end

/-- The members of a value: those of a list, the keys of a table, the characters of a text.  Other
values have none. -/
def members? : Value → Option (List Value)
  | list items => some items
  | table entries => some (entries.map fun (k, _) => .text k)
  | text t => some (t.letters.map .text)
  | _ => none

/-- The entries of a table. -/
def entries? : Value → Option (List (Text × Value))
  | table entries => some entries
  | _ => none

end Value

end ReleaseTrain
