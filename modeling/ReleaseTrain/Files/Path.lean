/-!
# Paths

A path is kept in parts, and its text is always the same for the same parts: repeated slashes and
single dots leave no trace, two dots stay.

* `Path.ofText`, `Path.text`: reading and writing; `Path.isTooLong`: which texts are too long.
* `Path.join`, `Path.below?`: a path below another one, and back.
* `Path.name`: the last part.
-/

namespace ReleaseTrain

/-- How a path starts.  Exactly two slashes are a start of their own. -/
inductive PathRoot where
  | relative
  | single
  | double
deriving DecidableEq, Repr

/-- A path: its start and its parts. -/
structure Path where
  root : PathRoot
  parts : List String
deriving DecidableEq, Repr

/-- The text before a path's parts. -/
def PathRoot.text : PathRoot → String
  | relative => ""
  | single => "/"
  | double => "//"

namespace Path

/-- The stretches between slashes. -/
def splitSlashes : List Char → List (List Char)
  | [] => [[]]
  | c :: rest =>
    match splitSlashes rest with
    | [] => [[c]]
    | part :: parts => if c = '/' then [] :: part :: parts else (c :: part) :: parts

/-- The parts that a text names. -/
def partsOf (cs : List Char) : List String :=
  ((splitSlashes cs).filter fun part => part ≠ [] ∧ part ≠ ['.']).map String.ofList

/-- The path that a text names. -/
def ofText (text : String) : Path :=
  let cs := text.toList
  let root :=
    match (cs.takeWhile (· = '/')).length with
    | 0 => .relative
    | 2 => .double
    | _ => .single
  ⟨root, partsOf cs⟩

/-- A path as text; the path without parts is a dot. -/
def text (p : Path) : String :=
  if p.root = .relative ∧ p.parts = [] then "."
  else p.root.text ++ "/".intercalate p.parts

/-- The shortest text, in bytes, that is too long for a path. -/
def textLimit : Nat := 4096

/-- Whether a path is too long to be looked at. -/
def isTooLong (p : Path) : Bool := textLimit ≤ p.text.utf8ByteSize

/-- Whether a path does not depend on a working directory. -/
def isAbsolute (p : Path) : Bool := p.root != .relative

/-- An absolute path from its parts. -/
def absolute (parts : List String) : Path := ⟨.single, parts⟩

/-- A path below a directory; an absolute path stands for itself. -/
def join (directory p : Path) : Path :=
  if p.isAbsolute then p else ⟨directory.root, directory.parts ++ p.parts⟩

/-- The last part of a path, or nothing if it has none. -/
def name (p : Path) : String := p.parts.getLast?.getD ""

/-- A list without a given beginning. -/
def dropBeginning? {α : Type} [DecidableEq α] : List α → List α → Option (List α)
  | [], rest => some rest
  | _ :: _, [] => none
  | a :: beginning, b :: rest => if a = b then dropBeginning? beginning rest else none

/-- The path as seen from a directory that contains it. -/
def below? (directory p : Path) : Option Path :=
  if p.root = directory.root then
    (dropBeginning? directory.parts p.parts).map fun parts => ⟨.relative, parts⟩
  else none

end Path

end ReleaseTrain
