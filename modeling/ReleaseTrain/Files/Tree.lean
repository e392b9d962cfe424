import ReleaseTrain.Files.Path
import ReleaseTrain.Value

/-!
# A tree of files

The program only reads files, so the files it finds are a value: what stands at every place of the
tree.  Places are lists of names from the top.

* `Target`: where a symbolic link leads, with the slashes of its text.
* `FileTree.find`: the place and the entry that a path leads to, symbolic links included.
* `FileTree.isPresent`: whether a path leads anywhere.
* `FileTree.resolve`: a path without symbolic links and without double dots, also for paths that
  lead nowhere.
* `FileTree.decode?`: the text of a file.

## Two ways along a path

`find` goes the way the system goes: every name but the last must be a directory, and a path that
meets too many links fails.  `resolve` only straightens the path: a name that is missing stays, and
double dots take away the name before them whether or not it is there.  It gets stuck at a link
that it is following already.  A link can be reached along one absolute path and along one relative
path for every number of double dots at its start, which leads from the working directory upwards;
so the entries and the depth of the working directory bound how many links are followed at a time.
-/

namespace ReleaseTrain

/-- Where a link leads, as the stretches between the slashes of its text.  The text is kept as it
is, because slashes at its end and in a row may matter. -/
structure Target where
  stretches : List String

namespace Target

/-- The target that a text names. -/
def ofText (text : String) : Target := ⟨(Path.splitSlashes text.toList).map String.ofList⟩

/-- Whether a target does not depend on where its link stands. -/
def isAbsolute (t : Target) : Bool :=
  match t.stretches with
  | "" :: _ :: _ => true
  | _ => false

/-- The names along which a target leads.  A slash at the end asks for a directory, as a dot
does. -/
def names (t : Target) : List String :=
  t.stretches.filter (· ≠ "") ++ (if t.stretches.getLast? = some "" then ["."] else [])

end Target

/-- What stands at a place of a tree. -/
inductive Entry where
  | file (content : ByteArray)
  | directory
  | link (target : Target)

/-- A place of a tree, as the names that lead to it from the top. -/
abbrev Place := List String

/-- The entries of a tree below its top, which is a directory. -/
structure FileTree where
  entries : Entries Place Entry

/-- Why a path leads nowhere. -/
inductive Absence where
  | missing
  | notDirectory
  | tooManyLinks
  | nameTooLong
  | nullCharacter
deriving DecidableEq, Repr

namespace FileTree

/-- What stands at a place. -/
def entry? (tree : FileTree) (place : Place) : Option Entry :=
  if place.isEmpty then some .directory else tree.entries.get? place

/-- The tree with an entry at a place. -/
def insert (tree : FileTree) (place : Place) (entry : Entry) : FileTree :=
  ⟨tree.entries.put place entry⟩

/-- The longest name, in bytes. -/
def nameLimit : Nat := 255

/-- How many links a path may lead through. -/
def linkLimit : Nat := 40

/-- Where going along names without following links comes to an end. -/
inductive Halt where
  | arrived (place : Place) (entry : Entry)
  | absent (why : Absence)
  | atLink (directory : Place) (target : Target) (rest : List String)

/-- Goes along names from a place up to the first link.  A dot stays where it is, which must be a
directory. -/
def advance (tree : FileTree) (here : Place) : List String → Halt
  | [] =>
    match tree.entry? here with
    | some entry => .arrived here entry
    | none => .absent .missing
  | name :: rest =>
    match tree.entry? here with
    | some .directory =>
      if name = "." then advance tree here rest
      else if name = ".." then advance tree here.dropLast rest
      else if nameLimit < name.utf8ByteSize then .absent .nameTooLong
      else
        match tree.entry? (here ++ [name]) with
        | none => .absent .missing
        | some (.link target) => .atLink here target rest
        | some _ => advance tree (here ++ [name]) rest
    | _ => .absent .notDirectory

/-- The place at which a path starts. -/
def start (here : Place) (isAbsolute : Bool) : Place := if isAbsolute then [] else here

/-- Goes along names from a place, through a limited number of links. -/
def follow (tree : FileTree) : (links : Nat) → Place → List String → Except Absence (Place × Entry)
  | links, here, names =>
    match tree.advance here names with
    | .arrived place entry => .ok (place, entry)
    | .absent why => .error why
    | .atLink directory target rest =>
      match links with
      | 0 => .error .tooManyLinks
      | links + 1 =>
        follow tree links (start directory target.isAbsolute) (target.names ++ rest)

/-- Whether a path holds a character that no path may hold. -/
def hasNull (p : Path) : Bool := p.parts.any fun part => part.toList.contains '\x00'

/-- The place and the entry that a path leads to from a working directory. -/
def find (tree : FileTree) (here : Place) (p : Path) : Except Absence (Place × Entry) :=
  if hasNull p then .error .nullCharacter
  else if p.isTooLong then .error .nameTooLong
  else tree.follow linkLimit (start here p.isAbsolute) p.parts

/-- Whether a path leads anywhere.  A name that is too long is not a no, but a fault. -/
def isPresent (tree : FileTree) (here : Place) (p : Path) : Except Absence Bool :=
  match tree.find here p with
  | .ok _ => .ok true
  | .error .nameTooLong => .error .nameTooLong
  | .error _ => .ok false

/-- Names without double dots: each takes away the name before it. -/
def flatten (names : List String) : Place :=
  names.foldl (fun place name => if name = ".." then place.dropLast else place ++ [name]) []

/-- The place of a path that leads through no link. -/
def placeOf (here : Place) (p : Path) : Place :=
  if p.isAbsolute then p.parts else flatten (here ++ p.parts)

/-- The link that a path leads to, if it is short enough to be looked at. -/
def linkAt? (tree : FileTree) (here : Place) (p : Path) : Option Target :=
  match tree.entry? (placeOf here p) with
  | some (.link target) => if p.isTooLong then none else some target
  | _ => none

/-- The path to the directory above. -/
def above (p : Path) : Path :=
  match p.parts.getLast?, p.isAbsolute with
  | none, true => p
  | none, false | some "..", false => ⟨p.root, p.parts ++ [".."]⟩
  | some _, _ => ⟨p.root, p.parts.dropLast⟩

/-- Goes along the stretches after a path, `jump` being where a link leads.  A link that leads
nowhere ends the way with what remains, and what remains after two slashes is an absolute path. -/
def straighten (tree : FileTree) (here : Place) (jump : Path → Target → Except Path Path)
    (reached : Path) : List String → Except Path Path
  | [] => .ok reached
  | name :: rest =>
    if name = "" ∨ name = "." then straighten tree here jump reached rest
    else if name = ".." then straighten tree here jump (above reached) rest
    else
      let next : Path := ⟨reached.root, reached.parts ++ [name]⟩
      match tree.linkAt? here next with
      | some target =>
        match jump next target with
        | .ok there => straighten tree here jump there rest
        | .error stuck => .error (stuck.join (Path.ofText ("/".intercalate rest)))
      | none => straighten tree here jump next rest

/-- Where a link leads, given the links that are being followed. -/
def destination (tree : FileTree) (here : Place) : (depth : Nat) → (followed : List Path) →
    Path → Target → Except Path Path
  | 0, _, link, _ => .error link
  | depth + 1, followed, link, target =>
    if followed.contains link then .error link
    else
      let start := if target.isAbsolute then Path.absolute [] else ⟨link.root, link.parts.dropLast⟩
      tree.straighten here (destination tree here depth (link :: followed)) start target.stretches

/-- Why a path cannot be resolved. -/
inductive Unresolvable where
  /-- A link leads back to itself. -/
  | loop (path : Path)
  | nullCharacter
deriving DecidableEq, Repr

/-- The absolute path of a path that leads through no link. -/
def anchored (here : Place) (p : Path) : Path :=
  ⟨if p.isAbsolute then p.root else .single, flatten (placeOf here p)⟩

/-- A path without links and double dots.  If a link leads back to itself, what remains is accepted
unless the system would meet such a link again. -/
def resolve (tree : FileTree) (here : Place) (p : Path) : Except Unresolvable Path :=
  if hasNull p then .error .nullCharacter
  else
    let start : Path := if p.isAbsolute then Path.absolute [] else ⟨.relative, []⟩
    let depth := (here.length + 2) * tree.entries.length + 1
    match tree.straighten here (tree.destination here depth []) start p.parts with
    | .ok reached => .ok (anchored here reached)
    | .error stuck =>
      let path := anchored here stuck
      match tree.find [] path with
      | .error .tooManyLinks => .error (.loop path)
      | _ => .ok path

/-- A text with line feeds for all line ends. -/
def plainLines : List Char → List Char
  | '\r' :: '\n' :: rest => '\n' :: plainLines rest
  | '\r' :: rest => '\n' :: plainLines rest
  | c :: rest => c :: plainLines rest
  | [] => []

/-- The text that the bytes of a file stand for, if they are text at all. -/
def decode? (content : ByteArray) : Option String :=
  (String.fromUTF8? content).map fun text => String.ofList (plainLines text.toList)

end FileTree

end ReleaseTrain
