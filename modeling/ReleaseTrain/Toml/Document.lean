import ReleaseTrain.Toml.Tree

/-!
# Settings files

`Toml.parse` reads a whole settings file as a table.  Lines end in a line feed; whoever reads the
file has turned other line ends into line feeds.

* `value`: a value, with the arrays and inline tables inside it.
* `lines`: a file as pairs and headers.
* `Section.additions`: what the sections that stand below one header add to its table.

## Sections

A header opens a section, which holds the pairs up to the next header.  The sections that follow and
whose headers are longer than its own and start with it belong to it as well, so that they are read
as parts of its table and not of the tables around it.

Sections with the same header of one name, `[[a]]`, that come one after another add the elements of
one array.  Below each of them but the first, `[[a.a.b]]` adds an element to the `a` inside if there
is one already, and otherwise leads through a table as any header does.

## Why it ends

Arrays and inline tables call for the values inside them with a smaller depth, the limit on
nesting.  Along them, and from line to line, every step takes at least one character off the text.
Sections are read by their number.
-/

namespace ReleaseTrain.Toml

/-- Space and tab. -/
def isBlank (c : Char) : Bool := c == ' ' || c == '\t'

/-- The rest of a text after spaces and tabs. -/
def skipBlank (cs : List Char) : List Char := cs.dropWhile isBlank

/-- The characters of a key without quotes. -/
def isBareKey (c : Char) : Bool := c.isAlphanum || c == '-' || c == '_'

/-- One part of a key. -/
def keyPart (cs : List Char) : Reading Text :=
  match cs with
  | '\x22' :: rest => Literal.basic [] (rest.length + 1) rest
  | '\x27' :: rest => Literal.plain [] rest
  | _ =>
    let bare := cs.takeWhile isBareKey
    if bare.isEmpty then .error .unexpected
    else .ok (.whole (String.ofList bare), cs.dropWhile isBareKey)

/-- The parts of a key, with points between and blanks around the points. -/
def keyParts : (fuel : Nat) → List Char → Reading (List Text)
  | 0, _ => .error .unexpected
  | fuel + 1, cs =>
    match keyPart (skipBlank cs) with
    | .error fault => .error fault
    | .ok (part, rest) =>
      match skipBlank rest with
      | '.' :: rest => (keyParts fuel rest).map fun (parts, rest) => (part :: parts, rest)
      | rest => .ok ([part], rest)

/-- A key, which must not have too many parts. -/
def key (cs : List Char) : Reading (List Text) :=
  match keyParts (cs.length + 1) cs with
  | .error fault => .error fault
  | .ok (parts, rest) => if keyLimit < parts.length then .error .tooDeep else .ok (parts, rest)

/-- The rest of a text after a comment, up to the end of its line. -/
def skipComment (cs : List Char) : Except Fault (List Char) :=
  if (cs.takeWhile (· ≠ '\n')).any Literal.isForbidden then .error .badText
  else .ok (cs.dropWhile (· ≠ '\n'))

/-- The rest of a text after blanks, line ends and comments. -/
def skipLines : (fuel : Nat) → List Char → Except Fault (List Char)
  | 0, _ => .error .unexpected
  | fuel + 1, cs =>
    match cs.dropWhile fun c => isBlank c || c == '\n' with
    | '#' :: rest =>
      match skipComment rest with
      | .error fault => .error fault
      | .ok rest => skipLines fuel rest
    | rest => .ok rest

/-- What ends a token. -/
def endsToken (c : Char) : Bool := [' ', '\t', '\n', '\r', '#', ',', ']', '\x7d'].contains c

/-- A number, a date or a time.  A space may separate the time from its day, so after a day the
line is searched for a time as well. -/
def scalar (cs : List Char) : Reading Value :=
  let token := cs.takeWhile (!endsToken ·)
  let rest := cs.dropWhile (!endsToken ·)
  match Literal.wholeDay? token with
  | none =>
    match Literal.scalar? token with
    | none => .error .badScalar
    | some v => .ok (v, rest)
  | some day =>
    let inLine := fun c => c == ' ' || !endsToken c
    let tail := (rest.takeWhile inLine).reverse.dropWhile Text.isSpace
    if tail.isEmpty then .ok (.day day, rest.dropWhile inLine)
    else
      match Literal.moment? (token ++ tail.reverse) with
      | none => .error .badScalar
      | some moment => .ok (.moment moment, rest.dropWhile inLine)

/-- A word at the head of a text that stands for a truth value. -/
def truth (word : String) (v : Bool) (cs : List Char) : Reading Value :=
  if word.toList.isPrefixOf cs then .ok (.bool v, cs.drop word.length) else .error .unexpected

/-- A value that is neither an array nor an inline table. -/
def simple (cs : List Char) : Reading Value :=
  match cs with
  | [] => .error .unexpected
  | '\x22' :: _ | '\x27' :: _ => (Literal.text cs).map fun (t, rest) => (.text t, rest)
  | 't' :: _ => truth "true" true cs
  | 'f' :: _ => truth "false" false cs
  | c :: _ =>
    let word := String.ofList (cs.takeWhile (!endsToken ·))
    if c = '+' ∨ c = '-' ∨ c.isDigit ∨ word = "inf" ∨ word = "nan" then scalar cs
    else .error .unexpected

/-- The elements of an array, up to its closing bracket. -/
def elements (item : List Char → Reading Value) (read : List Value) :
    (fuel : Nat) → List Char → Reading Value
  | 0, _ => .error .unexpected
  | fuel + 1, cs =>
    match skipLines (cs.length + 1) cs with
    | .error fault => .error fault
    | .ok (']' :: rest) => .ok (.list read.reverse, rest)
    | .ok cs =>
      match item cs with
      | .error fault => .error fault
      | .ok (v, rest) =>
        match skipLines (rest.length + 1) rest with
        | .error fault => .error fault
        | .ok (',' :: rest) => elements item (v :: read) fuel rest
        | .ok (']' :: rest) => .ok (.list (v :: read).reverse, rest)
        | .ok _ => .error .unexpected

/-- What a key leads to, and the value there. -/
abbrev Pair := List Text × Value

/-- A key, an equals sign and a value. -/
def pair (item : List Char → Reading Value) (cs : List Char) : Reading Pair :=
  match key cs with
  | .error fault => .error fault
  | .ok (path, rest) =>
    match skipBlank rest with
    | '=' :: rest => (item (skipBlank rest)).map fun (v, rest) => ((path, v), rest)
    | _ => .error .unexpected

/-- A node at the end of a path of keys, with tables of one origin on the way. -/
def along (origin : Origin) (node : Node) : (path : List Text) → Table
  | [] => []
  | [key] => [(key, node)]
  | key :: path => [(key, .table origin (along origin node path) none)]

/-- What pairs add to the table in which they stand. -/
def addedByPairs (pairs : List Pair) : Table :=
  pairs.flatMap fun (path, v) => along .dotted (.value v) path

/-- The pairs of an inline table as a value. -/
def inlineTable (pairs : List Pair) : Except Fault Value := do
  let table ← Table.collect (addedByPairs pairs)
  let entries ← table.plain
  .ok (.table entries)

/-- The pairs of an inline table, up to its closing brace. -/
def pairs (item : List Char → Reading Value) (read : List Pair) :
    (fuel : Nat) → List Char → Reading Value
  | 0, _ => .error .unexpected
  | fuel + 1, cs =>
    match skipLines (cs.length + 1) cs with
    | .error fault => .error fault
    | .ok ('\x7d' :: rest) => (inlineTable read.reverse).map fun v => (v, rest)
    | .ok cs =>
      match pair item cs with
      | .error fault => .error fault
      | .ok (found, rest) =>
        match skipLines (rest.length + 1) rest with
        | .error fault => .error fault
        | .ok (',' :: rest) => pairs item (found :: read) fuel rest
        | .ok ('\x7d' :: rest) => (inlineTable (found :: read).reverse).map fun v => (v, rest)
        | .ok _ => .error .unexpected

/-- A value, with at most `depth` arrays and inline tables around each other. -/
def value : (depth : Nat) → List Char → Reading Value
  | 0, '[' :: _ => .error .tooDeep
  | 0, '\x7b' :: _ => .error .tooDeep
  | depth + 1, '[' :: rest => elements (value depth) [] (rest.length + 1) rest
  | depth + 1, '\x7b' :: rest => pairs (value depth) [] (rest.length + 1) rest
  | _, cs => simple cs

/-- How many arrays and inline tables may stand inside each other. -/
def depthLimit : Nat := 100

/-- The rest of a text after what may follow on a line that is complete. -/
def endOfLine (cs : List Char) : Except Fault (List Char) :=
  match skipBlank cs with
  | [] => .ok []
  | '\n' :: rest => .ok rest
  | '#' :: rest => skipComment rest
  | _ => .error .unexpected

/-- A line of a settings file. -/
inductive Line where
  | pair (found : Pair)
  | header (isElement : Bool) (path : List Text)

/-- One line that is not empty. -/
def line (cs : List Char) : Reading Line :=
  match cs with
  | '[' :: '[' :: rest =>
    match key rest with
    | .ok (path, ']' :: ']' :: rest) => .ok (.header true path, rest)
    | .ok _ => .error .unexpected
    | .error fault => .error fault
  | '[' :: rest =>
    match key rest with
    | .ok (path, ']' :: rest) => .ok (.header false path, rest)
    | .ok _ => .error .unexpected
    | .error fault => .error fault
  | _ => (pair (value depthLimit) cs).map fun (found, rest) => (.pair found, rest)

/-- All lines of a settings file. -/
def lines : (fuel : Nat) → List Char → Except Fault (List Line)
  | 0, _ => .error .unexpected
  | fuel + 1, cs =>
    match skipLines (cs.length + 1) cs with
    | .error fault => .error fault
    | .ok [] => .ok []
    | .ok cs =>
      match line cs with
      | .error fault => .error fault
      | .ok (first, rest) =>
        match endOfLine rest with
        | .error fault => .error fault
        | .ok rest => (lines fuel rest).map (first :: ·)

/-- A header with the pairs up to the next header. -/
structure Section where
  /-- Whether the header opens an element of an array of tables. -/
  isElement : Bool
  path : List Text
  pairs : List Pair

namespace Section

/-- The pairs before the first header, and the sections. -/
def ofLines : List Line → List Pair × List Section
  | [] => ([], [])
  | .pair found :: rest =>
    let (pairs, sections) := ofLines rest
    (found :: pairs, sections)
  | .header isElement path :: rest =>
    let (pairs, sections) := ofLines rest
    ([], ⟨isElement, path, pairs⟩ :: sections)

/-- Whether the header of a section is longer than a path and starts with it. -/
def isBelow (path : List Text) (s : Section) : Bool := path.isPrefixOf s.path && s.path != path

/-- The name of the array of tables to which a section at the top of a file adds an element. -/
def arrayName? (s : Section) : Option Text :=
  match s.isElement, s.path with
  | true, [name] => some name
  | _, _ => none

/-- What the node that a section makes adds to the table around it, which lies at the given depth.
If that table lies below a further element of `array`, then the way to an element may start with an
element of the array of that name inside. -/
def adds (depth : Nat) (array : Option Text) (node : Node) (s : Section) : Table :=
  match s.path.drop depth with
  | key :: next :: path =>
    let way := if s.isElement ∧ array = some key then Origin.element else .passage
    [(key, .table way (along .passage node (next :: path)) none)]
  | path => along .passage node path

/-- What sections add to the table around them, which lies at the given depth: below a further
element of `array`, if there is one, and right after a section that added an element to the array
`before`, if there is one. -/
def additions (depth : Nat) (array before : Option Text) :
    List Section → Except Fault Table
  | [] => .ok []
  | first :: rest => do
    let name := first.arrayName?
    let inside := if name.isSome ∧ name = before then name else array
    let below ← additions first.path.length inside none (rest.takeWhile (isBelow first.path))
    let table ← Table.ofSection (addedByPairs first.pairs ++ below)
    let node := if first.isElement then .tables [table] else .table .header table none
    let after ← additions depth array name (rest.dropWhile (isBelow first.path))
    .ok (first.adds depth array node ++ after)
termination_by sections => sections.length
decreasing_by
  · have := (List.takeWhile_prefix (isBelow first.path) (l := rest)).length_le
    simp only [List.length_cons]
    omega
  · have := (List.dropWhile_suffix (isBelow first.path) (l := rest)).length_le
    simp only [List.length_cons]
    omega

end Section

/-- A fault that is met when something is added at the top of a file.  What is too high there is
taken for a fault of the file. -/
def faultAtTop : Fault → Fault
  | .tooHigh => .tooDeep
  | fault => fault

/-- Reads a settings file as a table. -/
def parse (text : String) : Except Fault Table := do
  let found ← lines (text.length + 1) text.toList
  let (pairs, sections) := Section.ofLines found
  let below ← Section.additions 0 none none sections
  (Table.collect (addedByPairs pairs ++ below)).mapError faultAtTop

end ReleaseTrain.Toml
