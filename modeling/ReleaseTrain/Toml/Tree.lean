import ReleaseTrain.Toml.Literal

/-!
# The tables of a settings file

A settings file names its tables piece by piece, and what stands under one key may come in several
parts that stand apart: with the headers `[a.b]`, `[c]` and `[a.d]` the table `a` has two.  While
a file is read the parts are kept in their order, and every table remembers how it came about.

* `Node`: one part, which is a value, a table with its origin, or an array of tables.
* `Origin.admits`: which tables may be continued by which.
* `Table.isBeside`: whether the entries of a part may stand beside those of the part before it.
* `Table.addPart`: adds a part under a key; `Table.settle` compares parts that stand apart.
* `Table.collect`, `Table.ofSection`: a table from the parts that stand below it.
* `Table.field?`: what stands under a key, with its parts put together.
* `Node.plain`, `Table.plain`: the finished values.

## What may follow under a key

A value is closed, an inline table included.  An array of tables grows by further elements, and
what has no header of its own goes into its last element.  A table is continued as its origin and
that of the new part allow.  If both only lie on the way to longer headers and no other table came
in between, then the new part does not stand apart: its entries go into the earlier part.  A part
that is an element goes to the end of an array of tables, and if a table is there, it becomes the
element before it.

## What parts that stand apart must agree on

If one of two neighbouring parts has a header of its own and the other has not, then the later one
must fit beside the earlier one all the way down (`Table.isBeside`).

Besides, all parts of a table agree if one table can take up their entries.  This table is their
ledger: the entries of the parts are added to it part by part, and after each part the keys of the
ledger that are in several parts themselves must agree in the same way.  A part that was compared
keeps the ledger of the parts up to it, so the next part only adds to that.  What goes into a part
later, because no other table came in between, is not compared again.

Parts are compared when one is added at the top of a file or to a part that is there already, when
a section ends, and when parts are put together.

## Why it ends

Below a key the tables are less high than around it, so the height of a table bounds the steps from
one ledger to the ledgers inside it.  Keys have a limited number of parts, and with it the height
of what a file adds to a table is limited too: by a header, and by a dotted key below it.
-/

namespace ReleaseTrain.Toml

/-- How many parts a key may have. -/
def keyLimit : Nat := 100

/-- A height that no table of a file reaches. -/
def heightLimit : Nat := 2 * keyLimit + 4

/-- How high a table may be to be recorded in a ledger.  One that takes in further entries where it
stands has to be lower. -/
def recordLimit : Nat := 75

/-- How a table came about. -/
inductive Origin where
  /-- By its own header. -/
  | header
  /-- On the way to a longer header. -/
  | passage
  /-- By a dotted key. -/
  | dotted
  /-- On the way to a longer header, as an element if its key is there already. -/
  | element
deriving DecidableEq, Repr

namespace Origin

/-- Whether a table only lies on the way to longer headers. -/
def isPassed : Origin → Bool
  | passage | element => true
  | header | dotted => false

/-- Whether a table may be continued by a part of another origin: a header of its own comes first,
unless the table only lay on the way to longer headers. -/
def admits (before later : Origin) : Bool := later != header || before.isPassed

end Origin

/-- One part of what a settings file holds under a key.  A table that was compared with other parts
keeps the ledger of the parts up to it. -/
inductive Node where
  | value (v : Value)
  | table (origin : Origin) (entries : List (Text × Node)) (ledger : Option (List (Text × Node)))
  | tables (elements : List (List (Text × Node)))

/-- What a table that is being read holds.  A key comes once for every part that stands apart. -/
abbrev Table := List (Text × Node)

namespace Node

/-- What a part adds to the table that it is a part of. -/
def entries : Node → Table
  | .table _ entries _ => entries
  | _ => []

/-- A part that has not been compared yet. -/
def fresh : Node → Node
  | .table origin entries _ => .table origin entries none
  | node => node

/-- A part that was compared, with the ledger of the parts up to it. -/
def enter (ledger : Table) : Node → Node
  | .table origin entries _ => .table origin entries (some ledger)
  | node => node

/-- The ledger of the parts up to this one, if it was compared. -/
def ledger? : Node → Option Table
  | .table _ _ ledger => ledger
  | _ => none

end Node

/-! ## Heights -/

mutual

/-- How many tables lie inside each other in a node. -/
def Node.height : Node → Nat
  | .value _ => 0
  | .table _ entries _ => Table.height entries + 1
  | .tables elements => Table.heights elements + 1

/-- How many tables lie inside each other in the entries of a table. -/
def Table.height : List (Text × Node) → Nat
  | [] => 0
  | (_, node) :: rest => max node.height (Table.height rest)

/-- How many tables lie inside each other in the elements of an array. -/
def Table.heights : List (List (Text × Node)) → Nat
  | [] => 0
  | entries :: rest => max (Table.height entries) (Table.heights rest)

end

/-! ## Adding parts -/

namespace Table

/-- The parts under a key. -/
def parts (key : Text) (table : Table) : List Node :=
  (table.filter fun entry => entry.1 == key).map Prod.snd

/-- The keys in the order in which they first came. -/
def keys (table : Table) : List Text := (table.map Prod.fst).eraseDups

/-- Puts a node in the place of the last part under its key. -/
def setLast (key : Text) (node : Node) (table : Table) : Table :=
  (Entries.put key node table.reverse).reverse

/-- Puts a node in the place of the first part under its key and takes the others away. -/
def setOnly (key : Text) (node : Node) (table : Table) : Table :=
  let others := fun (entry : Text × Node) => entry.1 != key
  table.takeWhile others ++ (key, node) :: ((table.dropWhile others).drop 1).filter others

/-- Puts nodes one after another in the places of the parts under a key. -/
def setParts (key : Text) : List Node → Table → Table
  | node :: nodes, (other, held) :: rest =>
    if other == key then (other, node) :: setParts key nodes rest
    else (other, held) :: setParts key (node :: nodes) rest
  | _, table => table

/-- Puts a part after all others. -/
def setApart (key : Text) (node : Node) (table : Table) : Table := table ++ [(key, node.fresh)]

/-- Whether the last table that was added stands under a key. -/
def endsIn (key : Text) (table : Table) : Bool :=
  let isTable := fun (entry : Text × Node) =>
    match entry.2 with
    | .table _ _ _ => true
    | _ => false
  (table.reverse.find? isTable).any fun entry => entry.1 == key

end Table

mutual

/-- Whether a node of a later part may stand under a key where the part before it has another.  A
header comes once, and a dotted key does not lead into what a header has opened. -/
def Node.isBeside (earlier : Node) : Node → Bool
  | .value _ => false
  | .tables _ =>
    match earlier with
    | .value _ => false
    | _ => true
  | .table origin entries _ =>
    match earlier with
    | .value _ => false
    | .tables _ => origin.isPassed
    | .table before held _ =>
      before.admits origin && !(before == .header && origin == .dotted) &&
        Table.isBeside held entries

/-- Whether the entries of a later part may stand beside those of the part before it.  Only arrays
come beside what is in several parts already. -/
def Table.isBeside (held : Table) : List (Text × Node) → Bool
  | [] => true
  | (key, node) :: rest =>
    (match held.parts key, node with
      | [], _ => true
      | [earlier], _ => Node.isBeside earlier node
      | _, .tables _ => true
      | _, _ => false) &&
    Table.isBeside held rest

end

namespace Table

/-- The ledger after a part that was not compared before.  By the given way to add one, its entries
are added to the ledger of the parts before it, and by the given way to settle keys, their keys are
settled then. -/
def record (add : Text → Node → Table → Except Fault Table)
    (settle : List Text → Table → Except Fault Table) (ledger : Table) (part : Node) :
    Except Fault Table :=
  if recordLimit < height part.entries then .error .tooHigh
  else do
    let ledger ← part.entries.foldlM (fun ledger (key, node) => add key node ledger) ledger
    settle part.entries.keys ledger

/-- Compares the parts under a key: their ledger must be able to take up all of them, and after each
of them it must be settled itself. -/
def settleKey (add : Text → Node → Table → Except Fault Table)
    (settle : List Text → Table → Except Fault Table) (key : Text) (table : Table) :
    Except Fault Table :=
  match table.parts key with
  | [] | [_] => .ok table
  | parts => do
    let (compared, _) ← parts.foldlM (fun (compared, ledger) part => do
      let ledger ←
        match part.ledger? with
        | some ledger => .ok ledger
        | none => record add settle ledger part
      .ok (part.enter ledger :: compared, ledger)) ([], [])
    .ok (setParts key compared.reverse table)

/-- Lays a part beside those that are there already, without comparing it.  Only a table can be
continued, and arrays of tables become one. -/
def lay (table : Table) : Text × Node → Except Fault Table
  | (key, node) =>
    match table.parts key, node with
    | [.tables elements], .tables more => .ok (setLast key (.tables (elements ++ more)) table)
    | earlier, _ =>
      match earlier.getLast? with
      | none | some (.table _ _ _) => .ok (setApart key node table)
      | some _ => .error (.redefined key)

/-- The table that parts make together, the keys of which are settled in the given way. -/
def joinedBy (settle : List Text → Table → Except Fault Table) (parts : List Node) :
    Except Fault Table := do
  let table ← (parts.flatMap Node.entries).foldlM lay []
  settle table.keys table

/-- Makes sure that the parts under a key can be put together. -/
def reach (settle : List Text → Table → Except Fault Table) (key : Text) (table : Table) :
    Except Fault Unit :=
  match table.parts key with
  | [] | [_] => .ok ()
  | parts => do
    let _ ← joinedBy settle parts
    .ok ()

mutual

/-- Adds a part under a key, which lies at most `depth` tables high.  Where it is checked, parts
that stand apart are compared. -/
def addPart : (depth : Nat) → (isChecked : Bool) → (key : Text) → Node → Table →
    Except Fault Table
  | 0, _, _, _, _ => .error .tooHigh
  | depth + 1, isChecked, key, node, table =>
    match (table.parts key).getLast?, node with
    | none, _ => .ok (setApart key node table)
    | some (.tables elements), .tables more =>
      .ok (setLast key (.tables (elements ++ more)) table)
    | some (.tables elements), .table .element more _ =>
      .ok (setLast key (.tables (elements ++ [more])) table)
    | some (.table _ held _), .table .element more _ =>
      .ok (setOnly key (.tables [held, more]) table)
    | some (.tables elements), .table later more _ =>
      if later = .header then .error (.redefined key)
      else do
        let last ← more.foldlM (fun last (key, node) => addPart depth isChecked key node last)
          (elements.getLast?.getD [])
        .ok (setLast key (.tables (elements.dropLast ++ [last])) table)
    | some (.table origin held ledger), .table later more _ =>
      if origin.isPassed ∧ later = .passage ∧ endsIn key table then
        if recordLimit ≤ height held then .error .tooHigh
        else do
          let held ← more.foldlM (fun held (key, node) => do
            let held ← addPart depth true key node held
            reach (settle depth) key held
            .ok held) held
          .ok (setLast key (.table origin held ledger) table)
      else if origin.admits later &&
          ((origin == .header) == (later == .header) || isBeside held more) then
        let table := setApart key node table
        if isChecked then settleKey (addPart depth false) (settle depth) key table else .ok table
      else .error (.redefined key)
    | _, _ => .error (.redefined key)

/-- Compares the parts that stand apart under some of the keys of a table, which is at most `depth`
tables high. -/
def settle : (depth : Nat) → (keys : List Text) → Table → Except Fault Table
  | 0, _, _ => .error .tooHigh
  | depth + 1, keys, table =>
    keys.foldlM (fun table key => settleKey (addPart depth false) (settle depth) key table) table

end

/-- A table from its parts, as the top of a settings file and as an inline table. -/
def collect (parts : List (Text × Node)) : Except Fault Table :=
  parts.foldlM (fun table (key, node) => addPart heightLimit true key node table) []

/-- A table from its parts, as the section below a header.  After every part it must be possible to
put its table together. -/
def ofSection (parts : List (Text × Node)) : Except Fault Table := do
  let table ← parts.foldlM (fun table (key, node) => do
    let table ← addPart heightLimit false key node table
    reach (settle heightLimit) key table
    .ok table) []
  settle heightLimit (keys table) table

/-! ## Putting parts together -/

/-- The one node that parts make together. -/
def whole : List Node → Except Fault Node
  | [node] => .ok node
  | parts => (joinedBy (settle heightLimit) parts).map fun table => .table .passage table none

/-- What stands under a key. -/
def field? (key : Text) (table : Table) : Except Fault (Option Node) :=
  match table.parts key with
  | [] => .ok none
  | parts => (whole parts).map some

end Table

/-! ## Finished values -/

/-- The finished entries of a table in which at most `depth` tables lie inside each other. -/
def Table.plainWithin : (depth : Nat) → Table → Except Fault (Entries Text Value)
  | 0, _ => .error .tooHigh
  | depth + 1, table =>
    table.keys.mapM fun key => do
      let node ← Table.whole (table.parts key)
      let v ← match node with
        | .value v => .ok v
        | .table _ entries _ => (plainWithin depth entries).map Value.table
        | .tables elements =>
          (elements.mapM (plainWithin depth)).map fun tables => Value.list (tables.map .table)
      .ok (key, v)

/-- The finished entries of a table.  Parts that are put together do not lie deeper than before. -/
def Table.plain (table : Table) : Except Fault (Entries Text Value) :=
  Table.plainWithin (Table.height table + 1) table

/-- A finished node. -/
def Node.plain : Node → Except Fault Value
  | .value v => .ok v
  | .table _ entries _ => (Table.plain entries).map .table
  | .tables elements => (elements.mapM Table.plain).map fun tables => .list (tables.map .table)

end ReleaseTrain.Toml
