import ReleaseTrain.Failure
import ReleaseTrain.Plan
import ReleaseTrain.Registry

/-!
# Settings

Settings are the standard ones with those of a file put over them.

* `Key`: what a setting may be stored under.
* `Settings.ofData`: puts data over the standard settings.
* `Settings.get?`, `Settings.items`: one setting, and all of them with the name of their source.

## What data may be

Data is normally a table, and each of its entries takes the place of the standard one.  A list of
pairs serves as well, a pair being anything with two members, and then the keys need not be texts.
Data that counts as absent leaves the standard settings alone.
-/

namespace ReleaseTrain

/-- What a setting may be stored under: a value without members of its own, or a text. -/
inductive Key where
  | null
  | bool (b : Bool)
  | number (n : Number)
  | text (t : Text)
  | day (d : Day)
  | clock (t : Clock)
  | moment (m : Moment)
deriving DecidableEq, Repr

namespace Key

/-- A key as a value. -/
def toValue : Key → Value
  | null => .null
  | bool b => .bool b
  | number n => .number n
  | text t => .text t
  | day d => .day d
  | clock t => .clock t
  | moment m => .moment m

/-- A value as a key. -/
def ofValue? : Value → Option Key
  | .null => some null
  | .bool b => some (bool b)
  | .number n => some (number n)
  | .text t => some (text t)
  | .day d => some (day d)
  | .clock t => some (clock t)
  | .moment m => some (moment m)
  | .list _ | .table _ => none

/-- The amount that a key stands for, if it stands for one. -/
def amount? : Key → Option Number
  | bool b => some (.whole (if b then 1 else 0))
  | number n => some n
  | _ => none

/-- Whether two keys find the same setting.  Truth values and numbers go by their amounts, moments
by their points of time. -/
def same (k l : Key) : Bool :=
  match k.amount?, l.amount? with
  | some m, some n => m.sameAmount n
  | none, none =>
    match k, l with
    | moment m, moment n => m.same n
    | _, _ => decide (k = l)
  | _, _ => false

instance : BEq Key := ⟨same⟩

end Key

/-- Settings, and where they come from. -/
structure Settings where
  entries : Entries Key Value
  source : String
deriving Repr

namespace Settings

/-- The settings of a release that nobody has configured. -/
def standard : Entries Key Value :=
  [(.text "crates", .list []),
   (.text "manifest_dir", .text "."),
   (.text "registry_url", .text Registry.standardAddress),
   (.text "token_env", .text Plan.standardTokenVariable),
   (.text "publish_flags", .list []),
   (.text "http_timeout", .whole 30),
   (.text "user_agent", .text "crate_release (+https://github.com/cosmos/ibc-rs)"),
   (.text "dry_run", .bool false)]

/-- The source of standard settings. -/
def standardSource : String := "<default>"

/-- A member of a list of pairs, which stands at an index. -/
def pair (index : Nat) (v : Value) : Except Failure (Key × Value) :=
  match v.members? with
  | none => .error (.wrongKind .members v)
  | some [k, x] =>
    match Key.ofValue? k with
    | some key => .ok (key, x)
    | none => .error (.wrongKind .key k)
  | some members => .error (.unusable (.notPair index members.length))

/-- The pairs of a list, the first of which stands at an index. -/
def pairs (index : Nat) : List Value → Except Failure (Entries Key Value)
  | [] => .ok []
  | v :: rest =>
    match pair index v with
    | .error f => .error f
    | .ok first => (pairs (index + 1) rest).map (first :: ·)

/-- The settings that data holds. -/
def entriesOf (data : Value) : Except Failure (Entries Key Value) :=
  match data with
  | .table entries => .ok (entries.map fun (key, v) => (.text key, v))
  | _ =>
    match data.members? with
    | none => .error (.wrongKind .members data)
    | some members => pairs 0 members

/-- Data put over the standard settings. -/
def ofData (data : Value) (source : String) : Except Failure Settings :=
  if data.isTruthy then
    (entriesOf data).map fun entries => ⟨Entries.putAll standard entries, source⟩
  else .ok ⟨standard, source⟩

/-- The key of the source among the settings. -/
def sourceKey : String := "_config_source"

/-- All settings, with the name of their source. -/
def items (settings : Settings) : Entries Key Value :=
  settings.entries.put (.text sourceKey) (.text settings.source)

/-- The setting of a name. -/
def get? (settings : Settings) (name : String) : Option Value := settings.items.get? (.text name)

/-- All settings in one line. -/
def text (settings : Settings) : String :=
  let entries := settings.items.map fun (key, v) => key.toValue.literal ++ ": " ++ v.literal
  "<Config \x7b" ++ ", ".intercalate entries ++ "\x7d from " ++ settings.source ++ ">"

end Settings

end ReleaseTrain
