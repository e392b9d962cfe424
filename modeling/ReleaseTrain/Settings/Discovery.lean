import ReleaseTrain.Settings.Basic
import ReleaseTrain.Toml.Document
import ReleaseTrain.World

/-!
# Finding the settings

* `Settings.section?`: the part of a settings file that concerns a release.
* `Settings.finished`: the limit on how deeply that part is nested.
* `Settings.read`: that part of a file.
* `Settings.ofFile`: the settings of a file that is named.
* `Settings.discover`: the settings of the first file in the working directory that has any.
* `Settings.load`: one or the other.

## Two kinds of files

A file of its own may hold the settings at its top or under `tool.crate_release`.  The file
`pyproject.toml` is shared with other tools, so there the settings can only stand under
`tool.crate_release`, and a file without them is not meant for a release.
-/

namespace ReleaseTrain.Settings

/-- What a settings file holds under `tool.crate_release`, if it holds anything there.  Nothing else
in the file is put together for it, so an array of tables under `tool` counts as closed even where
its elements cannot be put together. -/
def toolSection? (whenClosed : Value → Failure) (document : Toml.Table) :
    Except Failure (Option Toml.Node) :=
  match document.field? "tool" with
  | .error fault => .error (.ofToml fault)
  | .ok none => .ok none
  | .ok (some (.table _ tools _)) => (Toml.Table.field? "crate_release" tools).mapError .ofToml
  | .ok (some (.value (.table tools))) =>
    .ok ((Entries.get? (.whole "crate_release") tools).map .value)
  | .ok (some node) => .error (whenClosed (node.plain.toOption.getD (.list [])))

/-- The name of the file that is shared with other tools. -/
def sharedName : String := "pyproject.toml"

/-- How deeply settings may be nested. -/
def heightLimit : Nat := 970

/-- Settings that have been put together, unless they are nested too deeply. -/
def finished (found : Except Toml.Fault Value) : Except Failure (Option Value) :=
  match found with
  | .error fault => .error (.ofToml fault)
  | .ok v => if v.height ≤ heightLimit then .ok (some v) else .error .tooDeep

/-- The settings in a document from a file of the given name, if it holds any. -/
def section? (name : String) (document : Toml.Table) : Except Failure (Option Value) := do
  let isShared := name = sharedName
  match ← toolSection? (.wrongKind (if isShared then .subtable else .table)) document with
  | some node => finished node.plain
  | none =>
    if isShared then .ok none
    else finished (document.plain.map .table)

/-- The bytes of the file that a path leads to. -/
def contentOf (files : FileTree) (here : Place) (p : Path) : Except Failure ByteArray :=
  match files.find here p with
  | .ok (_, .file content) => .ok content
  | .ok (_, _) => .error (.system ⟨21, "Is a directory", some p.text⟩)
  | .error _ => .error (.system ⟨2, "No such file or directory", some p.text⟩)

/-- The settings in the file that a path leads to, if it holds any. -/
def read (files : FileTree) (here : Place) (p : Path) : Except Failure (Option Value) :=
  match contentOf files here p with
  | .error f => .error f
  | .ok content =>
    match FileTree.decode? content with
    | none => .error .notText
    | some text =>
      match Toml.parse text with
      | .error fault => .error (.ofToml fault)
      | .ok document => section? p.name document

/-- A path as the source of settings: as seen from the working directory if it lies there, and as
it was given otherwise. -/
def sourceText (files : FileTree) (here : Place) (p : Path) : String :=
  match files.resolve here p with
  | .error _ => p.text
  | .ok found =>
    match (Path.absolute here).below? found with
    | some shown => shown.text
    | none => p.text

/-- Whether a path leads anywhere; a name that is too long is a failure. -/
def isPresent (files : FileTree) (here : Place) (p : Path) : Except Failure Bool :=
  match files.isPresent here p with
  | .ok present => .ok present
  | .error _ => .error (.nameTooLong p)

/-- The settings of a file that is named. -/
def ofFile (files : FileTree) (here : Place) (p : Path) : Dialogue world Settings := do
  let present ← .ofExcept (isPresent files here p)
  if present then
    let data ← .ofExcept (read files here p)
    .ofExcept (ofData (data.getD .null) (sourceText files here p))
  else
    World.warn ("[crate_release] Конфигурационный файл не найден: " ++ p.text)
    .fail (.exit 1)

/-- Where settings are looked for, in this order. -/
def candidates : List (List String) :=
  [["crate_release.toml"], ["crate_release", "crate_release.toml"], [sharedName]]

/-- The settings of the first file that has any. -/
def discover (files : FileTree) (here : Place) : List (List String) → Dialogue world Settings
  | [] => do
    World.warn
      "[crate_release] Конфигурационный файл не найден – используются значения по умолчанию"
    .ofExcept (ofData .null standardSource)
  | names :: rest => do
    let p := Path.absolute (here ++ names)
    let present ← .ofExcept (isPresent files here p)
    if present then
      match ← .ofExcept (read files here p) with
      | none => discover files here rest
      | some data => .ofExcept (ofData data (sourceText files here p))
    else discover files here rest

/-- The settings of the file that is named, or if none is named, of the first that is found. -/
def load (files : FileTree) (here : Place) (named : Option String) : Dialogue world Settings :=
  match named with
  | none => discover files here candidates
  | some name => ofFile files here (Path.ofText name)

end ReleaseTrain.Settings
