import ReleaseTrain.Cargo.Command
import ReleaseTrain.Json.Document
import ReleaseTrain.World

/-!
# Workspaces

A workspace is a directory with a manifest, and cargo can describe the crates in it.

* `Workspace.ofPath`: the workspace in a directory.
* `Crate.inMetadata`: a crate in the description of a workspace.
* `Workspace.metadata`, `Workspace.crate`: the description, and a crate in it.
* `Workspace.publish`: publishes a crate, or shows the command that would.

## Why nothing is remembered

Publishing may change what cargo says, so the description is asked for again whenever it is needed.
-/

namespace ReleaseTrain

/-- A crate as cargo describes it. -/
structure Crate where
  name : String
  version : String
  manifest : Path
deriving DecidableEq, Repr

/-- A directory with a manifest, by its absolute path. -/
structure Workspace where
  directory : Path
deriving DecidableEq, Repr

namespace Crate

/-- The value of a key that a table must have. -/
def field (key : String) (entries : Entries Text Value) : Except Failure Value :=
  match entries.get? (.whole key) with
  | some v => .ok v
  | none => .error (.missingKey key)

/-- The crate of a package of the description. -/
def ofPackage (name : String) (package : Entries Text Value) : Except Failure Crate :=
  match field "version" package with
  | .error f => .error f
  | .ok version =>
    match field "manifest_path" package with
    | .error f => .error f
    | .ok (.text manifest) => .ok ⟨name, version.sentence, Path.ofText manifest.shown⟩
    | .ok v => .error (.wrongKind .path v)

/-- The first package of a name as a crate, if there is one. -/
def inPackages (name : String) : List Value → Except Failure (Option Crate)
  | [] => .ok none
  | .table package :: rest =>
    match Entries.get? (.whole "name") package with
    | some (.text t) =>
      if t = .whole name then (ofPackage name package).map some else inPackages name rest
    | _ => inPackages name rest
  | v :: _ => .error (.wrongKind .table v)

/-- The crate of a name in the description of a workspace, if it is there. -/
def inMetadata (name : String) : Value → Except Failure (Option Crate)
  | .table metadata =>
    match Entries.get? (.whole "packages") metadata with
    | none => .ok none
    | some packages =>
      match packages.members? with
      | none => .error (.wrongKind .members packages)
      | some members => inPackages name members
  | v => .error (.wrongKind .table v)

end Crate

namespace Workspace

/-- The workspace in the directory that a path leads to. -/
def ofPath (files : FileTree) (here : Place) (p : Path) : Except Failure Workspace :=
  match files.resolve here p with
  | .error why => .error (.ofUnresolvable why)
  | .ok directory =>
    let manifest := directory.join ⟨.relative, ["Cargo.toml"]⟩
    match files.isPresent [] manifest with
    | .error _ => .error (.nameTooLong manifest)
    | .ok false => .error (.unusable (.notWorkspace directory))
    | .ok true => .ok ⟨directory⟩

/-- Runs cargo.  If the system does not start it, that is a failure of cargo. -/
def run (workspace : Workspace) (arguments : List String) (captured : Bool) :
    Dialogue world Finished := do
  match ← World.cargo workspace.directory arguments captured with
  | .ok finished => return finished
  | .error f => .fail (if f.isOfSystem then .cargo (.notStarted f.message) else f)

/-- What is made of the description that cargo has printed. -/
def readMetadata (finished : Finished) : Except Failure Value :=
  if finished.code ≠ 0 then .error (.cargo (.undescribed finished.complaint finished.code))
  else
    match Json.parse finished.output with
    | .ok metadata => .ok metadata
    | .error error =>
      .error (if error.isBroken then .cargo (.unreadable error) else .ofJson error)

/-- The description of the workspace. -/
def metadata (workspace : Workspace) : Dialogue world Value := do
  let finished ← workspace.run Cargo.describeArguments true
  .ofExcept (readMetadata finished)

/-- A crate of the workspace. -/
def crate (workspace : Workspace) (name : String) : Dialogue world Crate := do
  let metadata ← workspace.metadata
  match Crate.inMetadata name metadata with
  | .error f => .fail f
  | .ok none => .fail (.cargo (.unknownCrate name workspace.directory))
  | .ok (some crate) => return crate

/-- The manifest of a crate. -/
def manifest (workspace : Workspace) (name : String) : Dialogue world Path := do
  return (← workspace.crate name).manifest

/-- The version of a crate. -/
def version (workspace : Workspace) (name : String) : Dialogue world String := do
  return (← workspace.crate name).version

/-- Publishes a crate, or only shows the command.  It is tried once: a publication cannot be
undone, and whether one that failed has happened is not known. -/
def publish (workspace : Workspace) (name : String) (token : Option String) (flags : List String)
    (dryRun : Bool) : Dialogue world Unit := do
  let manifest ← workspace.manifest name
  let arguments := Cargo.publishArguments manifest token flags
  if dryRun then World.say ("[publish]   [dry-run] " ++ Cargo.shown arguments)
  else
    let finished ← workspace.run arguments false
    if finished.code ≠ 0 then .fail (.cargo (.unpublished name finished.code))
    else return ()

end Workspace

end ReleaseTrain
