import ReleaseTrain.Dialogue

/-!
# The steps of a publication

Publishing crates needs a workspace, a registry, a clock and a console.  How each of them works is
of no concern here; this module only lists what is asked of them.

* `Step`: the questions; `steps`: the topic that they form.
* `say`, `pause`, `localVersion`, `publishedAt`, `publish`: each question as a dialogue.
-/

namespace ReleaseTrain.Publication

/-- What a publication asks of others. -/
inductive Step where
  /-- Show a line on the console. -/
  | say (line : String)
  /-- Wait for a number of seconds. -/
  | pause (seconds : Number)
  /-- Tell the version of a crate in the workspace. -/
  | localVersion (name : String)
  /-- Tell when a version of a crate was published; a value that counts as absent means not yet. -/
  | publishedAt (name version : String)
  /-- Publish a crate of the workspace. -/
  | publish (name : String) (token : Option String) (flags : List String) (dryRun : Bool)
deriving DecidableEq, Repr

/-- What is answered.  The console and the clock always work; the others may fail. -/
abbrev Step.Answer : Step → Type
  | .say _ | .pause _ => Unit
  | .localVersion _ => Except Failure String
  | .publishedAt _ _ => Except Failure Value
  | .publish _ _ _ _ => Except Failure Unit

/-- The topic of a publication. -/
abbrev steps : Topic := ⟨Step, Step.Answer⟩

/-- Shows a line on the console. -/
def say (line : String) : Dialogue steps Unit := .ask (.say line) .done

/-- Waits for a number of seconds. -/
def pause (seconds : Number) : Dialogue steps Unit := .ask (.pause seconds) .done

/-- Learns the version of a crate in the workspace. -/
def localVersion (name : String) : Dialogue steps String :=
  .ask (.localVersion name) fun answer => .ofExcept answer

/-- Learns when a version of a crate was published. -/
def publishedAt (name version : String) : Dialogue steps Value :=
  .ask (.publishedAt name version) fun answer => .ofExcept answer

/-- Publishes a crate of the workspace. -/
def publish (name : String) (token : Option String) (flags : List String) (dryRun : Bool) :
    Dialogue steps Unit :=
  .ask (.publish name token flags dryRun) fun answer => .ofExcept answer

end ReleaseTrain.Publication
