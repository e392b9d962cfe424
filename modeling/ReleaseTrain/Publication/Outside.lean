import ReleaseTrain.Cargo.Workspace
import ReleaseTrain.Publication.Step
import ReleaseTrain.Registry

/-!
# Publishing with cargo and a registry

The steps of a publication are carried out in the world: a workspace answers what concerns cargo,
a client asks the registry.

* `Step.carryOut`: one step.
* `carryOut`: a whole dialogue.
-/

namespace ReleaseTrain.Publication

/-- One step in the world. -/
def Step.carryOut (workspace : Workspace) (registry : Registry.Client) :
    (step : Step) → Dialogue world step.Answer
  | .say line => World.say line
  | .pause seconds => World.pause seconds
  | .localVersion name => (workspace.version name).attempt
  | .publishedAt name version => (registry.publishedAt name version).attempt
  | .publish name token flags dryRun => (workspace.publish name token flags dryRun).attempt

/-- A dialogue about a publication, carried out in the world. -/
def carryOut {α : Type} (workspace : Workspace) (registry : Registry.Client)
    (dialogue : Dialogue steps α) : Dialogue world α :=
  dialogue.via (Step.carryOut workspace registry)

end ReleaseTrain.Publication
