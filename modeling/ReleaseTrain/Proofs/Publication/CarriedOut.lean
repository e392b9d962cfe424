import ReleaseTrain.Proofs.Dialogue.Via
import ReleaseTrain.Publication.Outside
import ReleaseTrain.Publication.Run

/-!
# A publication with its collaborators put in

Carrying a publication out puts a workspace and a registry in the places where they are
asked.  The equations below say what becomes of each part, so that a publication in the
world can be read like the publication itself.

* `carryOut_bind`, `carryOut_attempt`: how parts are put together.
* `carryOut_say`, `carryOut_localVersion`, `carryOut_publishedAt` and so on: what becomes
  of each step.
* `appWorld`: a small world in which a publication can be carried out.
-/

namespace ReleaseTrain.Publication

open Dialogue

variable {α β : Type} {workspace : Workspace} {client : Registry.Client}

/-- Carrying out a step does not fail. -/
theorem attempt_carryOut (step : Step) :
    (step.carryOut workspace client).attempt =
      step.carryOut workspace client >>= fun answer => done (.ok answer) := by
  cases step with
  | say line => rfl
  | pause seconds => rfl
  | localVersion name => exact attempt_attempt _
  | publishedAt name version => exact attempt_attempt _
  | publish name token flags dryRun => exact attempt_attempt _

theorem carryOut_bind (d : Dialogue steps α) (next : α → Dialogue steps β) :
    carryOut workspace client (d >>= next) =
      carryOut workspace client d >>= fun a => carryOut workspace client (next a) :=
  via_bind d next

theorem carryOut_attempt (d : Dialogue steps α) :
    carryOut workspace client d.attempt = (carryOut workspace client d).attempt :=
  via_attempt attempt_carryOut d

@[simp] theorem carryOut_pure (a : α) :
    carryOut workspace client (pure a : Dialogue steps α) = pure a := rfl

@[simp] theorem carryOut_fail (f : Failure) :
    carryOut workspace client (fail f : Dialogue steps α) = fail f := rfl

@[simp] theorem carryOut_say (line : String) :
    carryOut workspace client (say line) = World.say line := rfl

@[simp] theorem carryOut_pause (seconds : Number) :
    carryOut workspace client (pause seconds) = World.pause seconds := rfl

@[simp] theorem carryOut_localVersion (name : String) :
    carryOut workspace client (localVersion name) = workspace.version name := by
  rw [carryOut, localVersion, via_ask]
  simp only [via_ofExcept]
  exact attempt_bind_ofExcept _

@[simp] theorem carryOut_publishedAt (name version : String) :
    carryOut workspace client (publishedAt name version) = client.publishedAt name version := by
  rw [carryOut, publishedAt, via_ask]
  simp only [via_ofExcept]
  exact attempt_bind_ofExcept _

@[simp] theorem carryOut_publish (name : String) (token : Option String) (flags : List String)
    (dryRun : Bool) :
    carryOut workspace client (publish name token flags dryRun) =
      workspace.publish name token flags dryRun := by
  rw [carryOut, publish, via_ask]
  simp only [via_ofExcept]
  exact attempt_bind_ofExcept _

/-! ## An example -/

/-- What cargo prints about a workspace with one crate. -/
def appDescribed : Finished where
  code := 0
  output := "\x7b\"packages\":[\x7b\"name\":\"app\",\"version\":\"1.0\",\"manifest_path\":\"app\"\x7d]\x7d"
  complaint := none

/-- What a registry says about the crate when it has it. -/
def appFound : Response where
  status := 200
  reason := "OK"
  body := "\x7b\"versions\":[\x7b\"num\":\"1.0\",\"updated_at\":\"2024-05-06\"\x7d]\x7d"

/-- What a registry says about a crate that it does not have. -/
def notFound : Response := ⟨404, "Not Found", ""⟩

/-- A world with one crate, which the registry has once cargo has published it.  The state
says whether it has. -/
def appWorld : Partner world Bool
  | .say _, s | .warn _, s | .pause _, s => ((), s)
  | .cargo _ _ true, s => (.ok appDescribed, s)
  | .cargo _ _ false, _ => (.ok ⟨0, "", none⟩, true)
  | .get _ _ _, s => (.ok (if s then appFound else notFound), s)

/-- The workspace in `appWorld`. -/
def appWorkspace : Workspace := ⟨⟨.single, ["ws"]⟩⟩

/-- A client of the standard registry. -/
def standardClient : Registry.Client := ⟨Registry.standardAddress, .null, none⟩

end ReleaseTrain.Publication
