import ReleaseTrain.Plan
import ReleaseTrain.Publication.Polling
import ReleaseTrain.Publication.Report

/-!
# Publishing crates in order

* `publishCrate`: one crate, from the look at the registry to the wait for it to turn up.
* `publishAll`: the crates of a plan, one after another, up to the first failure.

## Why a failure ends everything

A crate can only be published after the crates that it depends on, and publishing cannot be undone.
So a release never goes on behind a crate that failed: if cargo or the registry failed in a way that
they report, the release ends with a report that says which crate it was; any other failure ends it
without one.  Starting again is safe, because a crate that the registry knows is passed over.
-/

namespace ReleaseTrain.Publication

/-- Takes one crate through the check, the publication and the wait. -/
def publishCrate (plan : Plan) (policy : Policy) (name : String) : Dialogue steps CrateState := do
  let version ← localVersion name
  let date ← publishedAt name version
  say ("[publish] " ++ name ++ ": локальная версия " ++ version)
  if date.isTruthy then
    say ("[publish]   🟡 " ++ name ++ " " ++ version ++ " уже опубликован " ++ date.sentence ++
      ", пропускаем")
    return .alreadyPublished
  else
    say ("[publish]   📦 публикуем крейт " ++ name ++ "...")
    publish name plan.token plan.flags plan.dryRun
    if plan.dryRun then return .published
    else
      let _ ← waitUntilVisible policy name version
      say ("[publish]   ✅ " ++ name ++ " " ++ version ++ " опубликован")
      return .published

/-- Publishes one crate after another and keeps the books. -/
def publishEach (plan : Plan) (policy : Policy) (states : Entries String CrateState) :
    List String → Dialogue steps Report
  | [] => return ⟨states, none, 0⟩
  | name :: rest => do
    match ← (publishCrate plan policy name).attempt with
    | .ok state => publishEach plan policy (states.put name state) rest
    | .error f =>
      if f.isReported then
        return ⟨states.put name .failed, some (name ++ ": " ++ f.message), f.exitCode⟩
      else .fail f

/-- The states before anything has happened. -/
def pendingStates (names : List String) : Entries String CrateState :=
  Entries.putAll [] (names.map fun name => (name, .pending))

/-- The line with which a release begins. -/
def openingLine (plan : Plan) : String :=
  "[publish] Пытаемся опубликовать крейт(ы): " ++ plan.text

/-- Publishes the crates of a plan in order, up to the first failure. -/
def publishAll (plan : Plan) (policy : Policy) : Dialogue steps Report := do
  say (openingLine plan)
  publishEach plan policy (pendingStates plan.crates) plan.crates

end ReleaseTrain.Publication
