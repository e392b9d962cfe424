import ReleaseTrain.CommandLine
import ReleaseTrain.Publication.Outside
import ReleaseTrain.Publication.Run
import ReleaseTrain.Settings.Discovery

/-!
# Releases

* `Surroundings`: what a release finds when it starts.
* `Release.settingsFor`: the settings that the command line asks for.
* `Release.secondsOf`: a setting as a number of seconds.
* `Release.perform`: a release as a command line asks for it.
* `Release.run`: the same from the arguments on, with the exit code as its result.

## Everything is checked before anything starts

The settings, the plan, the workspace and the registry are put together first, and none of that
touches the world beyond writing lines.  Only then does the publication begin.
-/

namespace ReleaseTrain

/-- What a release finds when it starts: files, the working directory and the environment. -/
structure Surroundings where
  files : FileTree
  here : Place
  environment : Entries String String

namespace Release

open Publication

/-- A setting as a number of seconds. -/
def secondsOf (v : Value) : Except Failure Binary64 :=
  match v with
  | .number n =>
    match n.toBinary? with
    | some x => .ok x
    | none => .error .tooLarge
  | .bool b => .ok (.ofInt (if b then 1 else 0))
  | .text t =>
    match Numeral.binary? t.shown.toList with
    | some x => .ok x
    | none => .error (.unusable (.notNumber t))
  | v => .error (.wrongKind .number v)

/-- The settings that the command line asks for. -/
def settingsFor (around : Surroundings) (choice : ConfigChoice) : Dialogue world Settings :=
  match choice with
  | .search => Settings.load around.files around.here none
  | .file name => Settings.load around.files around.here (some name)
  | .nameless => .fail (.wrongKind .path (.list []))

/-- The workspace in the directory that a value names. -/
def workspaceIn (around : Surroundings) (directory : Value) : Except Failure Workspace :=
  match directory with
  | .text t => Workspace.ofPath around.files around.here (Path.ofText t.shown)
  | v => .error (.wrongKind .path v)

/-- The directory of the workspace: the one that the command line names, if it is not empty, or
else the one of the settings. -/
def directoryOf (asked : Invocation) (settings : Settings) : Value :=
  let named := asked.manifestDir.getD ""
  if named.isEmpty then (settings.get? "manifest_dir").getD .null else .text named

/-- The client of the registry that the settings name. -/
def clientOf (settings : Settings) : Except Failure Registry.Client :=
  match secondsOf ((settings.get? "http_timeout").getD (.whole 30)) with
  | .error f => .error f
  | .ok limit =>
    Registry.Client.ofValues ((settings.get? "registry_url").getD .null) (.number (.binary limit))
      ((settings.get? "user_agent").getD .null)

/-- Says how the release ended, and gives the exit code. -/
def conclude (report : Report) : Dialogue world Int := do
  match report.error with
  | some error =>
    World.warn ("[publish] ❌ " ++ error)
    return report.exitCode
  | none =>
    World.say ("[publish] ✅ Завершено. Опубликовано: " ++ toString (report.count .published) ++
      ", пропущено: " ++ toString (report.count .alreadyPublished))
    return 0

/-- A release as a command line asks for it. -/
def perform (around : Surroundings) (asked : Invocation) : Dialogue world Int := do
  let settings ← settingsFor around asked.config
  World.say ("[publish] Конфигурация: " ++ settings.source)
  let plan ← .ofExcept (Plan.ofSettings settings.get? asked.crates around.environment asked.dryRun)
  match workspaceIn around (directoryOf asked settings) with
  | .error f =>
    if f.isUnusable then
      World.warn ("[publish] ❌ " ++ f.message)
      return 1
    else .fail f
  | .ok workspace =>
    let client ← .ofExcept (clientOf settings)
    let report ← carryOut workspace client (publishAll plan .standard)
    conclude report

/-- The result of a part that may end the program. -/
def exitCodeOf : Except Failure Int → Dialogue world Int
  | .ok code => return code
  | .error (.exit code) => return code
  | .error f => .fail f

/-- A release from the arguments on. -/
def run (around : Surroundings) (arguments : List String) : Dialogue world Int := do
  match CommandLine.read arguments with
  | .error .help =>
    World.say CommandLine.help
    return 0
  | .error (.mistake error) =>
    World.warn (CommandLine.complaint error)
    return 2
  | .ok asked => exitCodeOf (← (perform around asked).attempt)

end Release

end ReleaseTrain
