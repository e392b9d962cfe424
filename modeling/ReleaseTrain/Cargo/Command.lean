import ReleaseTrain.Files.Path

/-!
# Commands of cargo

* `Cargo.describeArguments`, `Cargo.publishArguments`: the two commands that a release runs.
* `Cargo.shown`: a command as it may be shown to anyone.

## What is hidden

Whatever follows the argument `--token` is a secret and is shown as three asterisks.  Each argument
is judged by the one before it in the command itself, not in what is shown, so an argument
`--token` that is hidden still hides the next one.
-/

namespace ReleaseTrain.Cargo

/-- The option that a token follows. -/
def tokenOption : String := "--token"

/-- What is shown in place of a secret. -/
def mask : String := "***"

/-- The arguments with which cargo describes the members of a workspace. -/
def describeArguments : List String := ["metadata", "--format-version", "1", "--no-deps"]

/-- The arguments with which cargo publishes the crate of a manifest.  An empty token is none. -/
def publishArguments (manifest : Path) (token : Option String) (flags : List String) :
    List String :=
  ["publish", "--manifest-path", manifest.text] ++ flags ++
    match token with
    | none => []
    | some token => if token.isEmpty then [] else [tokenOption, token]

/-- Arguments with their secrets hidden, given whether the first one is a secret. -/
def masked (secret : Bool) : List String → List String
  | [] => []
  | argument :: rest =>
    (if secret then mask else argument) :: masked (argument == tokenOption) rest

/-- A command as it may be shown to anyone. -/
def shown (arguments : List String) : String :=
  "cargo " ++ " ".intercalate (masked false arguments)

end ReleaseTrain.Cargo
