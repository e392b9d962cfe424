import ReleaseTrain.Failure

/-!
# What to publish, and how

A `Plan` is everything that a release decides before it starts: which crates to publish and in
which order, the token, further flags for cargo, and whether to publish at all.

* `Plan.listOf`: a setting as a list of words.
* `Plan.crateNames`: the crates of a release.
* `Plan.ofSettings`: the plan that settings, the command line and the environment add up to.

## Which source decides

The crates come from the command line, from the settings, or from the standard list, and the first
of them that names any crate stands alone; the sources are not merged.  The order within a source
is the order of publication, so a crate has to stand after the crates that it depends on.
-/

namespace ReleaseTrain

/-- What to publish, and how. -/
structure Plan where
  crates : List String
  token : Option String
  flags : List String
  /-- Whether commands are only shown. -/
  dryRun : Bool
deriving DecidableEq, Repr

namespace Plan

/-- The crates of a plan in a sentence. -/
def text (plan : Plan) : String := " ".intercalate plan.crates

/-- The crates that are published unless others are named, dependencies first. -/
def standardCrates : List String :=
  ["ibc-primitives",
   "ibc-core-host-types",
   "ibc-core-router-types",
   "ibc-core-commitment-types",
   "ibc-core-client-types",
   "ibc-core-connection-types",
   "ibc-core-channel-types",
   "ibc-core-handler-types",
   "ibc-core-client-context",
   "ibc-core-host",
   "ibc-core-router",
   "ibc-core-client",
   "ibc-core-connection",
   "ibc-core-channel",
   "ibc-core-handler",
   "ibc-core",
   "ibc-client-tendermint-types",
   "ibc-client-tendermint",
   "ibc-clients",
   "ibc-app-transfer-types",
   "ibc-app-transfer",
   "ibc-apps",
   "ibc-core-host-cosmos",
   "ibc-data-types",
   "ibc",
   "ibc-query",
   "ibc-testkit"]

/-- The environment variable of the token unless the settings name another one. -/
def standardTokenVariable : String := "CRATES_TOKEN"

/-- A setting as a list of words.  A text is split like a command line; whatever else has members
gives a word for each; a setting that counts as absent gives none. -/
def listOf (v : Value) : Except Failure (List String) :=
  if v.isTruthy then
    match v with
    | .text t =>
      match Text.Words.split t.shown with
      | .ok words => .ok words
      | .error why => .error (.unusable (.unsplittable why))
    | _ =>
      match v.members? with
      | some members =>
        if members.all Value.isWritable then .ok (members.map Value.sentence)
        else .error (.unusable .tooManyDigits)
      | none => .error (.wrongKind .members v)
  else .ok []

/-- The crates to publish, given those of the command line and the setting. -/
def crateNames (given : List String) (setting : Value) : Except Failure (List String) :=
  if given.isEmpty then
    match listOf setting with
    | .error f => .error f
    | .ok names => .ok (if names.isEmpty then standardCrates else names)
  else .ok given

/-- The token in the environment variable that a setting names.  White space around it does not
belong to it, and if nothing else is there, there is no token. -/
def tokenIn (environment : Entries String String) (name : Value) :
    Except Failure (Option String) :=
  if name.isWritable then
    let found := (environment.get? name.sentence).getD ""
    let token := Text.trim Text.isSpace found.toList
    .ok (if token.isEmpty then none else some (String.ofList token))
  else .error (.unusable .tooManyDigits)

/-- The plan that settings, the command line and the environment add up to. -/
def ofSettings (setting : String → Option Value) (given : List String)
    (environment : Entries String String) (dryRun : Bool) : Except Failure Plan :=
  match tokenIn environment ((setting "token_env").getD (.text standardTokenVariable)) with
  | .error f => .error f
  | .ok token =>
    match crateNames given ((setting "crates").getD .null) with
    | .error f => .error f
    | .ok crates =>
      match listOf ((setting "publish_flags").getD .null) with
      | .error f => .error f
      | .ok flags =>
        .ok
          { crates
            token
            flags
            dryRun := dryRun || ((setting "dry_run").getD (.bool false)).isTruthy }

end Plan

end ReleaseTrain
