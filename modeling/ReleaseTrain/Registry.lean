import ReleaseTrain.Json.Document
import ReleaseTrain.World

/-!
# Registries

A registry is asked one thing only: whether it has a version of a crate, and since when.

* `Registry.Client`: where the registry is and how it is addressed.
* `Registry.dateIn`: the date of a version in what a registry says about a crate.
* `Registry.Client.publishedAt`: asks, and warns if there is no usable answer.

## Why a failed request is no failure

The answer is wanted in order to pass over what is published and to wait for what is not yet.  For
both, a registry that cannot be asked is as good as one that does not have the version; but it is
worth a warning, so that nobody takes one for the other.
-/

namespace ReleaseTrain.Registry

/-- The address of the standard registry. -/
def standardAddress : String := "https://crates.io/api/v1/crates"

/-- Where a registry is, how long it may take, and the name that is given to it. -/
structure Client where
  address : String
  limit : Value
  agent : Option Value
deriving Repr

/-- An address without slashes at its end. -/
def withoutSlashes (address : String) : String :=
  String.ofList (address.toList.reverse.dropWhile (· = '/')).reverse

namespace Client

/-- The client that settings describe.  An agent that counts as absent is none. -/
def ofValues (address limit agent : Value) : Except Failure Client :=
  match address with
  | .text t => .ok ⟨withoutSlashes t.shown, limit, if agent.isTruthy then some agent else none⟩
  | v => .error (.wrongKind .text v)

/-- The address at which a crate is described. -/
def addressOf (client : Client) (name : String) : String := client.address ++ "/" ++ name

end Client

/-- The date of a version among the versions of a crate: the first entry of that version decides,
and a date that counts as absent is none. -/
def dateAmong (version : String) : List Value → Value
  | [] => .null
  | .table entry :: rest =>
    match Entries.get? (.whole "num") entry with
    | some (.text t) =>
      if t = .whole version then
        let date := (Entries.get? (.whole "updated_at") entry).getD .null
        if date.isTruthy then date else .null
      else dateAmong version rest
    | _ => dateAmong version rest
  | _ :: rest => dateAmong version rest

/-- The date of a version in what a registry says about a crate. -/
def dateIn (version : String) : Value → Except Failure Value
  | .table data =>
    let versions := (Entries.get? (.whole "versions") data).getD .null
    if versions.isTruthy then
      match versions.members? with
      | some members => .ok (dateAmong version members)
      | none => .error (.wrongKind .members versions)
    else .ok .null
  | _ => .ok .null

/-- Why a registry turns a request down, if it does. -/
def refusal? (address : String) (response : Response) : Option String :=
  let because (whose : String) :=
    some (toString response.status ++ " " ++ whose ++ " Error: " ++ response.reason ++
      " for url: " ++ address)
  if 400 ≤ response.status ∧ response.status < 500 then because "Client"
  else if 500 ≤ response.status ∧ response.status < 600 then because "Server"
  else none

/-- What is made of an answer: a date, or why there is no usable answer.  A registry that does not
know the crate says so with the status 404. -/
def read (address version : String) (response : Response) :
    Except Failure (Except String Value) :=
  if response.status = 404 then .ok (.ok .null)
  else
    match refusal? address response with
    | some reason => .ok (.error reason)
    | none =>
      match Json.parse response.body with
      | .ok data => (dateIn version data).map .ok
      | .error error =>
        let f := Failure.ofJson error
        if f.isUnusable then .ok (.error f.message) else .error f

namespace Client

/-- Warns that there is no usable answer, which counts as no date. -/
def noAnswer (address reason : String) : Dialogue world Value := do
  World.warn ("[registry] ⚠️ запрос " ++ address ++ " не удался: " ++ reason)
  return .null

/-- Learns when a version of a crate was published. -/
def publishedAt (client : Client) (name version : String) : Dialogue world Value := do
  let address := client.addressOf name
  match ← World.get address client.limit client.agent with
  | .error f =>
    if f.isTransport || f.isUnusable then noAnswer address f.message else .fail f
  | .ok response =>
    match read address version response with
    | .error f => .fail f
    | .ok (.error reason) => noAnswer address reason
    | .ok (.ok date) => return date

end Client

end ReleaseTrain.Registry
