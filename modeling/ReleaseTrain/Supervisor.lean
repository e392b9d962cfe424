import ReleaseTrain.Json.Document
import ReleaseTrain.Json.Writing
import ReleaseTrain.Release

/-!
# The supervisor

The program does not start processes or open connections itself.  A supervisor does, and both talk
in lines, each of which is a JSON document.

* `Supervisor.surroundings`: what the supervisor says first.
* `Supervisor.requestLine`: a request as a line.
* `Supervisor.answer`: the answer to a request out of a line.

## The lines

The first line is the supervisor's and holds `directory`, `files` and `environment`; a file is given
by its text, a link by a list with its target, and a directory by null.  Then every line of the
program is a request.  The supervisor answers those about cargo and the registry with a line each,
and carries out the others without a word.  What has failed is answered by `failed`: a request that
was lost on its way with the `kind` of reason, a process that was not started with the `number` and
the `file` of the system.
-/

namespace ReleaseTrain.Supervisor

/-- A member of a table, null if it is missing. -/
def member (v : Value) (key : String) : Value :=
  (v.entries?.bind (Entries.get? (.whole key))).getD .null

/-- A text, if a value is one. -/
def text? : Value → Option String
  | .text t => some t.shown
  | _ => none

/-- A whole number, zero if a value is none. -/
def whole : Value → Int
  | .number (.whole n) => n
  | _ => 0

/-- An entry of the tree of files. -/
def entry : Value → Entry
  | .text t => .file t.shown.toUTF8
  | .list [.text target] => .link (Target.ofText target.shown)
  | _ => .directory

/-- All places above a place and the place itself. -/
def placesTo (place : Place) : List Place :=
  (List.range place.length).map fun n => place.take (n + 1)

/-- The tree with an entry and directories above it. -/
def plant (tree : FileTree) (place : Place) (e : Entry) : FileTree :=
  let missing := (placesTo place.dropLast).filter fun above => (tree.entry? above).isNone
  (missing.foldl (fun tree above => tree.insert above .directory) tree).insert place e

/-- What a release finds when it starts. -/
def surroundings (v : Value) : Surroundings :=
  let files := ((member v "files").entries?.getD []).foldl
    (fun tree (path, content) => plant tree (Path.ofText path.shown).parts (entry content)) ⟨[]⟩
  let environment := ((member v "environment").entries?.getD []).filterMap fun (name, value) =>
    (text? value).map fun s => (name.shown, s)
  { files
    here := (Path.ofText ((text? (member v "directory")).getD "/")).parts
    environment }

/-- A request as a document. -/
def request : Request → Value
  | .say line => .table [("say", .text line)]
  | .warn line => .table [("warn", .text line)]
  | .pause seconds => .table [("pause", .number seconds)]
  | .cargo directory arguments captured =>
    .table
      [("cargo", .list (arguments.map fun argument => .text (.whole argument))),
       ("directory", .text directory.text), ("captured", .bool captured)]
  | .get address limit agent =>
    .table [("get", .text address), ("limit", limit), ("agent", agent.getD .null)]

/-- A request as a line. -/
def requestLine (q : Request) : String := Json.write (request q)

/-- Whether the supervisor answers a request. -/
def isAnswered : Request → Bool
  | .cargo _ _ _ | .get _ _ _ => true
  | .say _ | .warn _ | .pause _ => false

/-- The failure that an answer tells of. -/
def failure? (v : Value) : Option Failure :=
  (text? (member v "failed")).map fun reason =>
    match text? (member v "kind") with
    | some kind => .transport kind reason
    | none => .system ⟨whole (member v "number"), reason, text? (member v "file")⟩

/-- The answer to a request. -/
def answer (v : Value) : (q : Request) → q.Answer
  | .say _ | .warn _ | .pause _ => ()
  | .cargo _ _ _ =>
    match failure? v with
    | some f => .error f
    | none =>
      .ok
        { code := whole (member v "code")
          output := (text? (member v "output")).getD ""
          complaint := text? (member v "complaint") }
  | .get _ _ _ =>
    match failure? v with
    | some f => .error f
    | none =>
      .ok
        { status := whole (member v "status")
          reason := (text? (member v "reason")).getD ""
          body := (text? (member v "body")).getD "" }

/-- What a line says; a line that is no document says nothing. -/
def heard (line : String) : Value := (Json.parse line).toOption.getD .null

/-- How the program ended, as a line. -/
def lastLine : Except Failure Int → String
  | .ok code => Json.write (.table [("exit", .whole code)])
  | .error f => Json.write (.table [("failure", .text f.message)])

/-- The status of a process that ends like this. -/
def status : Except Failure Int → UInt32
  | .ok code => (code.emod 256).toNat.toUInt32
  | .error _ => 1

end ReleaseTrain.Supervisor
