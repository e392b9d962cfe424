import ReleaseTrain.Dialogue

/-!
# The world outside

Whatever a release does outside itself is one of five things: two streams of lines, waiting,
running cargo, and asking a registry.

* `Request`: the five; `world`: the topic that they form.
* `Finished`, `Response`: what cargo and a registry leave behind.
* `World.say`, `World.warn`, `World.pause`, `World.cargo`, `World.get`: each request as a dialogue.
-/

namespace ReleaseTrain

/-- What is asked of the world. -/
inductive Request where
  /-- Write a line to the console. -/
  | say (line : String)
  /-- Write a line to the stream for complaints. -/
  | warn (line : String)
  /-- Wait for a number of seconds. -/
  | pause (seconds : Number)
  /-- Run cargo in a directory.  If its streams are not captured, they go to the console. -/
  | cargo (directory : Path) (arguments : List String) (captured : Bool)
  /-- Fetch an address, with a time limit and the name that the client gives itself. -/
  | get (address : String) (limit : Value) (agent : Option Value)

/-- A cargo process that has ended. -/
structure Finished where
  code : Int
  output : String
  complaint : Option String
deriving DecidableEq, Repr

/-- The answer of a registry. -/
structure Response where
  status : Int
  reason : String
  body : String
deriving DecidableEq, Repr

/-- What the world answers.  Writing and waiting always work; the others may fail. -/
abbrev Request.Answer : Request → Type
  | .say _ | .warn _ | .pause _ => Unit
  | .cargo _ _ _ => Except Failure Finished
  | .get _ _ _ => Except Failure Response

/-- The topic of all that a release does outside itself. -/
abbrev world : Topic := ⟨Request, Request.Answer⟩

namespace World

/-- Writes a line to the console. -/
def say (line : String) : Dialogue world Unit := .ask (.say line) .done

/-- Writes a line to the stream for complaints. -/
def warn (line : String) : Dialogue world Unit := .ask (.warn line) .done

/-- Waits for a number of seconds. -/
def pause (seconds : Number) : Dialogue world Unit := .ask (.pause seconds) .done

/-- Runs cargo. -/
def cargo (directory : Path) (arguments : List String) (captured : Bool) :
    Dialogue world (Except Failure Finished) :=
  .ask (.cargo directory arguments captured) fun answer => .done answer

/-- Fetches an address. -/
def get (address : String) (limit : Value) (agent : Option Value) :
    Dialogue world (Except Failure Response) :=
  .ask (.get address limit agent) fun answer => .done answer

end World

end ReleaseTrain
