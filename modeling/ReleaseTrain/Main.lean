import ReleaseTrain.Supervisor

/-!
# The program

`main` runs a release with the arguments of the command line, in conversation with a supervisor.
-/

namespace ReleaseTrain

/-- Passes a request to the supervisor and waits for the answer if there is to be one. -/
def consult (input output : IO.FS.Stream) (q : Request) : IO q.Answer := do
  output.putStrLn (Supervisor.requestLine q)
  output.flush
  let line ← if Supervisor.isAnswered q then input.getLine else pure ""
  return Supervisor.answer (Supervisor.heard line) q

/-- Plays a dialogue with the supervisor. -/
def converse {α : Type} (input output : IO.FS.Stream) :
    Dialogue world α → IO (Except Failure α)
  | .done a => return .ok a
  | .fail f => return .error f
  | .ask q next => do
    let answer ← consult input output q
    converse input output (next answer)

end ReleaseTrain

open ReleaseTrain in
/-- Runs a release and ends with its exit code. -/
def main (arguments : List String) : IO UInt32 := do
  let input ← IO.getStdin
  let output ← IO.getStdout
  let around := Supervisor.surroundings (Supervisor.heard (← input.getLine))
  let outcome ← converse input output (Release.run around arguments)
  output.putStrLn (Supervisor.lastLine outcome)
  return Supervisor.status outcome
