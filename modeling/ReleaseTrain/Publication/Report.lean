import ReleaseTrain.Value

/-!
# Reports

A release ends with a `Report`: what became of each crate, and what stopped the release if
something did.

* `CrateState`: what can become of a crate; `CrateState.ofText?`: reading one.
* `Report`: states, error and exit code; `Report.isOk`, `Report.count`.
-/

namespace ReleaseTrain.Publication

/-- What became of a crate. -/
inductive CrateState where
  /-- Its turn has not come. -/
  | pending
  /-- The registry had this version before. -/
  | alreadyPublished
  | published
  | failed
deriving DecidableEq, Repr

namespace CrateState

/-- All states. -/
def all : List CrateState := [pending, alreadyPublished, published, failed]

/-- A state as a word. -/
def text : CrateState → String
  | pending => "pending"
  | alreadyPublished => "already_published"
  | published => "published"
  | failed => "failed"

/-- The state that a word stands for. -/
def ofText? (word : String) : Option CrateState := all.find? fun state => state.text == word

end CrateState

/-- How a release ended. -/
structure Report where
  states : Entries String CrateState
  error : Option String
  exitCode : Int
deriving DecidableEq, Repr

namespace Report

/-- Whether nothing stopped the release. -/
def isOk (report : Report) : Bool := report.error.isNone

/-- How many crates are in a state. -/
def count (report : Report) (state : CrateState) : Nat :=
  (report.states.filter fun entry => entry.2 == state).length

end Report

end ReleaseTrain.Publication
