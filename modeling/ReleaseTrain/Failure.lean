import ReleaseTrain.Json.Error
import ReleaseTrain.Text.Words
import ReleaseTrain.Toml.Literal
import ReleaseTrain.Files.Tree

/-!
# Failures

Every way in which a step can fail is a cause of its own; the wording of a cause stands in one
place.

* `Failure`: the causes; `Failure.message`: their wording.
* `Failure.isReported`: the failures that end a release in an orderly way, with a report.
* `Failure.exitCode`: the exit code that such a failure asks for.
* `Failure.isUnusable`: the failures that mean no more than that what was given or received cannot
  be used.

## Why some causes only state a text

Workspaces, registries and whoever runs processes and requests may be of any make.  Their failures
reach the program with a text of their own, so beside the causes that the program finds there is
`stated` in several places.
-/

namespace ReleaseTrain

/-- Why cargo did not do what it was asked. -/
inductive CargoFailure where
  /-- The process was not started. -/
  | notStarted (reason : String)
  /-- The workspace could not be described. -/
  | undescribed (complaint : Option String) (code : Int)
  /-- The description is no document. -/
  | unreadable (error : Json.Error)
  /-- The description does not name the crate. -/
  | unknownCrate (name : String) (directory : Path)
  /-- The crate was not published. -/
  | unpublished (name : String) (code : Int)
  /-- A failure in the words of another workspace. -/
  | stated (text : String) (code : Int)
  /-- The crate is unknown, in the words of another workspace. -/
  | statedUnknown (text : String) (code : Int)
deriving DecidableEq, Repr

namespace CargoFailure

/-- The wording of a failure. -/
def message : CargoFailure → String
  | notStarted reason => "не удалось запустить cargo: " ++ reason
  | undescribed complaint _ =>
    match complaint with
    | none => "cargo metadata failed"
    | some text => if text.isEmpty then "cargo metadata failed" else text
  | unreadable error => "cargo metadata вернул некорректный JSON: " ++ error.message
  | unknownCrate name directory =>
    "крейт " ++ name ++ " не найден в cargo metadata (" ++ directory.text ++ ")"
  | unpublished name code =>
    "cargo publish для " ++ name ++ " завершился с кодом " ++ toString code
  | stated text _ => text
  | statedUnknown text _ => text

/-- The code that goes with a failure: that of the process if there was one. -/
def code : CargoFailure → Int
  | undescribed _ code | unpublished _ code | stated _ code | statedUnknown _ code => code
  | notStarted _ | unreadable _ | unknownCrate _ _ => 1

end CargoFailure

/-- Why a crate did not turn up in the registry. -/
inductive AbsenceFailure where
  | neverSeen (name version : String) (attempts : Nat)
  | stated (text : String)
deriving DecidableEq, Repr

/-- The wording of a failure. -/
def AbsenceFailure.message : AbsenceFailure → String
  | neverSeen name version attempts =>
    "крейт " ++ name ++ " " ++ version ++ " должен был стать доступным после " ++
      toString attempts ++ " попыток"
  | stated text => text

/-- Why something that was given cannot be used although it is of the right kind. -/
inductive Unusable where
  | unsplittable (why : Text.Words.Unsplittable)
  | notWorkspace (directory : Path)
  | notNumber (text : Text)
  | notPair (index length : Nat)
  | document (error : Json.Error)
  | noAttempts
  | unknownState (v : Value)
  /-- A whole number is too long to be written. -/
  | tooManyDigits
  | nullCharacter
  | stated (text : String)
deriving Repr

/-- The wording of a fault of a command line. -/
def Text.Words.Unsplittable.message : Text.Words.Unsplittable → String
  | unclosedQuote => "No closing quotation"
  | danglingEscape => "No escaped character"

/-- The wording of a cause. -/
def Unusable.message : Unusable → String
  | unsplittable why => why.message
  | notWorkspace directory => directory.text ++ " is not a cargo workspace"
  | notNumber text => "could not convert string to float: " ++ text.quoted
  | notPair index length =>
    "dictionary update sequence element #" ++ toString index ++ " has length " ++
      toString length ++ "; 2 is required"
  | document error => error.message
  | noAttempts => "max_attempts must be >= 1"
  | unknownState v => v.literal ++ " is not a valid CrateState"
  | tooManyDigits =>
    "Exceeds the limit (" ++ toString Number.digitLimit ++ " digits) for integer string " ++
      "conversion; use sys.set_int_max_str_digits() to increase the limit"
  | nullCharacter => "embedded null byte"
  | stated text => text

/-- What a value was needed for. -/
inductive Need where
  /-- Its members are walked over. -/
  | members
  /-- It is used as a path. -/
  | path
  /-- It is converted to a number. -/
  | number
  /-- It is used as a key. -/
  | key
  /-- A section is taken out of it. -/
  | subtable
  /-- It is asked for the value of a key that may be missing. -/
  | table
  /-- It is used as a text. -/
  | text
deriving DecidableEq, Repr

/-- A failure of the system, with its number and the file that it is about. -/
structure SystemFailure where
  number : Int
  text : String
  file : Option String
deriving DecidableEq, Repr

/-- The wording of a failure. -/
def SystemFailure.message (f : SystemFailure) : String :=
  "[Errno " ++ toString f.number ++ "] " ++ f.text ++
    (f.file.map fun file => ": " ++ Text.Quoted.quote file).getD ""

/-- Why a step fails. -/
inductive Failure where
  | cargo (f : CargoFailure)
  | absent (f : AbsenceFailure)
  | unusable (why : Unusable)
  /-- A value is not of the kind that is needed. -/
  | wrongKind (need : Need) (v : Value)
  /-- A table lacks a key. -/
  | missingKey (key : String)
  /-- A request failed on its way, for a named kind of reason. -/
  | transport (kind : String) (text : String)
  | system (f : SystemFailure)
  /-- A number is beyond the binary numbers. -/
  | tooLarge
  /-- A document or the settings in it are nested too deeply. -/
  | tooDeep
  /-- The bytes of a file are no text. -/
  | notText
  /-- A settings file breaks the rules of its format. -/
  | settings (why : Toml.Fault)
  /-- A link leads back to itself. -/
  | loop (path : Path)
  /-- The program ends with a code, having said why. -/
  | exit (code : Int)
  /-- A failure of another kind, in its own words. -/
  | stated (text : String)
deriving Repr

namespace Failure

/-- The wording of a failure. -/
def message : Failure → String
  | cargo f => f.message
  | absent f => f.message
  | unusable why => why.message
  | wrongKind _ v => "a value of another kind is needed: " ++ v.literal
  | missingKey key => Text.Quoted.quote key
  | transport _ text => text
  | system f => f.message
  | tooLarge => "int too large to convert to float"
  | tooDeep => "nested too deeply"
  | notText => "not a text in UTF-8"
  | settings _ => "the settings file breaks the rules of its format"
  | loop path => "Symlink loop from " ++ Text.Quoted.quote path.text
  | exit code => toString code
  | stated text => text

/-- Whether a release that meets the failure ends with a report on every crate.  Any other failure
ends the program on the spot. -/
def isReported : Failure → Bool
  | cargo _ | absent _ => true
  | _ => false

/-- The exit code of a release that ends with the failure.  A code of zero would claim success, so
one takes its place. -/
def exitCode : Failure → Int
  | cargo f => if f.code = 0 then 1 else f.code
  | _ => 1

/-- Whether the failure only says that what was given or received cannot be used. -/
def isUnusable : Failure → Bool
  | unusable _ | notText => true
  | _ => false

/-- Whether the failure is one of the system, the ways to a registry among it. -/
def isOfSystem : Failure → Bool
  | system _ | transport _ _ => true
  | _ => false

/-- Whether a request failed on its way. -/
def isTransport : Failure → Bool
  | transport _ _ => true
  | _ => false

/-- What reading a document may fail with. -/
def ofJson : Json.Error → Failure
  | .tooDeep => tooDeep
  | error => unusable (.document error)

/-- What reading a settings file, or putting it together, may fail with. -/
def ofToml : Toml.Fault → Failure
  | .tooHigh => tooDeep
  | fault => settings fault

/-- A path has a name that is too long to be looked at. -/
def nameTooLong (p : Path) : Failure := system ⟨36, "File name too long", some p.text⟩

/-- What resolving a path may fail with. -/
def ofUnresolvable : FileTree.Unresolvable → Failure
  | .loop path => loop path
  | .nullCharacter => unusable .nullCharacter

end Failure

end ReleaseTrain
