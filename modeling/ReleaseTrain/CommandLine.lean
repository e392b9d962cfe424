import ReleaseTrain.Text.Digit
import ReleaseTrain.Text.Quoted

/-!
# The command line

* `Token`: an argument by its form; `CommandLine.tokens`: the forms of all arguments.
* `Invocation`: what a command line asks for; `CommandLine.read`: reading one.
* `Stop`: why there is nothing to do; `UsageError.message`: the wording of a mistake.

## The rules

An argument is an option if it starts with a dash and is not a lone dash, not a negative number, and
has no space in it; a long option may be shortened as long as only one option starts that way, and
it takes a value from behind an equals sign or from the next argument.  Two dashes end the options;
as the value of an option they stand for nothing.  All other arguments are names of crates and must
stand together; names after the first row of them are not recognized.  Whatever is not recognized is
reported only at the end, so asking for help comes first if it stands before.
-/

namespace ReleaseTrain

/-- The options of the program. -/
inductive Flag where
  | help
  | config
  | manifestDir
  | dryRun
deriving DecidableEq, Repr

namespace Flag

/-- All spellings of options. -/
def spellings : List (String × Flag) :=
  [("-h", help), ("--help", help), ("--config", config), ("--manifest-dir", manifestDir),
   ("--dry-run", dryRun)]

/-- An option in a message. -/
def text (flag : Flag) : String :=
  "/".intercalate ((spellings.filter fun entry => entry.2 == flag).map (·.1))

/-- Whether an option takes a value. -/
def takesValue : Flag → Bool
  | config | manifestDir => true
  | help | dryRun => false

end Flag

/-- A mistake in a command line. -/
inductive UsageError where
  | ambiguous (argument : String) (spellings : List String)
  | valueExpected (flag : Flag)
  | valueIgnored (flag : Flag) (value : String)
  | unrecognized (arguments : List String)
deriving DecidableEq, Repr

/-- The wording of a mistake. -/
def UsageError.message : UsageError → String
  | ambiguous argument spellings =>
    "ambiguous option: " ++ argument ++ " could match " ++ ", ".intercalate spellings
  | valueExpected flag => "argument " ++ flag.text ++ ": expected one argument"
  | valueIgnored flag value =>
    "argument " ++ flag.text ++ ": ignored explicit argument " ++ Text.Quoted.quote value
  | unrecognized arguments => "unrecognized arguments: " ++ " ".intercalate arguments

/-- What a command line says about the file with the settings. -/
inductive ConfigChoice where
  /-- It is not mentioned, so it is looked for. -/
  | search
  | file (name : String)
  /-- It is mentioned, but two dashes stand where its name belongs. -/
  | nameless
deriving DecidableEq, Repr

/-- What a command line asks for. -/
structure Invocation where
  crates : List String
  config : ConfigChoice
  /-- The directory of the workspace, if one is named. -/
  manifestDir : Option String
  dryRun : Bool
deriving DecidableEq, Repr

/-- Why there is nothing to do. -/
inductive Stop where
  | help
  | mistake (error : UsageError)
deriving DecidableEq, Repr

/-- An argument by its form. -/
inductive Token where
  | word (text : String)
  /-- The two dashes that end the options. -/
  | separator
  /-- An option without a value in the same argument. -/
  | flag (flag : Flag)
  /-- A long option with a value behind an equals sign. -/
  | assigned (flag : Flag) (value : String)
  /-- The short option with more characters in the same argument, or behind an equals sign. -/
  | cluster (flag : Flag) (tail : String)
  | unknown (text : String)
deriving DecidableEq, Repr

namespace CommandLine

/-- The text before the first equals sign and the text behind it, if there is one. -/
def splitAtEquals (cs : List Char) : List Char × Option (List Char) :=
  match cs.dropWhile (· ≠ '=') with
  | [] => (cs, none)
  | _ :: rest => (cs.takeWhile (· ≠ '='), some rest)

/-- Digits of any script, at least one, and perhaps a line feed at the end. -/
def isDigits (cs : List Char) : Bool :=
  let digits := if cs.getLast? = some '\n' then cs.dropLast else cs
  !digits.isEmpty && digits.all fun c => (Text.digitValue? c).isSome

/-- Whether an argument is a negative number. -/
def isNegativeNumber : List Char → Bool
  | '-' :: rest =>
    isDigits rest ||
      match rest.dropWhile fun c => (Text.digitValue? c).isSome with
      | '.' :: fraction => isDigits fraction
      | _ => false
  | _ => false

/-- The long options that start like an argument. -/
def startingLike (start : List Char) : List (String × Flag) :=
  Flag.spellings.filter fun entry => start.isPrefixOf entry.1.toList

/-- An option with the value behind its equals sign, if there is one. -/
def withValue (flag : Flag) : Option (List Char) → Token
  | none => .flag flag
  | some value => .assigned flag (String.ofList value)

/-- An argument that starts with a dash but stands for no option. -/
def notOption (cs : List Char) : Token :=
  if isNegativeNumber cs || cs.contains ' ' then .word (String.ofList cs)
  else .unknown (String.ofList cs)

/-- The form of an argument that starts with two dashes. -/
def longToken (cs : List Char) : Except UsageError Token :=
  let (start, value) := splitAtEquals cs
  match Flag.spellings.lookup (String.ofList cs), Flag.spellings.lookup (String.ofList start) with
  | some flag, _ => .ok (.flag flag)
  | none, some flag => .ok (withValue flag value)
  | none, none =>
    match startingLike start with
    | [] => .ok (notOption cs)
    | [(_, flag)] => .ok (withValue flag value)
    | several => .error (.ambiguous (String.ofList cs) (several.map (·.1)))

/-- The form of an argument before the options have ended. -/
def token (argument : String) : Except UsageError Token :=
  match argument.toList with
  | '-' :: '-' :: rest => longToken ('-' :: '-' :: rest)
  | ['-', 'h'] => .ok (.flag .help)
  | '-' :: 'h' :: '=' :: tail => .ok (.cluster .help (String.ofList tail))
  | '-' :: 'h' :: tail => .ok (.cluster .help (String.ofList tail))
  | '-' :: c :: rest => .ok (notOption ('-' :: c :: rest))
  | _ => .ok (.word argument)

/-- The forms of all arguments. -/
def tokens : List String → Except UsageError (List Token)
  | [] => .ok []
  | argument :: rest =>
    if argument = "--" then .ok (.separator :: rest.map .word)
    else
      match token argument with
      | .error error => .error error
      | .ok first => (tokens rest).map (first :: ·)

/-- What comes of more characters behind the short option: it may be repeated, and any other
character is a value that it does not take. -/
def clusterStop (flag : Flag) : List Char → Stop
  | ['h'] => .help
  | 'h' :: rest => clusterStop flag rest
  | tail => .mistake (.valueIgnored flag (String.ofList tail))

/-- What has been read of a command line: the options so far, the names of crates once they have
come, and what was not recognized, last one first. -/
structure Reading where
  config : ConfigChoice := .search
  manifestDir : Option String := none
  dryRun : Bool := false
  crates : Option (List String) := none
  unrecognized : List String := []

namespace Reading

/-- Takes a row of arguments that are no options.  The first row holds the names, and the two
dashes in it are dropped once. -/
def takeRow (reading : Reading) (row : List String) : Reading :=
  if row.isEmpty then reading
  else
    match reading.crates with
    | none => { reading with crates := some (row.erase "--") }
    | some _ => { reading with unrecognized := row.reverse ++ reading.unrecognized }

/-- Takes the value of an option. -/
def takeValue (reading : Reading) (flag : Flag) (value : String) : Reading :=
  match flag with
  | .config => { reading with config := if value = "--" then .nameless else .file value }
  | .manifestDir => { reading with manifestDir := if value = "--" then none else some value }
  | .help | .dryRun => reading

/-- What the command line asks for, if everything in it was recognized. -/
def finish (reading : Reading) : Except Stop Invocation :=
  if reading.unrecognized.isEmpty then
    .ok
      { crates := reading.crates.getD []
        config := reading.config
        manifestDir := reading.manifestDir
        dryRun := reading.dryRun }
  else .error (.mistake (.unrecognized reading.unrecognized.reverse))

end Reading

/-- Reads arguments by their forms, `row` being the arguments since the last option, last one
first. -/
def readTokens (reading : Reading) (row : List String) : List Token → Except Stop Invocation
  | [] => (reading.takeRow row.reverse).finish
  | .word text :: rest => readTokens reading (text :: row) rest
  | .separator :: rest => readTokens reading ("--" :: row) rest
  | .unknown text :: rest =>
    let reading := reading.takeRow row.reverse
    readTokens { reading with unrecognized := text :: reading.unrecognized } [] rest
  | .assigned flag value :: rest =>
    if flag.takesValue then
      readTokens ((reading.takeRow row.reverse).takeValue flag value) [] rest
    else .error (.mistake (.valueIgnored flag value))
  | .cluster flag tail :: _ => .error (clusterStop flag tail.toList)
  | .flag .help :: _ => .error .help
  | .flag .dryRun :: rest =>
    readTokens { reading.takeRow row.reverse with dryRun := true } [] rest
  | .flag .config :: .word value :: rest =>
    readTokens ((reading.takeRow row.reverse).takeValue .config value) [] rest
  | .flag .manifestDir :: .word value :: rest =>
    readTokens ((reading.takeRow row.reverse).takeValue .manifestDir value) [] rest
  | .flag flag :: _ => .error (.mistake (.valueExpected flag))

/-- What a command line asks for. -/
def read (arguments : List String) : Except Stop Invocation :=
  match tokens arguments with
  | .error error => .error (.mistake error)
  | .ok tokens => readTokens {} [] tokens

/-- How the program is called. -/
def usage : String :=
  "usage: crate-release [-h] [--config CONFIG] [--manifest-dir MANIFEST_DIR]\n" ++
  "                     [--dry-run]\n" ++
  "                     [crates ...]"

/-- The usage with a word on every argument. -/
def help : String :=
  usage ++ "\n\n" ++
  "Publish workspace crates to the registry in dependency order\n\n" ++
  "positional arguments:\n" ++
  "  crates                крейты для публикации (заменяют список по умолчанию)\n\n" ++
  "options:\n" ++
  "  -h, --help            show this help message and exit\n" ++
  "  --config CONFIG       путь к crate_release.toml\n" ++
  "  --manifest-dir MANIFEST_DIR\n" ++
  "                        корень cargo workspace\n" ++
  "  --dry-run             только показать команды cargo publish"

/-- A mistake as it is shown. -/
def complaint (error : UsageError) : String :=
  usage ++ "\ncrate-release: error: " ++ error.message

end CommandLine

end ReleaseTrain
