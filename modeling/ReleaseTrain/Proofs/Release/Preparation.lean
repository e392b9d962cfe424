import ReleaseTrain.Proofs.Release.Setup
import ReleaseTrain.Proofs.Release.Visibility

/-!
# Nothing starts before everything is prepared

A publication cannot be undone, so whatever can be found wrong without one has to be found wrong
before it.

* `Settings.Selected`: the file that the settings are taken from; `Settings.Unparsable`: a content
  that no settings can be read out of.
* `Plan.Unlistable`: a setting that is no list of words and cannot be made one.
* `Unfit`: what can be wrong with a release before it starts; `Unfit.not_prepared`: such a release
  is never prepared.
* `nothing_starts_unprepared`: the statement.

## Why the settings are not read as they are needed

Every setting is looked at before the first crate is, also one that only the second crate would
need.  If the flags were split when a crate is published, a quote that is not closed would be found
behind the first look at the registry; if the time limit were read at the first request, behind the
first run of cargo.
-/

namespace ReleaseTrain

/-! ## Files with settings -/

namespace Settings

/-- The file that settings are taken from: the one that is named if it is there, or else the first
one of the standard names that is. -/
inductive Selected (files : FileTree) (here : Place) : ConfigChoice → Path → Prop
  | named {name : String} (there : isPresent files here (Path.ofText name) = .ok true) :
      Selected files here (.file name) (Path.ofText name)
  | found {before after : List (List String)} {names : List String}
      (order : candidates = before ++ names :: after)
      (missing : ∀ others ∈ before,
        isPresent files here (Path.absolute (here ++ others)) = .ok false)
      (there : isPresent files here (Path.absolute (here ++ names)) = .ok true) :
      Selected files here .search (Path.absolute (here ++ names))

/-- A content that is no text, or a text that breaks the rules of its format. -/
def Unparsable (content : ByteArray) : Prop :=
  ∀ text, FileTree.decode? content = some text → ∃ fault, Toml.parse text = .error fault

variable {files : FileTree} {here : Place} {p : Path} {settings : Settings}

theorem read_of_unparsable {content : ByteArray} (found : contentOf files here p = .ok content)
    (broken : Unparsable content) : ∃ f, read files here p = .error f := by
  rw [read, found]
  dsimp only
  cases hdecode : FileTree.decode? content with
  | none => exact ⟨.notText, rfl⟩
  | some text =>
    obtain ⟨fault, hparse⟩ := broken text hdecode
    exact ⟨.ofToml fault, by simp only [hparse]⟩

open Dialogue

/-- A file that cannot be read is not passed over. -/
theorem not_unfolds_discover_of_read {before after : List (List String)} {names : List String}
    (missing : ∀ others ∈ before,
      isPresent files here (Path.absolute (here ++ others)) = .ok false)
    (there : isPresent files here (Path.absolute (here ++ names)) = .ok true) {f : Failure}
    (hread : read files here (Path.absolute (here ++ names)) = .error f)
    {es : List (Exchange world)} :
    ¬(discover files here (before ++ names :: after)).Unfolds es (.ok settings) := by
  induction before with
  | nil =>
    rw [List.nil_append, discover, there, ofExcept_ok, done_bind, if_pos rfl, hread, ofExcept_error,
      fail_bind, unfolds_fail_iff]
    rintro ⟨-, ho⟩
    cases ho
  | cons others before ih =>
    obtain ⟨hothers, hbefore⟩ := List.forall_mem_cons.mp missing
    rw [List.cons_append, discover, hothers, ofExcept_ok, done_bind, if_neg Bool.false_ne_true]
    exact ih hbefore

/-- No settings come from a file that is missing or cannot be read. -/
theorem not_unfolds_ofFile
    (h : isPresent files here p ≠ .ok true ∨ ∃ f, read files here p = .error f)
    {es : List (Exchange world)} : ¬(ofFile files here p).Unfolds es (.ok settings) := by
  rw [ofFile, unfolds_ofExcept_bind_iff]
  rintro (⟨f, -, -, ho⟩ | ⟨present, hpresent, hrest⟩)
  · cases ho
  cases present with
  | true =>
    obtain ⟨f, hread⟩ := h.resolve_left (not_not_intro hpresent)
    rw [if_pos rfl, hread, ofExcept_error, fail_bind, unfolds_fail_iff] at hrest
    cases hrest.2
  | false =>
    rw [if_neg Bool.false_ne_true, Release.unfolds_warn_iff] at hrest
    obtain ⟨rest, -, hrest⟩ := hrest
    cases (unfolds_fail_iff.mp hrest).2

end Settings

/-! ## Lists of words -/

namespace Plan

/-- A setting that is no list of words and cannot be made one: a text that cannot be split, or
something present that has no members. -/
inductive Unlistable : Value → Prop
  | text {t : Text} {why : Text.Words.Unsplittable}
      (unsplittable : Text.Words.split t.shown = .error why) : Unlistable (.text t)
  | single {v : Value} (present : v.isTruthy = true) (memberless : v.members? = none) :
      Unlistable v

theorem split_of_isEmpty {t : Text} (h : t.isEmpty = true) : Text.Words.split t.shown = .ok [] := by
  have hshown : t.shown = "" := by
    cases t with
    | whole s => exact String.isEmpty_iff.mp h
    | torn points =>
      obtain rfl := List.isEmpty_iff.mp h
      rfl
  rw [hshown]
  rfl

theorem Unlistable.exists_listOf {v : Value} (h : Unlistable v) : ∃ f, listOf v = .error f := by
  cases h with
  | @text t why unsplittable =>
    have hpresent : (Value.text t).isTruthy = true := by
      cases hempty : t.isEmpty with
      | false => exact congrArg Bool.not hempty
      | true =>
        rw [split_of_isEmpty hempty] at unsplittable
        cases unsplittable
    rw [listOf, if_pos hpresent]
    exact ⟨.unusable (.unsplittable why), by simp only [unsplittable]⟩
  | single present memberless =>
    unfold listOf
    rw [if_pos present]
    cases v with
    | text t => cases memberless
    | list items => cases memberless
    | table entries => cases memberless
    | _ => exact ⟨_, rfl⟩

end Plan

/-! ## Releases that cannot start -/

namespace Release

open Dialogue Publication

/-- What can be wrong with a release before it starts, given what the loading of its settings has
come to. -/
inductive Unfit (around : Surroundings) (asked : Invocation) (loaded : Except Failure Settings) :
    Prop
  /-- The file that the command line names is missing. -/
  | missing {name : String} (named : asked.config = .file name)
      (absent : Settings.isPresent around.files around.here (Path.ofText name) ≠ .ok true)
  /-- The file that the settings are taken from breaks the rules of its format. -/
  | unparsable {p : Path} {content : ByteArray}
      (selected : Settings.Selected around.files around.here asked.config p)
      (found : Settings.contentOf around.files around.here p = .ok content)
      (broken : Settings.Unparsable content)
  /-- The crates of the settings count, because the command line names none. -/
  | crates {settings : Settings} {v : Value} (settled : loaded = .ok settings)
      (unnamed : asked.crates = []) (setting : settings.get? "crates" = some v)
      (unlistable : Plan.Unlistable v)
  /-- The flags count whatever the command line says. -/
  | flags {settings : Settings} {v : Value} (settled : loaded = .ok settings)
      (setting : settings.get? "publish_flags" = some v) (unlistable : Plan.Unlistable v)
  /-- The directory of the workspace has no manifest. -/
  | homeless {settings : Settings} (settled : loaded = .ok settings)
      (bare : ∀ t directory, directoryOf asked settings = .text t →
        around.files.resolve around.here (Path.ofText t.shown) = .ok directory →
          around.files.isPresent [] (directory.join ⟨.relative, ["Cargo.toml"]⟩) ≠ .ok true)
  /-- The address of the registry is no text. -/
  | addressless {settings : Settings} (settled : loaded = .ok settings)
      (wrong : ∀ url, settings.get? "registry_url" ≠ some (.text url))
  /-- The time limit for the registry is no number of seconds. -/
  | timeless {settings : Settings} {f : Failure} (settled : loaded = .ok settings)
      (wrong : secondsOf ((settings.get? "http_timeout").getD (.whole 30)) = .error f)

variable {around : Surroundings} {asked : Invocation} {settings : Settings}

/-- The settings of a selected file that cannot be read are not loaded. -/
theorem not_unfolds_settingsFor_of_selected {p : Path} {f : Failure} {es : List (Exchange world)}
    (selected : Settings.Selected around.files around.here asked.config p)
    (hread : Settings.read around.files around.here p = .error f) :
    ¬(settingsFor around asked.config).Unfolds es (.ok settings) := by
  generalize asked.config = choice at selected
  cases selected with
  | named there => exact Settings.not_unfolds_ofFile (.inr ⟨f, hread⟩)
  | found order missing there =>
    rw [settingsFor, Settings.load, order]
    exact Settings.not_unfolds_discover_of_read missing there hread

/-- A release with something wrong is not prepared, whatever settings it has loaded. -/
theorem Unfit.not_prepared {loaded : Except Failure Settings} (h : Unfit around asked loaded)
    {es : List (Exchange world)} (hload : (settingsFor around asked.config).Unfolds es loaded)
    (hloaded : loaded = .ok settings) {plan : Plan} {workspace : Workspace}
    {client : Registry.Client} : ¬Prepared around asked settings plan workspace client := by
  rintro ⟨planned, opened, connected⟩
  subst hloaded
  cases h with
  | missing named absent =>
    rw [named] at hload
    exact Settings.not_unfolds_ofFile (.inl absent) hload
  | unparsable selected found broken =>
    obtain ⟨f, hread⟩ := Settings.read_of_unparsable found broken
    exact not_unfolds_settingsFor_of_selected selected hread hload
  | crates settled unnamed setting unlistable =>
    cases settled
    obtain ⟨token, crates, flags, -, hcrates, -, -⟩ := Plan.exists_of_ofSettings planned
    obtain ⟨f, hf⟩ := unlistable.exists_listOf
    rw [unnamed, setting, Option.getD_some, Plan.crateNames, hf] at hcrates
    cases hcrates
  | flags settled setting unlistable =>
    cases settled
    obtain ⟨token, crates, flags, -, -, hflags, -⟩ := Plan.exists_of_ofSettings planned
    obtain ⟨f, hf⟩ := unlistable.exists_listOf
    rw [setting, Option.getD_some, hf] at hflags
    cases hflags
  | homeless settled bare =>
    cases settled
    obtain ⟨t, ht, hresolve, hpresent⟩ := exists_manifest_of_workspaceIn opened
    exact bare t workspace.directory ht hresolve hpresent
  | addressless settled wrong =>
    cases settled
    obtain ⟨url, hurl, -⟩ := exists_address_of_clientOf connected
    exact wrong url hurl
  | timeless settled wrong =>
    cases settled
    obtain ⟨limit, hlimit⟩ := exists_limit_of_clientOf connected
    rw [wrong] at hlimit
    cases hlimit

/-- **Nothing starts before everything is prepared.**  Let the arguments of a release be such that
they can be read, and let there be anything wrong with it: the file with the settings that is named
is missing, the one that is selected cannot be parsed, the crates that count or the flags are no
list of words, the directory of the workspace has no manifest, the address of the registry is no
text, or the time limit is no number of seconds.  Then the program does not end with the code
zero, and all that it does is to write lines: it runs no cargo, asks no registry and does not
wait. -/
theorem nothing_starts_unprepared {σ : Type} (around : Surroundings) (arguments : List String)
    (asked : Invocation) (partner : Partner world σ) (s : σ)
    (hread : CommandLine.read arguments = .ok asked)
    (hunfit : Unfit around asked ((settingsFor around asked.config).play partner s).outcome) :
    ((run around arguments).play partner s).outcome ≠ .ok 0 ∧
      ∀ e ∈ ((run around arguments).play partner s).exchanges,
        (∃ line, e = ⟨.say line, ()⟩) ∨ ∃ line, e = ⟨.warn line, ()⟩ := by
  rcases setup_cases around hread partner s with ⟨hlines, hzero⟩ | ⟨settings, hloaded, hbegun⟩
  · refine ⟨hzero, fun e he => ?_⟩
    obtain ⟨question, answer⟩ := e
    have hline := hlines _ he
    cases question with
    | say line => exact .inl ⟨line, rfl⟩
    | warn line => exact .inr ⟨line, rfl⟩
    | _ => cases hline
  · have hload := unfolds_play partner (settingsFor around asked.config) s
    obtain ⟨plan, workspace, client, hprepared⟩ := hbegun.exists_prepared
    exact absurd hprepared (hunfit.not_prepared hload hloaded)

/-- A directory with a manifest, and with settings whose flags leave a quote open. -/
def carelessWorkspace : Surroundings :=
  ⟨⟨[(["Cargo.toml"], .file ⟨#[]⟩),
    (["crate_release.toml"], .file "publish_flags = \"--features 'ledger\"".toByteArray)]⟩, [], []⟩

/-- The open quote is found before the crate is looked at, although the crate is there and its
publication would be accepted. -/
theorem nothing_starts_unprepared_at_open_quote :
    CommandLine.read ["core"] = .ok ⟨["core"], .search, none, false⟩ ∧
      Unfit carelessWorkspace ⟨["core"], .search, none, false⟩
        ((settingsFor carelessWorkspace .search).play oneCrateWorld false).outcome ∧
      ((run carelessWorkspace ["core"]).play oneCrateWorld false).outcome ≠ .ok 0 ∧
      ∀ e ∈ ((run carelessWorkspace ["core"]).play oneCrateWorld false).exchanges,
        (∃ line, e = ⟨.say line, ()⟩) ∨ ∃ line, e = ⟨.warn line, ()⟩ := by
  have hread : CommandLine.read ["core"] = .ok ⟨["core"], .search, none, false⟩ := rfl
  have hflags : ((settingsFor carelessWorkspace .search).play oneCrateWorld
      false).outcome.toOption.any (·.hasText "publish_flags" "--features 'ledger") = true := by
    decide +kernel
  obtain ⟨settings, hloaded, htext⟩ := exists_of_any_toOption hflags
  have hsplit : Text.Words.split "--features 'ledger" = .error .unclosedQuote := rfl
  have hunfit : Unfit carelessWorkspace ⟨["core"], .search, none, false⟩
      ((settingsFor carelessWorkspace .search).play oneCrateWorld false).outcome :=
    .flags hloaded (Settings.get?_of_hasText htext) (.text hsplit)
  exact ⟨hread, hunfit,
    nothing_starts_unprepared carelessWorkspace ["core"] _ oneCrateWorld false hread hunfit⟩

end Release

end ReleaseTrain
