import ReleaseTrain.Proofs.Steps
import ReleaseTrain.Cargo.Workspace
import ReleaseTrain.Proofs.Dialogue.Unfolding
import ReleaseTrain.Proofs.Entries

/-!
# Looking up a crate

A workspace remembers nothing, so every lookup is one run of cargo and what is made
of its answer.

* `run_eq`, `crate_eq`: a run is one question, and so is a lookup; `lookup` is what it
  makes of the answer.
* `Finished.Describes`, `Finished.Locates`: what cargo has printed about the version and the
  manifest of a crate when a lookup succeeds, and `describes_of_lookup`, `locates_of_lookup`.
-/

namespace ReleaseTrain

open Dialogue

/-! ## One run of cargo -/

namespace Workspace

/-- What is made of the answer to a run of cargo: if the system did not start it, that
is a failure of cargo. -/
def started : Except Failure Finished → Except Failure Finished
  | .ok finished => .ok finished
  | .error f => .error (if f.isOfSystem then .cargo (.notStarted f.message) else f)

/-- The crate of a name in a description, which must be there. -/
def select (workspace : Workspace) (name : String) (metadata : Value) : Except Failure Crate :=
  match Crate.inMetadata name metadata with
  | .error f => .error f
  | .ok none => .error (.cargo (.unknownCrate name workspace.directory))
  | .ok (some crate) => .ok crate

/-- What a lookup of a crate makes of the answer of cargo. -/
def lookup (workspace : Workspace) (name : String) (answer : Except Failure Finished) :
    Except Failure Crate := do
  let finished ← started answer
  let metadata ← readMetadata finished
  workspace.select name metadata

/-- The question for the description of a workspace, with its answer. -/
abbrev described (workspace : Workspace) (answer : Except Failure Finished) : Exchange world :=
  ⟨.cargo workspace.directory Cargo.describeArguments true, answer⟩

variable {workspace : Workspace} {es : List (Exchange world)}

theorem run_eq (arguments : List String) (captured : Bool) :
    workspace.run arguments captured =
      .ask (.cargo workspace.directory arguments captured) fun answer =>
        .ofExcept (started answer) := by
  rw [run, World.cargo, ask_bind]
  refine congrArg _ (funext fun answer => ?_)
  cases answer with
  | error f => rfl
  | ok finished => rfl

/-- A lookup asks cargo once. -/
theorem crate_eq (name : String) :
    workspace.crate name =
      .ask (.cargo workspace.directory Cargo.describeArguments true) fun answer =>
        .ofExcept (workspace.lookup name answer) := by
  rw [crate, metadata, run_eq, ask_bind, ask_bind]
  refine congrArg _ (funext fun answer => ?_)
  rw [lookup, ofExcept_bind, bind_assoc]
  refine congrArg _ (funext fun finished => ?_)
  rw [ofExcept_bind]
  refine congrArg _ (funext fun metadata => ?_)
  rw [select]
  cases Crate.inMetadata name metadata with
  | error f => rfl
  | ok found =>
    cases found with
    | none => rfl
    | some crate => rfl

end Workspace

/-! ## What a lookup has found -/

/-- Cargo has ended well and printed a description whose first package of a name has a
version. -/
def Finished.Describes (finished : Finished) (name : String) (version : Value) : Prop :=
  finished.code = 0 ∧ ∃ metadata packages package,
    Json.parse finished.output = .ok (.table metadata) ∧
    Entries.get? (.whole "packages") metadata = some (.list packages) ∧
    packages.find? (Value.hasText "name" name) = some (.table package) ∧
    Entries.get? (.whole "version") package = some version

/-- Cargo has ended well and printed a description whose first package of a name has a
manifest. -/
def Finished.Locates (finished : Finished) (name : String) (manifest : Text) : Prop :=
  finished.code = 0 ∧ ∃ metadata packages package,
    Json.parse finished.output = .ok (.table metadata) ∧
    Entries.get? (.whole "packages") metadata = some (.list packages) ∧
    packages.find? (Value.hasText "name" name) = some (.table package) ∧
    Entries.get? (.whole "manifest_path") package = some (.text manifest)

namespace Crate

variable {name : String} {crate : Crate} {package : Entries Text Value} {items : List Value}

theorem version_of_ofPackage (h : ofPackage name package = .ok crate) :
    ∃ version, Entries.get? (.whole "version") package = some version ∧
      crate.version = version.sentence := by
  unfold ofPackage field at h
  cases hversion : Entries.get? (.whole "version") package with
  | none =>
    rw [hversion] at h
    cases h
  | some version =>
    rw [hversion] at h
    dsimp only at h
    split at h
    · cases h
    · cases h
      exact ⟨version, rfl, rfl⟩
    · cases h

theorem manifest_of_ofPackage (h : ofPackage name package = .ok crate) :
    ∃ manifest, Entries.get? (.whole "manifest_path") package = some (.text manifest) ∧
      crate.manifest = Path.ofText manifest.shown := by
  unfold ofPackage at h
  split at h
  next => cases h
  next =>
    unfold field at h
    cases hmanifest : Entries.get? (.whole "manifest_path") package with
    | none =>
      rw [hmanifest] at h
      cases h
    | some v =>
      rw [hmanifest] at h
      cases v with
      | text manifest =>
        obtain rfl := Except.ok.inj h
        exact ⟨manifest, rfl, rfl⟩
      | _ => cases h

theorem inPackages_of_hasText (h : Value.hasText "name" name (.table package) = true) :
    inPackages name (.table package :: items) = (ofPackage name package).map some := by
  rw [inPackages, Value.hasText_table.mp h]
  exact if_pos rfl

theorem inPackages_of_not_hasText (h : Value.hasText "name" name (.table package) = false) :
    inPackages name (.table package :: items) = inPackages name items := by
  rw [inPackages]
  split
  next t ht =>
    refine if_neg ?_
    rintro rfl
    rw [Value.hasText_table.mpr ht] at h
    cases h
  next => rfl

/-- The crate that is taken out of packages is the first one of its name. -/
theorem find?_of_inPackages (h : inPackages name items = .ok (some crate)) :
    ∃ package, items.find? (Value.hasText "name" name) = some (.table package) ∧
      ofPackage name package = .ok crate := by
  induction items with
  | nil => cases h
  | cons v rest ih =>
    cases v with
    | table package =>
      cases hname : Value.hasText "name" name (.table package) with
      | true =>
        rw [List.find?_cons_of_pos hname]
        rw [inPackages_of_hasText hname] at h
        cases hcrate : ofPackage name package with
        | error f =>
          rw [hcrate] at h
          cases h
        | ok found =>
          rw [hcrate] at h
          cases h
          exact ⟨package, rfl, hcrate⟩
      | false =>
        rw [List.find?_cons_of_neg (by simp [hname])]
        rw [inPackages_of_not_hasText hname] at h
        exact ih h
    | _ => cases h

/-- The crate that is found in a description is the first package of its name. -/
theorem first_of_inMetadata {metadata : Value} (h : inMetadata name metadata = .ok (some crate)) :
    ∃ entries packages package, metadata = .table entries ∧
      Entries.get? (.whole "packages") entries = some (.list packages) ∧
      packages.find? (Value.hasText "name" name) = some (.table package) ∧
      ofPackage name package = .ok crate := by
  cases metadata with
  | table entries =>
    rw [inMetadata] at h
    split at h
    next => cases h
    next packages hpackages =>
      split at h
      next => cases h
      next members hmembers =>
        obtain ⟨package, hfirst, hcrate⟩ := find?_of_inPackages h
        obtain rfl := Value.exists_list_of_find?_members hmembers hfirst
        exact ⟨entries, members, package, rfl, hpackages, hfirst, hcrate⟩
  | _ => cases h

end Crate

namespace Workspace

variable {workspace : Workspace} {name : String} {answer : Except Failure Finished}
  {crate : Crate}

theorem eq_ok_of_started {finished : Finished} (h : started answer = .ok finished) :
    answer = .ok finished := by
  cases answer with
  | error f => cases h
  | ok finished' => exact h

theorem parse_of_readMetadata {finished : Finished} {metadata : Value}
    (h : readMetadata finished = .ok metadata) :
    finished.code = 0 ∧ Json.parse finished.output = .ok metadata := by
  unfold readMetadata at h
  by_cases hcode : finished.code = 0
  · rw [if_neg (not_not_intro hcode)] at h
    cases hparse : Json.parse finished.output with
    | error error =>
      rw [hparse] at h
      cases h
    | ok found =>
      rw [hparse] at h
      cases h
      exact ⟨hcode, rfl⟩
  · rw [if_pos hcode] at h
    cases h

theorem inMetadata_of_select {metadata : Value} (h : workspace.select name metadata = .ok crate) :
    Crate.inMetadata name metadata = .ok (some crate) := by
  unfold select at h
  split at h
  · cases h
  · cases h
  · cases h
    assumption

/-- A lookup that succeeds has found the first package of the name. -/
theorem exists_package_of_lookup (h : workspace.lookup name answer = .ok crate) :
    ∃ finished metadata packages package, answer = .ok finished ∧ finished.code = 0 ∧
      Json.parse finished.output = .ok (.table metadata) ∧
      Entries.get? (.whole "packages") metadata = some (.list packages) ∧
      packages.find? (Value.hasText "name" name) = some (.table package) ∧
      Crate.ofPackage name package = .ok crate := by
  obtain ⟨finished, hstarted, h⟩ := exists_of_bind_eq_ok h
  obtain ⟨metadata, hread, h⟩ := exists_of_bind_eq_ok h
  obtain ⟨hcode, hparse⟩ := parse_of_readMetadata hread
  obtain ⟨entries, packages, package, rfl, hpackages, hfirst, hcrate⟩ :=
    Crate.first_of_inMetadata (inMetadata_of_select h)
  exact ⟨finished, entries, packages, package, eq_ok_of_started hstarted, hcode, hparse,
    hpackages, hfirst, hcrate⟩

/-- A lookup that succeeds has been told the version of the crate. -/
theorem describes_of_lookup (h : workspace.lookup name answer = .ok crate) :
    ∃ finished version, answer = .ok finished ∧ finished.Describes name version ∧
      crate.version = version.sentence := by
  obtain ⟨finished, metadata, packages, package, hanswer, hcode, hparse, hpackages, hfirst,
    hcrate⟩ := exists_package_of_lookup h
  obtain ⟨version, hversion, hsentence⟩ := Crate.version_of_ofPackage hcrate
  exact ⟨finished, version, hanswer,
    ⟨hcode, metadata, packages, package, hparse, hpackages, hfirst, hversion⟩, hsentence⟩

/-- A lookup that succeeds has been told the manifest of the crate. -/
theorem locates_of_lookup (h : workspace.lookup name answer = .ok crate) :
    ∃ finished manifest, answer = .ok finished ∧ finished.Locates name manifest ∧
      crate.manifest = Path.ofText manifest.shown := by
  obtain ⟨finished, metadata, packages, package, hanswer, hcode, hparse, hpackages, hfirst,
    hcrate⟩ := exists_package_of_lookup h
  obtain ⟨manifest, hmanifest, hpath⟩ := Crate.manifest_of_ofPackage hcrate
  exact ⟨finished, manifest, hanswer,
    ⟨hcode, metadata, packages, package, hparse, hpackages, hfirst, hmanifest⟩, hpath⟩

/-- A version that is told was read out of a description by cargo. -/
theorem exists_describes_of_unfolds_version {es : List (Exchange world)} {version : String}
    (h : (workspace.version name).Unfolds es (.ok version)) :
    ∃ finished v, es = [workspace.described (.ok finished)] ∧ finished.Describes name v ∧
      version = v.sentence := by
  rw [Workspace.version, crate_eq, unfolds_ask_bind_iff] at h
  obtain ⟨answer, rest, rfl, h⟩ := h
  rw [unfolds_ofExcept_bind_iff] at h
  rcases h with ⟨f, -, -, hf⟩ | ⟨crate, hcrate, h⟩
  · cases hf
  rw [unfolds_pure_iff] at h
  obtain ⟨rfl, hversion⟩ := h
  cases hversion
  obtain ⟨finished, v, rfl, hdescribes, hsentence⟩ := describes_of_lookup hcrate
  exact ⟨finished, v, rfl, hdescribes, hsentence⟩

end Workspace

end ReleaseTrain
