import ReleaseTrain.Proofs.Cargo.Publishing

/-!
# When a lookup fails in an orderly way

A lookup of a crate may fail, and then it should be cargo that has failed, because such a
failure is reported.  Whether it is depends on what cargo has printed.

* `Crate.IsComplete`, `Crate.OrderlyAmong`, `Crate.OrderlyIn`: descriptions in which a lookup
  runs into nothing unforeseen.
* `Finished.Orderly`: the same for what a run of cargo leaves behind.
* `Workspace.lookup_of_orderly`, `Workspace.lookup_of_not_orderly`: a lookup fails as cargo or
  not at all in what is orderly, and in anything else it fails without a report.
* `Workspace.lookup_orderly_iff`: so the two are the same, and `Workspace.told_orderly_iff`: it is
  so with whatever is told about a crate.

## What only has to be in order up to the crate

The packages are gone through up to the first one of the name, so whatever stands behind it does
not matter to a lookup, and the description may be orderly for one crate and not for another.
-/

namespace ReleaseTrain

namespace Crate

variable {name : String} {package : Entries Text Value} {items : List Value}

/-- A package has all that is needed for a crate. -/
def IsComplete (package : Entries Text Value) : Prop :=
  (∃ version, Entries.get? (.whole "version") package = some version) ∧
    ∃ manifest, Entries.get? (.whole "manifest_path") package = some (.text manifest)

/-- Up to the first package of a name there are only tables, and this package is complete. -/
inductive OrderlyAmong (name : String) : List Value → Prop
  | nil : OrderlyAmong name []
  | found {package : Entries Text Value} {rest : List Value}
      (named : Value.hasText "name" name (.table package) = true) (complete : IsComplete package) :
      OrderlyAmong name (.table package :: rest)
  | other {package : Entries Text Value} {rest : List Value}
      (others : Value.hasText "name" name (.table package) = false)
      (orderly : OrderlyAmong name rest) : OrderlyAmong name (.table package :: rest)

/-- A description is a table, and if it has packages, they are orderly. -/
def OrderlyIn (name : String) (metadata : Value) : Prop :=
  ∃ entries, metadata = .table entries ∧
    ∀ packages, Entries.get? (.whole "packages") entries = some packages →
      ∃ members, packages.members? = some members ∧ OrderlyAmong name members

/-! ## One package -/

theorem ofPackage_of_complete (name : String) (h : IsComplete package) :
    ∃ crate, ofPackage name package = .ok crate := by
  obtain ⟨⟨version, hversion⟩, manifest, hmanifest⟩ := h
  rw [ofPackage, field, hversion, field, hmanifest]
  exact ⟨_, rfl⟩

theorem ofPackage_of_not_complete (name : String) (h : ¬IsComplete package) :
    ∃ f, ofPackage name package = .error f ∧ f.isReported = false := by
  rw [ofPackage]
  cases hversion : Entries.get? (.whole "version") package with
  | none =>
    rw [field, hversion]
    exact ⟨_, rfl, rfl⟩
  | some version =>
    rw [field, hversion, field]
    cases hmanifest : Entries.get? (.whole "manifest_path") package with
    | none => exact ⟨_, rfl, rfl⟩
    | some manifest =>
      cases manifest with
      | text t => exact absurd ⟨⟨version, hversion⟩, t, hmanifest⟩ h
      | _ => exact ⟨_, rfl, rfl⟩

/-! ## Packages -/

theorem inPackages_of_orderly (h : OrderlyAmong name items) :
    ∃ found, inPackages name items = .ok found := by
  induction h with
  | nil => exact ⟨none, rfl⟩
  | found named complete =>
    obtain ⟨crate, hcrate⟩ := ofPackage_of_complete name complete
    exact ⟨some crate, by rw [inPackages_of_hasText named, hcrate]; rfl⟩
  | other others _ ih => rwa [inPackages_of_not_hasText others]

theorem inPackages_of_not_orderly (h : ¬OrderlyAmong name items) :
    ∃ f, inPackages name items = .error f ∧ f.isReported = false := by
  induction items with
  | nil => exact absurd .nil h
  | cons v rest ih =>
    cases v with
    | table package =>
      cases hname : Value.hasText "name" name (.table package) with
      | true =>
        obtain ⟨f, hf, hreported⟩ := ofPackage_of_not_complete name
          fun complete => h (.found hname complete)
        exact ⟨f, by rw [inPackages_of_hasText hname, hf]; rfl, hreported⟩
      | false =>
        rw [inPackages_of_not_hasText hname]
        exact ih fun orderly => h (.other hname orderly)
    | _ => exact ⟨_, rfl, rfl⟩

/-! ## Descriptions -/

theorem inMetadata_of_orderly {metadata : Value} (h : OrderlyIn name metadata) :
    ∃ found, inMetadata name metadata = .ok found := by
  obtain ⟨entries, rfl, hpackages⟩ := h
  rw [inMetadata]
  cases hget : Entries.get? (.whole "packages") entries with
  | none => exact ⟨none, rfl⟩
  | some packages =>
    obtain ⟨members, hmembers, horderly⟩ := hpackages packages hget
    simp only [hmembers]
    exact inPackages_of_orderly horderly

theorem inMetadata_of_not_orderly {metadata : Value} (h : ¬OrderlyIn name metadata) :
    ∃ f, inMetadata name metadata = .error f ∧ f.isReported = false := by
  cases metadata with
  | table entries =>
    rw [inMetadata]
    cases hget : Entries.get? (.whole "packages") entries with
    | none =>
      refine absurd ⟨entries, rfl, fun packages hpackages => ?_⟩ h
      rw [hget] at hpackages
      cases hpackages
    | some packages =>
      dsimp only
      cases hmembers : packages.members? with
      | none => exact ⟨_, rfl, rfl⟩
      | some members =>
        refine inPackages_of_not_orderly fun horderly => h ⟨entries, rfl, fun packages' h' => ?_⟩
        obtain rfl := Option.some.inj (hget.symm.trans h')
        exact ⟨members, hmembers, horderly⟩
  | _ => exact ⟨_, rfl, rfl⟩

end Crate

/-! ## Runs of cargo -/

/-- What a run of cargo has left behind is orderly for a lookup: the run has failed, or what it
has printed breaks the grammar, or it is a description that is orderly. -/
inductive Finished.Orderly (finished : Finished) (name : String) : Prop
  | failed (code : finished.code ≠ 0)
  | broken (error : Json.Error) (read : Json.parse finished.output = .error error)
      (grammar : error.isBroken = true)
  | described (metadata : Value) (read : Json.parse finished.output = .ok metadata)
      (orderly : Crate.OrderlyIn name metadata)

namespace Workspace

variable {workspace : Workspace} {name : String} {finished : Finished}

theorem isReported_ofJson (error : Json.Error) : (Failure.ofJson error).isReported = false := by
  cases error <;> rfl

theorem lookup_ok :
    workspace.lookup name (.ok finished) = readMetadata finished >>= workspace.select name := rfl

theorem readMetadata_of_code (h : finished.code ≠ 0) :
    readMetadata finished = .error (.cargo (.undescribed finished.complaint finished.code)) :=
  if_pos h

theorem readMetadata_of_ok (hcode : finished.code = 0) {metadata : Value}
    (hread : Json.parse finished.output = .ok metadata) : readMetadata finished = .ok metadata := by
  rw [readMetadata, if_neg (not_not_intro hcode), hread]

theorem readMetadata_of_error (hcode : finished.code = 0) {error : Json.Error}
    (hread : Json.parse finished.output = .error error) :
    readMetadata finished =
      .error (if error.isBroken then .cargo (.unreadable error) else .ofJson error) := by
  rw [readMetadata, if_neg (not_not_intro hcode), hread]

/-- In what is orderly a lookup fails as cargo, if it fails. -/
theorem lookup_of_orderly (h : finished.Orderly name) {f : Failure}
    (hf : workspace.lookup name (.ok finished) = .error f) : ∃ g, f = .cargo g := by
  rw [lookup_ok] at hf
  by_cases hcode : finished.code = 0
  · cases h with
    | failed code => exact absurd hcode code
    | broken error read grammar =>
      rw [readMetadata_of_error hcode read, if_pos grammar] at hf
      exact ⟨_, (Except.error.inj hf).symm⟩
    | described metadata read orderly =>
      obtain ⟨found, hfound⟩ := Crate.inMetadata_of_orderly orderly
      have hselect : workspace.select name metadata = .error f := by
        rwa [readMetadata_of_ok hcode read] at hf
      rw [select, hfound] at hselect
      cases found with
      | none => exact ⟨_, (Except.error.inj hselect).symm⟩
      | some crate => cases hselect
  · rw [readMetadata_of_code hcode] at hf
    exact ⟨_, (Except.error.inj hf).symm⟩

/-- In what is not orderly a lookup fails, and the failure is one that is not reported. -/
theorem lookup_of_not_orderly (workspace : Workspace) (h : ¬finished.Orderly name) :
    ∃ f, workspace.lookup name (.ok finished) = .error f ∧ f.isReported = false := by
  have hcode : finished.code = 0 := Decidable.byContradiction fun hcode => h (.failed hcode)
  rw [lookup_ok]
  cases hread : Json.parse finished.output with
  | error error =>
    rw [readMetadata_of_error hcode hread]
    cases hbroken : error.isBroken with
    | true => exact absurd (.broken error hread hbroken) h
    | false => exact ⟨.ofJson error, rfl, isReported_ofJson error⟩
  | ok metadata =>
    obtain ⟨f, hf, hreported⟩ := Crate.inMetadata_of_not_orderly
      fun orderly => h (.described metadata hread orderly)
    have hselect : workspace.select name metadata = .error f := by rw [select, hf]
    rw [readMetadata_of_ok hcode hread]
    exact ⟨f, hselect, hreported⟩

/-- **A lookup fails in an orderly way exactly in what is orderly.**  If cargo was not started,
it was the system that did not start it. -/
theorem lookup_orderly_iff (workspace : Workspace) {answer : Except Failure Finished}
    (hstart : ∀ f, answer = .error f → f.isOfSystem = true) :
    (∀ f, workspace.lookup name answer = .error f → ∃ g, f = .cargo g) ↔
      ∀ finished, answer = .ok finished → finished.Orderly name := by
  constructor
  · rintro h finished rfl
    refine Classical.byContradiction fun hdisorder => ?_
    obtain ⟨f, hf, hreported⟩ := lookup_of_not_orderly workspace hdisorder
    obtain ⟨g, rfl⟩ := h f hf
    cases hreported
  · intro h f hf
    cases answer with
    | ok finished => exact lookup_of_orderly (h finished rfl) hf
    | error f' =>
      have hstarted : workspace.lookup name (.error f') =
          .error (if f'.isOfSystem then .cargo (.notStarted f'.message) else f') := rfl
      rw [hstarted, if_pos (hstart f' rfl)] at hf
      exact ⟨_, (Except.error.inj hf).symm⟩

/-! ## What is told about a crate -/

open Dialogue

section Told

variable {σ α : Type} {partner : Partner world σ} {s : σ} (part : Crate → α)

/-- What is told about a crate is part of what its lookup gives. -/
theorem outcome_crate_bind :
    ((workspace.crate name >>= fun crate => pure (part crate)).play partner s).outcome =
      (workspace.lookup name
        (partner (.cargo workspace.directory Cargo.describeArguments true) s).1).map part := by
  rw [crate_eq, ask_bind]
  simp only [play, Course.behind]
  cases workspace.lookup name
      (partner (.cargo workspace.directory Cargo.describeArguments true) s).1 with
  | error g => rfl
  | ok crate => rfl

/-- What cannot be told about a crate is a failure of cargo exactly if what cargo has left behind
is orderly.  The version of a crate and its manifest are told in this way. -/
theorem told_orderly_iff
    (hstart : ∀ f, (partner (.cargo workspace.directory Cargo.describeArguments true) s).1 =
      .error f → f.isOfSystem = true) :
    (∀ f, ((workspace.crate name >>= fun crate => pure (part crate)).play partner s).outcome =
        .error f → ∃ g, f = .cargo g) ↔
      ∀ finished, (partner (.cargo workspace.directory Cargo.describeArguments true) s).1 =
        .ok finished → finished.Orderly name := by
  rw [← lookup_orderly_iff workspace hstart, outcome_crate_bind]
  cases workspace.lookup name
      (partner (.cargo workspace.directory Cargo.describeArguments true) s).1 with
  | error g => simp [Except.map]
  | ok crate => simp [Except.map]

end Told

end Workspace

end ReleaseTrain
