import ReleaseTrain.Proofs.Settings.Overlay
import ReleaseTrain.Proofs.Settings.Sections

/-!
# Three places for the same settings

Settings stand at the top of a file of their own, under `tool.crate_release` in such a file, or
under `tool.crate_release` in the file that is shared with other tools.  A release does not depend
on which of these it is, nor on what else is in the file.

* `Keeps`: the places where a document can keep settings.
* `section?_of_keeps`: the section of a document that keeps settings is these settings.
* `places_agree`: the statement.

## What else may be in the file

Next to the section there may be anything that can be read at all, also what cannot be put together;
only a file that keeps its settings at the top consists of them.
-/

namespace ReleaseTrain

namespace Settings

open Toml Dialogue

/-- Where a document from a file of the given name keeps settings: at its top if it is not the
shared file, or under `tool.crate_release`. -/
inductive Keeps (name : String) (document : Toml.Table) (settings : Entries Text Value) : Prop
  | atTop (own : name ≠ sharedName) (whole : document.plain = .ok settings)
      (toolless : settings.get? (.whole "tool") = none)
  | below (crates : HasSection document (.table settings))

variable {P : Value → Prop} {name : String} {document : Toml.Table} {table : Entries Text Value}

/-- The section of a document that keeps settings is these settings. -/
theorem section?_of_keeps (hsound : document.Sound P) (h : Keeps name document table) :
    Settings.section? name document = finished (.ok (.table table)) := by
  cases h with
  | atTop own whole toolless =>
    rw [section?_of_sectionless (.toolless whole toolless) hsound, if_neg own, whole]
    rfl
  | below crates => exact section?_of_hasSection crates hsound

/-- The section of the file that is selected takes effect, whether the file was named or searched
for. -/
theorem settingsFor_of_selected {around : Surroundings} {choice : ConfigChoice} {p : Path}
    {data : Value} (selected : Selected around.files around.here choice p)
    (hread : read around.files around.here p = finished (.ok data)) :
    Release.settingsFor around choice =
      .ofExcept (taken data (sourceText around.files around.here p)) := by
  generalize hchoice : choice = chosen at selected
  cases selected with
  | @named name there =>
    rw [Release.settingsFor, load, ofFile, there, ofExcept_ok, done_bind, if_pos rfl, hread,
      finished, taken]
    by_cases hheight : data.height ≤ heightLimit
    · rw [if_pos hheight, if_pos hheight]
      rfl
    · rw [if_neg hheight, if_neg hheight]
      rfl
  | found order missing there =>
    rw [Release.settingsFor, load_of_selected (.found order missing there), hread,
      concluded_finished]

/-- The settings that a table comes to: the table over the standard settings, unless it is nested
too deeply. -/
def configured (table : Entries Text Value) : Except Failure (Entries Key Value) :=
  if (Value.table table).height ≤ heightLimit then .ok (standard.putAll (keyed table))
  else .error .tooDeep

/-- The source of a table is noted beside what the table comes to. -/
theorem taken_table (table : Entries Text Value) (source : String) :
    taken (.table table) source = (configured table).map fun entries => ⟨entries, source⟩ := by
  unfold taken configured
  rw [ofData_table]
  split <;> rfl

/-- Settings that a document keeps take effect, wherever it keeps them. -/
theorem settingsFor_of_keeps {around : Surroundings} {choice : ConfigChoice} {p : Path}
    (selected : Selected around.files around.here choice p)
    (holds : Holds around.files around.here p document) (keeps : Keeps p.name document table) :
    Release.settingsFor around choice = .ofExcept ((configured table).map fun entries =>
      ⟨entries, sourceText around.files around.here p⟩) := by
  have hread : read around.files around.here p = finished (.ok (.table table)) :=
    (read_of_holds holds).trans (section?_of_keeps holds.sound keeps)
  rw [settingsFor_of_selected selected hread, taken_table]

/-- **Three places for the same settings agree.**  Let two releases, each in surroundings of its
own, select a file with a document that keeps the same settings, at the top, or under
`tool.crate_release` beside anything else, in a file of its own or in the shared one.  Then loading
the settings writes no line, and in both releases it comes to the same: to these settings over the
standard ones, or to the same failure if they are nested too deeply.  Only the source that is noted
differs, so all command lines, environments and requests for a rehearsal lead to the same plan. -/
theorem places_agree (around around' : Surroundings) (choice choice' : ConfigChoice)
    (p p' : Path) (document document' : Toml.Table) (table : Entries Text Value)
    (selected : Selected around.files around.here choice p)
    (holds : Holds around.files around.here p document) (keeps : Keeps p.name document table)
    (selected' : Selected around'.files around'.here choice' p')
    (holds' : Holds around'.files around'.here p' document')
    (keeps' : Keeps p'.name document' table) :
    Release.settingsFor around choice = .ofExcept ((configured table).map fun entries =>
        ⟨entries, sourceText around.files around.here p⟩) ∧
      Release.settingsFor around' choice' = .ofExcept ((configured table).map fun entries =>
        ⟨entries, sourceText around'.files around'.here p'⟩) ∧
      ∀ entries given environment dryRun,
        Plan.ofSettings (get? ⟨entries, sourceText around.files around.here p⟩)
            given environment dryRun =
          Plan.ofSettings (get? ⟨entries, sourceText around'.files around'.here p'⟩)
            given environment dryRun := by
  refine ⟨settingsFor_of_keeps selected holds keeps, settingsFor_of_keeps selected' holds' keeps',
    fun entries given environment dryRun => ?_⟩
  have hentries : (⟨entries, sourceText around.files around.here p⟩ : Settings).entries =
      (⟨entries, sourceText around'.files around'.here p'⟩ : Settings).entries := rfl
  exact ofSettings_eq_of_entries_eq hentries given environment dryRun

/-- The settings of a rehearsal. -/
def rehearsing : Entries Text Value := [(.whole "dry_run", .bool true)]

/-- A directory with these settings in a file of their own. -/
def ownFile : Surroundings :=
  ⟨⟨[(["crate_release.toml"], .file "dry_run = true\n".toByteArray)]⟩, [], []⟩

/-- The document in that file. -/
def ownDocument : Toml.Table := [(.whole "dry_run", .value (.bool true))]

/-- A text with the same settings and other things besides. -/
def sharedText : String :=
  "name = 'ledger'\n[tool]\nlint = 'strict'\ncrate_release.dry_run = true\n"

/-- A directory with this text in the shared file. -/
def sharedFile : Surroundings := ⟨⟨[(["pyproject.toml"], .file sharedText.toByteArray)]⟩, [], []⟩

/-- The document in that file. -/
def sharedDocument : Toml.Table :=
  [(.whole "name", .value (.text "ledger")),
    (.whole "tool", .table .header
      [(.whole "lint", .value (.text "strict")),
        (.whole "crate_release", .table .dotted [(.whole "dry_run", .value (.bool true))] none)]
      none)]

/-- A rehearsal that is asked for in a file of its own, and one in the shared file. -/
theorem places_agree_on_rehearsal :
    Selected ownFile.files [] .search (Path.absolute ["crate_release.toml"]) ∧
    Holds ownFile.files [] (Path.absolute ["crate_release.toml"]) ownDocument ∧
    Keeps "crate_release.toml" ownDocument rehearsing ∧
    Selected sharedFile.files [] .search (Path.absolute ["pyproject.toml"]) ∧
    Holds sharedFile.files [] (Path.absolute ["pyproject.toml"]) sharedDocument ∧
    Keeps "pyproject.toml" sharedDocument rehearsing ∧
    Release.settingsFor ownFile .search =
      .done ⟨standard.put (.text (.whole "dry_run")) (.bool true), "crate_release.toml"⟩ ∧
    Release.settingsFor sharedFile .search =
      .done ⟨standard.put (.text (.whole "dry_run")) (.bool true), "pyproject.toml"⟩ := by
  have selected : Selected ownFile.files [] .search (Path.absolute ["crate_release.toml"]) :=
    .found rfl (List.forall_mem_nil _) rfl
  have parsed : Toml.parse "dry_run = true\n" = .ok ownDocument := by with_unfolding_all rfl
  have holds : Holds ownFile.files [] (Path.absolute ["crate_release.toml"]) ownDocument :=
    ⟨_, _, rfl, rfl, parsed⟩
  have keeps : Keeps "crate_release.toml" ownDocument rehearsing := .atTop (by decide) rfl rfl
  have selected' : Selected sharedFile.files [] .search (Path.absolute ["pyproject.toml"]) :=
    .found rfl (List.forall_mem_cons.mpr ⟨rfl, List.forall_mem_singleton.mpr rfl⟩) rfl
  have parsed' : Toml.parse sharedText = .ok sharedDocument := by with_unfolding_all rfl
  have holds' : Holds sharedFile.files [] (Path.absolute ["pyproject.toml"]) sharedDocument :=
    ⟨sharedText.toByteArray, sharedText, rfl, by decide +kernel, parsed'⟩
  have whole : sharedDocument.plain = .ok [(.whole "name", .text "ledger"),
      (.whole "tool", .table [(.whole "lint", .text "strict"),
        (.whole "crate_release", .table rehearsing)])] := by
    with_unfolding_all rfl
  have keeps' : Keeps "pyproject.toml" sharedDocument rehearsing := .below (.inside whole rfl rfl)
  obtain ⟨hown, hshared, -⟩ := places_agree ownFile sharedFile .search .search _ _ _ _ _
    selected holds keeps selected' holds' keeps'
  exact ⟨selected, holds, keeps, selected', holds', keeps', hown, hshared⟩

end Settings

end ReleaseTrain
