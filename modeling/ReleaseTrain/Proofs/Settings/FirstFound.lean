import ReleaseTrain.Proofs.Files.Frames
import ReleaseTrain.Proofs.Settings.Overlay
import ReleaseTrain.Proofs.Settings.Sections

/-!
# The first settings file that is found

A release for which no settings file is named looks for one at three places in the working
directory.  The first place that leads anywhere decides, and nothing else does.

* `load_congr`: the settings depend on the content of that file, and on where it is.
* `load_of_sameBut`: other files may come, go and change.
* `exists_settings_of_table`: a section that is a table is put over the standard settings.
* `Decides`: what it means for a file to decide.
* `first_found_decides`: the statement.

## Files that are broken

A file that cannot be read as settings is not passed over.  Only the file that is shared with other
tools is, and only if it can be read and has no section for a release.
-/

namespace ReleaseTrain

namespace Settings

open Toml Dialogue

variable {files files' : FileTree} {here : Place} {p : Path} {changed : Place → Prop}
  {document : Toml.Table} {table found : Entries Text Value} {v : Value}

/-! ## Other files -/

theorem isAbsolute_of_selected (h : Selected files here .search p) : p.isAbsolute = true := by
  cases h with
  | found order missing there => rfl

/-- The file that is selected is found. -/
theorem exists_find_of_selected (h : Selected files here .search p) :
    ∃ place entry, files.find here p = .ok (place, entry) := by
  have there : isPresent files here p = .ok true := by
    cases h with
    | found order missing there => exact there
  unfold isPresent FileTree.isPresent at there
  cases hfind : files.find here p with
  | ok found => exact ⟨found.1, found.2, rfl⟩
  | error why =>
    rw [hfind] at there
    cases why <;> cases there

/-- What is read in a file depends on its content only. -/
theorem read_congr (hcontent : contentOf files' here p = contentOf files here p) :
    read files' here p = read files here p := by
  unfold read
  rw [hcontent]

theorem sourceText_congr (hresolve : files'.resolve here p = files.resolve here p) :
    sourceText files' here p = sourceText files here p := by
  unfold sourceText
  rw [hresolve]

/-- The settings depend on the content of the file that is selected, and on where it is. -/
theorem load_congr (selected : Selected files here .search p)
    (selected' : Selected files' here .search p)
    (hcontent : contentOf files' here p = contentOf files here p)
    (hresolve : files'.resolve here p = files.resolve here p) :
    load files' here none = load files here none := by
  rw [load_of_selected selected, load_of_selected selected', read_congr hcontent,
    sourceText_congr hresolve]

/-- Other files may come, go and change. -/
theorem load_of_sameBut (same : files.SameBut changed files')
    (selected : Selected files here .search p) (selected' : Selected files' here .search p)
    (unchanged : ∀ place entry, files.find here p = .ok (place, entry) → ¬changed place) :
    load files' here none = load files here none := by
  obtain ⟨place, entry, hplace⟩ := exists_find_of_selected selected
  have hsettled : FileTree.Settled changed (files.find here p) := by
    rw [hplace]
    exact unchanged place entry hplace
  have hfind : files'.find here p = files.find here p := FileTree.find_of_sameBut same hsettled
  have hcontent : contentOf files' here p = contentOf files here p := by
    unfold contentOf
    rw [hfind]
  exact load_congr selected selected' hcontent
    (FileTree.resolve_of_sameBut same (isAbsolute_of_selected selected))

/-! ## The file that decides -/

/-- What it means for a file to decide on the settings. -/
structure Decides (files : FileTree) (here : Place) (p : Path) : Prop where
  /-- The settings are the same whatever else there is, as long as this is the first file that is
  found, in the same place and with the same content. -/
  alone : ∀ files', Selected files' here .search p →
    contentOf files' here p = contentOf files here p →
    files'.resolve here p = files.resolve here p → load files' here none = load files here none
  /-- Files elsewhere may come, go and change. -/
  undisturbed : ∀ changed files', files.SameBut changed files' → Selected files' here .search p →
    (∀ place entry, files.find here p = .ok (place, entry) → ¬changed place) →
    load files' here none = load files here none
  /-- A file that cannot be read is not passed over. -/
  broken : ∀ f, read files here p = .error f → load files here none = .fail f
  /-- Its section is used. -/
  used : ∀ document data, Holds files here p document → HasSection document data →
    load files here none = .ofExcept (taken data (sourceText files here p))
  /-- Without a section, a file of its own is used as a whole. -/
  whole : ∀ document found, Holds files here p document → Sectionless document →
    p.name ≠ sharedName → document.plain = .ok found →
    load files here none = .ofExcept (taken (.table found) (sourceText files here p))
  /-- Without a section, the shared file is passed over. -/
  passedOver : ∀ document, Holds files here p document → Sectionless document →
    p.name = sharedName → load files here none = fallback
  /-- A section that is a table decides on each of its keys, and on no other. -/
  each : ∀ table : Entries Text Value, read files here p = .ok (some (.table table)) →
    ∃ settings, load files here none = .done settings ∧
      settings.get? sourceKey = some (.text (.whole (sourceText files here p))) ∧
      (∀ t, t ≠ .whole sourceKey → settings.items.get? (.text t) =
        (table.get? t).or (standard.get? (.text t))) ∧
      Textual settings.items

/-- A section that is a table is put over the standard settings key by key. -/
theorem exists_settings_of_table (selected : Selected files here .search p)
    (hread : read files here p = .ok (some (.table table))) :
    ∃ settings, load files here none = .done settings ∧
      settings.get? sourceKey = some (.text (.whole (sourceText files here p))) ∧
      (∀ t, t ≠ .whole sourceKey → settings.items.get? (.text t) =
        (table.get? t).or (standard.get? (.text t))) ∧
      Textual settings.items := by
  have hdistinct : (table.map Prod.fst).Nodup := ((gives_read _ hread).2 _ rfl).nodup
  refine ⟨⟨standard.putAll (keyed table), sourceText files here p⟩, ?_, ?_, ?_, ?_⟩
  · rw [load_of_selected selected, hread]
    exact congrArg Dialogue.ofExcept (ofData_table table _)
  · exact get?_put_text.trans (if_pos rfl)
  · intro t hsource
    have hput : (items ⟨standard.putAll (keyed table), sourceText files here p⟩).get? (.text t) =
        (standard.putAll (keyed table)).get? (.text t) :=
      get?_put_text.trans (if_neg fun heq => hsource heq.symm)
    exact hput.trans (get?_putAll_keyed hdistinct t)
  · exact textual_standard.putAll_keyed.put _ _

/-- The file that is selected decides. -/
theorem decides_of_selected (selected : Selected files here .search p) :
    Decides files here p where
  alone files' selected' hcontent hresolve := load_congr selected selected' hcontent hresolve
  undisturbed changed files' same selected' unchanged :=
    load_of_sameBut same selected selected' unchanged
  broken f hread := by
    rw [load_of_selected selected, hread]
    rfl
  used document data holds crates := by
    rw [load_of_selected selected, read_of_holds holds, section?_of_hasSection crates holds.sound,
      concluded_finished]
  whole document found holds bare own hwhole := by
    rw [load_of_selected selected, read_of_holds holds, section?_of_sectionless bare holds.sound,
      if_neg own, hwhole]
    exact concluded_finished _ _
  passedOver document holds bare shared := by
    rw [load_of_selected selected, read_of_holds holds, section?_of_sectionless bare holds.sound,
      if_pos shared]
    rfl
  each table hread := exists_settings_of_table selected hread

/-- **The first settings file that is found decides.**  If none of the places leads anywhere, the
settings are the standard ones and a line on the error stream says so.  If a file is the first that
is found, the settings are made of its section and the standard settings, key by key; a file that
is broken stops everything, and no file but this one matters.  A place that cannot be looked at
because its name is too long stops everything as well. -/
theorem first_found_decides (files : FileTree) (here : Place) :
    ((∀ names ∈ candidates, isPresent files here (Path.absolute (here ++ names)) = .ok false) →
      load files here none = fallback) ∧
    (∀ p, Selected files here .search p → Decides files here p) ∧
    ∀ before names after f, candidates = before ++ names :: after →
      (∀ others ∈ before, isPresent files here (Path.absolute (here ++ others)) = .ok false) →
      isPresent files here (Path.absolute (here ++ names)) = .error f →
      load files here none = .fail f := by
  refine ⟨fun missing => ?_, fun p selected => decides_of_selected selected,
    fun before names after f order missing unsure => ?_⟩
  · have hall : candidates = candidates ++ [] := (List.append_nil _).symm
    rw [load, hall, discover_of_missing missing, discover_nil]
  · rw [load, order, discover_of_missing missing, discover, unsure]
    rfl

/-- A file of its own beside a shared file with some content. -/
def beside (content : String) : FileTree :=
  ⟨[(["crate_release.toml"], .file "dry_run = true\n".toByteArray),
    (["pyproject.toml"], .file content.toByteArray)]⟩

/-- Changing the shared file leaves all other places alone. -/
theorem sameBut_beside (content content' : String) :
    (beside content).SameBut (· = ["pyproject.toml"]) (beside content') := by
  have hfile (content : String) (place : Place) (hplace : place = ["pyproject.toml"]) :
      FileTree.IsFileAtMost <| FileTree.entry? (beside content) place := by
    subst hplace
    exact trivial
  refine ⟨fun place hplace => ?_, hfile content, hfile content'⟩
  have hshared : ((["pyproject.toml"] : Place) == place) = false := beq_false_of_ne (Ne.symm hplace)
  unfold FileTree.entry?
  simp only [beside, Entries.get?, hshared, Bool.false_eq_true, if_false]

/-- A shared file that is not meant for a release. -/
def unrelated : FileTree :=
  ⟨[(["pyproject.toml"], .file "[tool.lint]\nstrict = true\n".toByteArray)]⟩

/-- The document in that file. -/
def unrelatedDocument : Toml.Table :=
  [(.whole "tool", .table .passage
    [(.whole "lint", .table .header [(.whole "strict", .value (.bool true))] none)] none)]

/-- A directory with a name that is too long. -/
def unnamable : Place := [String.ofList (List.replicate 64 '🚂')]

theorem isPresent_unnamable : isPresent ⟨[]⟩ unnamable
      (Path.absolute (unnamable ++ ["crate_release.toml"])) =
    .error (.nameTooLong (Path.absolute (unnamable ++ ["crate_release.toml"]))) := by
  have hlong : FileTree.isPresent ⟨[]⟩ unnamable
      (Path.absolute (unnamable ++ ["crate_release.toml"])) = .error .nameTooLong := by
    decide +kernel
  rw [isPresent, hlong]

/-- A file of its own decides, and a shared file may change from a broken one to one with other
settings; a shared file without settings is passed over; and there may be no file at all, or a
directory with a name that is too long. -/
theorem first_found_decides_on_rehearsal :
    Selected (beside "[tool") [] .search (Path.absolute ["crate_release.toml"]) ∧
    Selected (beside "tool.crate_release.dry_run = false") [] .search
      (Path.absolute ["crate_release.toml"]) ∧
    (beside "[tool").SameBut (· = ["pyproject.toml"])
      (beside "tool.crate_release.dry_run = false") ∧
    load (beside "tool.crate_release.dry_run = false") [] none = load (beside "[tool") [] none ∧
    (∃ settings, load (beside "[tool") [] none = .done settings ∧
      settings.get? "dry_run" = some (.bool true) ∧
      settings.get? "crates" = some (.list [])) ∧
    load unrelated [] none = fallback ∧
    load ⟨[]⟩ [] none = fallback ∧
    ∃ f, load ⟨[]⟩ unnamable none = .fail f := by
  have selected : Selected (beside "[tool") [] .search (Path.absolute ["crate_release.toml"]) :=
    .found rfl (List.forall_mem_nil _) rfl
  have selected' : Selected (beside "tool.crate_release.dry_run = false") [] .search
      (Path.absolute ["crate_release.toml"]) := .found rfl (List.forall_mem_nil _) rfl
  have same := sameBut_beside "[tool" "tool.crate_release.dry_run = false"
  have unchanged : ∀ place entry,
      (beside "[tool").find [] (Path.absolute ["crate_release.toml"]) = .ok (place, entry) →
      ¬place = ["pyproject.toml"] := by
    intro place entry hfind
    obtain ⟨rfl, -⟩ := Prod.mk.inj (Except.ok.inj hfind)
    decide
  have hread : read (beside "[tool") [] (Path.absolute ["crate_release.toml"]) =
      .ok (some (.table [(.whole "dry_run", .bool true)])) := by
    have own : Holds (beside "[tool") [] (Path.absolute ["crate_release.toml"])
        [(.whole "dry_run", .value (.bool true))] := ⟨_, _, rfl, rfl, by with_unfolding_all rfl⟩
    have toolless : Sectionless [(.whole "dry_run", .value (.bool true))] := .toollessAmid rfl
    rw [read_of_holds own, section?_of_sectionless toolless own.sound, if_neg (by decide)]
    with_unfolding_all rfl
  have shared : Selected unrelated [] .search (Path.absolute ["pyproject.toml"]) :=
    .found rfl (List.forall_mem_cons.mpr ⟨rfl, List.forall_mem_singleton.mpr rfl⟩) rfl
  have parsed : Toml.parse "[tool.lint]\nstrict = true\n" = .ok unrelatedDocument := by
    with_unfolding_all rfl
  have holds : Holds unrelated [] (Path.absolute ["pyproject.toml"]) unrelatedDocument :=
    ⟨_, "[tool.lint]\nstrict = true\n", rfl, by decide +kernel, parsed⟩
  have bare : Sectionless unrelatedDocument := .bareAmid rfl rfl
  obtain ⟨-, hfound, -⟩ := first_found_decides (beside "[tool") []
  obtain ⟨settings, hload, -, hkeys, -⟩ := (hfound _ selected).each _ hread
  refine ⟨selected, selected', same,
    (hfound _ selected).undisturbed _ _ same selected' unchanged,
    ⟨settings, hload, hkeys _ (by decide), hkeys _ (by decide)⟩, ?_, ?_, ?_⟩
  · exact ((first_found_decides unrelated []).2.1 _ shared).passedOver _ holds bare rfl
  · refine (first_found_decides ⟨[]⟩ []).1 (List.forall_mem_cons.mpr ⟨rfl, ?_⟩)
    exact List.forall_mem_cons.mpr ⟨rfl, List.forall_mem_singleton.mpr rfl⟩
  · exact ⟨_, (first_found_decides ⟨[]⟩ unnamable).2.2 [] _ _ _ rfl (List.forall_mem_nil _)
      isPresent_unnamable⟩

end Settings

end ReleaseTrain
