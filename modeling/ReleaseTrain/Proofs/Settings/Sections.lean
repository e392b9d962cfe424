import ReleaseTrain.Proofs.Release.Preparation
import ReleaseTrain.Proofs.Toml.Finished

/-!
# The section of a settings file

* `Holds`: the document that a file holds.
* `HasSection`, `Sectionless`: what a document has under `tool.crate_release`, and documents with
  nothing there; `section?_of_hasSection`, `section?_of_sectionless`: what is made of them.
* `gives_read`: what is read has no key twice, and only the shared file can be without settings.
* `load_of_selected`: searching for settings comes down to reading the file that is selected.

## Lookups and finished documents

The section is looked up key by key, and the rest of the document is not put together for that.  So
a document may have a section although something else in it cannot be put together.
-/

namespace ReleaseTrain.Settings

open Toml

variable {files : FileTree} {here : Place} {p : Path} {document : Toml.Table}
  {whenClosed : Value → Failure} {v : Value} {P : Value → Prop}

/-- A path leads to a file that can be read as a document. -/
def Holds (files : FileTree) (here : Place) (p : Path) (document : Toml.Table) : Prop :=
  ∃ content text, contentOf files here p = .ok content ∧ FileTree.decode? content = some text ∧
    Toml.parse text = .ok document

/-- A document that is held is sound. -/
theorem Holds.sound (h : Holds files here p document) : document.Sound Value.Distinct := by
  obtain ⟨content, text, -, -, hparse⟩ := h
  exact sound_parse text document hparse

/-- What is read in a file is the section of its document. -/
theorem read_of_holds (h : Holds files here p document) :
    read files here p = section? p.name document := by
  obtain ⟨content, text, hcontent, htext, hparse⟩ := h
  simp only [read, hcontent, htext, hparse]

/-! ## Sections -/

/-- What a document has under `tool.crate_release`. -/
inductive HasSection (document : Toml.Table) (v : Value) : Prop
  /-- The finished document has it there, besides anything else. -/
  | inside {found tools : Entries Text Value} (whole : document.plain = .ok found)
      (tool : found.get? (.whole "tool") = some (.table tools))
      (crates : tools.get? (.whole "crate_release") = some v)
  /-- It is found there, besides something that may be impossible to put together. -/
  | amid {origin : Origin} {parts : Toml.Table} {ledger : Option Toml.Table} {node : Node}
      (tool : document.field? (.whole "tool") = .ok (some (.table origin parts ledger)))
      (crates : parts.field? (.whole "crate_release") = .ok (some node))
      (whole : node.plain = .ok v)
  /-- It is found in an inline table, besides something that may be impossible to put together. -/
  | inline {tools : Entries Text Value}
      (tool : document.field? (.whole "tool") = .ok (some (.value (.table tools))))
      (crates : tools.get? (.whole "crate_release") = some v)

/-- A document without `tool`, or with a table `tool` that has nothing under `crate_release`. -/
inductive Sectionless (document : Toml.Table) : Prop
  | toolless {found : Entries Text Value} (whole : document.plain = .ok found)
      (tool : found.get? (.whole "tool") = none)
  | bare {found tools : Entries Text Value} (whole : document.plain = .ok found)
      (tool : found.get? (.whole "tool") = some (.table tools))
      (crates : tools.get? (.whole "crate_release") = none)
  | toollessAmid (tool : document.field? (.whole "tool") = .ok none)
  | bareAmid {origin : Origin} {parts : Toml.Table} {ledger : Option Toml.Table}
      (tool : document.field? (.whole "tool") = .ok (some (.table origin parts ledger)))
      (crates : parts.field? (.whole "crate_release") = .ok none)
  | bareInline {tools : Entries Text Value}
      (tool : document.field? (.whole "tool") = .ok (some (.value (.table tools))))
      (crates : tools.get? (.whole "crate_release") = none)

/-- A node that is finished as a table is a table, or it is an inline table. -/
theorem plain_eq_table_cases {node : Node} {tools : Entries Text Value} (hnode : node.Sound P)
    (h : node.plain = .ok (.table tools)) :
    node = .value (.table tools) ∨ ∃ origin parts ledger, node = .table origin parts ledger ∧
      Toml.Table.Sound P parts ∧ Toml.Table.plain parts = .ok tools := by
  cases node with
  | value v =>
    obtain rfl := Except.ok.inj h
    exact .inl rfl
  | table origin parts ledger =>
    refine .inr ⟨origin, parts, ledger, rfl, Node.sound_table_iff.mp hnode, ?_⟩
    cases hplain : Toml.Table.plain parts with
    | error fault =>
      rw [Node.plain, hplain] at h
      cases h
    | ok found =>
      rw [Node.plain, hplain] at h
      obtain rfl := Value.table.inj (Except.ok.inj h)
      rfl
  | tables elements =>
    cases hplain : elements.mapM Toml.Table.plain with
    | error fault =>
      rw [Node.plain, hplain] at h
      cases h
    | ok found =>
      rw [Node.plain, hplain] at h
      cases Except.ok.inj h

/-- The section that a document has is found, whatever is made of a document where it cannot be
looked for. -/
theorem HasSection.exists_toolSection? (h : HasSection document v) (hsound : document.Sound P) :
    ∃ node, (∀ whenClosed, toolSection? whenClosed document = .ok (some node)) ∧
      node.plain = .ok v := by
  cases h with
  | @amid origin parts ledger node tool crates whole =>
    refine ⟨node, fun whenClosed => ?_, whole⟩
    simp only [toolSection?, tool, crates, Except.mapError]
  | inline tool crates =>
    refine ⟨.value v, fun whenClosed => ?_, rfl⟩
    simp only [toolSection?, tool, crates, Option.map_some]
  | inside whole tool crates =>
    obtain ⟨node, hfield, hnode, hfinished⟩ := Toml.Table.exists_field?_of_get? hsound whole tool
    rcases plain_eq_table_cases hnode hfinished with
      rfl | ⟨origin, parts, ledger, rfl, hparts, hplain⟩
    · refine ⟨.value v, fun whenClosed => ?_, rfl⟩
      simp only [toolSection?, hfield, crates, Option.map_some]
    · obtain ⟨inside, hinside, -, hv⟩ := Toml.Table.exists_field?_of_get? hparts hplain crates
      refine ⟨inside, fun whenClosed => ?_, hv⟩
      simp only [toolSection?, hfield, hinside, Except.mapError]

/-- Nothing is found in a document without a section. -/
theorem Sectionless.toolSection?_eq (h : Sectionless document) (hsound : document.Sound P)
    (whenClosed : Value → Failure) : toolSection? whenClosed document = .ok none := by
  cases h with
  | toollessAmid tool => simp only [toolSection?, tool]
  | bareAmid tool crates => simp only [toolSection?, tool, crates, Except.mapError]
  | bareInline tool crates => simp only [toolSection?, tool, crates, Option.map_none]
  | toolless whole tool =>
    have hfield := Toml.Table.field?_of_get?_eq_none hsound whole tool
    simp only [toolSection?, hfield]
  | bare whole tool crates =>
    obtain ⟨node, hfield, hnode, hfinished⟩ := Toml.Table.exists_field?_of_get? hsound whole tool
    rcases plain_eq_table_cases hnode hfinished with
      rfl | ⟨origin, parts, ledger, rfl, hparts, hplain⟩
    · simp only [toolSection?, hfield, crates, Option.map_none]
    · have hinside := Toml.Table.field?_of_get?_eq_none hparts hplain crates
      simp only [toolSection?, hfield, hinside, Except.mapError]

/-! ## What is read -/

/-- A section is finished, and nothing else is. -/
theorem section?_of_hasSection {name : String} (h : HasSection document v)
    (hsound : document.Sound P) : Settings.section? name document = finished (.ok v) := by
  obtain ⟨node, hfound, hplain⟩ := h.exists_toolSection? hsound
  dsimp only [section?]
  rw [hfound, ← hplain]
  rfl

/-- Without a section, a file of its own holds the settings at its top, and the shared file none. -/
theorem section?_of_sectionless {name : String} (h : Sectionless document)
    (hsound : document.Sound P) : Settings.section? name document =
      if name = sharedName then .ok none else finished (document.plain.map .table) := by
  dsimp only [section?]
  rw [h.toolSection?_eq hsound]
  rfl

theorem gives_finished {Q : Value → Prop} {e : Except Toml.Fault Value} (h : Gives Q e) :
    Gives (fun found => ∃ v, found = some v ∧ Q v) (finished e) := by
  cases e with
  | error fault => exact .error
  | ok v =>
    unfold finished
    dsimp only
    split
    next => exact .ok ⟨v, rfl, h v rfl⟩
    next => exact .error

/-- The node of a section has no key twice. -/
theorem sound_toolSection? (h : document.Sound Value.Distinct) :
    Gives (fun found => ∀ node, found = some node → node.Sound Value.Distinct)
      (toolSection? whenClosed document) := by
  unfold toolSection?
  split
  next => exact .error
  next => exact .ok nofun
  next origin entries ledger hfield =>
    have hentries := Node.sound_table_iff.mp (Toml.Table.sound_field? h _ hfield _ rfl)
    exact (Toml.Table.sound_field? hentries).mapError
  next tools hfield =>
    have htools := Node.sound_value_iff.mp (Toml.Table.sound_field? h _ hfield _ rfl)
    refine .ok fun node hnode => ?_
    obtain ⟨v, hv, rfl⟩ := Option.map_eq_some_iff.mp hnode
    exact .value (htools.of_get? hv)
  next => exact .error

/-- Only the shared file can be without settings, and no settings have a key twice. -/
theorem gives_section? {name : String} (h : document.Sound Value.Distinct) :
    Gives (fun found => (found = none → name = sharedName) ∧ ∀ v, found = some v → v.Distinct)
      (section? name document) := by
  have hfinished {e : Except Toml.Fault Value} (he : Gives Value.Distinct e) :
      Gives (fun found => (found = none → name = sharedName) ∧ ∀ v, found = some v → v.Distinct)
        (finished e) := by
    intro found hfound
    obtain ⟨v, rfl, hv⟩ := gives_finished he found hfound
    exact ⟨nofun, fun w hw => Option.some.inj hw ▸ hv⟩
  dsimp only [section?]
  refine (sound_toolSection? h).bind fun found hfound => ?_
  cases found with
  | some node => exact hfinished (node.distinct_plain (hfound node rfl))
  | none =>
    dsimp only
    split
    next hshared => exact .ok ⟨fun _ => hshared, nofun⟩
    next => exact hfinished ((Toml.Table.distinct_plainWithin h).map fun _ hentries => hentries)

theorem gives_read : Gives (fun found => (found = none → p.name = sharedName) ∧
    ∀ v, found = some v → v.Distinct) (read files here p) := by
  unfold read
  split
  next => exact .error
  next =>
    split
    next => exact .error
    next text htext =>
      split
      next => exact .error
      next document hparse => exact gives_section? (sound_parse text document hparse)

/-! ## The file that is selected -/

open Dialogue

/-- The settings of a release for which no file has any. -/
def fallback : Dialogue world Settings := do
  World.warn "[crate_release] Конфигурационный файл не найден – используются значения по умолчанию"
  return ⟨standard, standardSource⟩

/-- The settings that come of what was read in the file that is selected. -/
def concluded (source : String) : Except Failure (Option Value) → Dialogue world Settings
  | .error f => .fail f
  | .ok none => fallback
  | .ok (some data) => .ofExcept (ofData data source)

/-- The settings that a section comes to, unless it is nested too deeply. -/
def taken (data : Value) (source : String) : Except Failure Settings :=
  if data.height ≤ heightLimit then ofData data source else .error .tooDeep

theorem concluded_finished (source : String) (data : Value) :
    concluded source (finished (.ok data)) = .ofExcept (taken data source) := by
  unfold finished taken
  dsimp only
  split <;> rfl

theorem discover_nil (files : FileTree) (here : Place) : discover files here [] = fallback := rfl

/-- Candidates that are missing are passed over. -/
theorem discover_of_missing {before names : List (List String)}
    (missing : ∀ others ∈ before,
      isPresent files here (Path.absolute (here ++ others)) = .ok false) :
    discover files here (before ++ names) = discover files here names := by
  induction before with
  | nil => rfl
  | cons others before ih =>
    obtain ⟨hothers, hbefore⟩ := List.forall_mem_cons.mp missing
    rw [List.cons_append, discover, hothers, ofExcept_ok, done_bind, if_neg Bool.false_ne_true,
      ih hbefore]

/-- Searching for settings comes down to reading the file that is selected. -/
theorem load_of_selected (h : Selected files here .search p) :
    load files here none = concluded (sourceText files here p) (read files here p) := by
  cases h with
  | @found before after names order missing there =>
    rw [load, order, discover_of_missing missing, discover, there, ofExcept_ok, done_bind,
      if_pos rfl]
    -- only the last candidate is shared with others
    have hlast (hnone : read files here (Path.absolute (here ++ names)) = .ok none) :
        after = [] := by
      have hname := (gives_read none hnone).1 rfl
      rw [Path.name, Path.absolute, List.getLast?_append] at hname
      have hown : "crate_release.toml" ≠ sharedName := by decide
      rcases before with _ | ⟨first, _ | ⟨second, before⟩⟩
      · obtain ⟨rfl, -⟩ := List.cons.inj order
        exact absurd hname hown
      · obtain ⟨rfl, -⟩ := List.cons.inj (List.cons.inj order).2
        exact absurd hname hown
      · have hlength := congrArg List.length order
        simp only [candidates, List.length_append, List.length_cons, List.length_nil] at hlength
        exact List.eq_nil_of_length_eq_zero (by omega)
    cases hread : read files here (Path.absolute (here ++ names)) with
    | error f => rfl
    | ok data =>
      cases data with
      | some data => rfl
      | none =>
        rw [hlast hread]
        rfl

end ReleaseTrain.Settings
