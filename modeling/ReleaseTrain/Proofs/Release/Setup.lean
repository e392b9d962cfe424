import ReleaseTrain.Proofs.Release.Performance

/-!
# What comes before a publication

A release loads settings, makes a plan, opens a workspace and connects to a registry, and only
then it publishes.  Up to there it writes lines and does nothing else, and behind the publication
it only says how it ended.

* `Request.isLine`: requests that only write a line.
* `ExitFree`: a result that is no request to end the program; `exitFree_read`,
  `exitFree_ofSettings` and the others: the parts of a setup only give such results.
* `complaints_of_unfolds_settingsFor`: looking for settings leads to complaints and to nothing
  else, and if it ends the program, then not with success.
* `setup_cases`: a release either comes to nothing, or its record is a publication between lines.
-/

namespace ReleaseTrain

/-- Whether a request only writes a line, to the console or to the stream for complaints. -/
def Request.isLine : Request → Bool
  | .say _ | .warn _ => true
  | .pause _ | .cargo _ _ _ | .get _ _ _ => false

/-- Whether a failure is a request to end the program. -/
def Failure.isExit : Failure → Bool
  | exit _ => true
  | _ => false

/-- Whether a setting is a text. -/
def Settings.hasText (settings : Settings) (name text : String) : Bool :=
  match settings.get? name with
  | some (.text t) => t = .whole text
  | _ => false

theorem Settings.get?_of_hasText {settings : Settings} {name text : String}
    (h : settings.hasText name text = true) : settings.get? name = some (.text (.whole text)) := by
  unfold hasText at h
  split at h
  next t ht => rw [ht, of_decide_eq_true h]
  next => cases h

/-! ## Results that do not end the program -/

/-- A result that is no request to end the program. -/
def ExitFree {α : Type} (e : Except Failure α) : Prop := ∀ f, e = .error f → f.isExit = false

namespace ExitFree

variable {α β : Type}

theorem ok (a : α) : ExitFree (.ok a : Except Failure α) := by
  intro f hf
  cases hf

theorem error {f : Failure} (h : f.isExit = false) : ExitFree (.error f : Except Failure α) := by
  intro f' hf'
  obtain rfl := Except.error.inj hf'
  exact h

theorem map {e : Except Failure α} (h : ExitFree e) (part : α → β) : ExitFree (e.map part) := by
  cases e with
  | ok a => exact ok (part a)
  | error f => exact error (h f rfl)

theorem bind {e : Except Failure α} (h : ExitFree e) {next : α → Except Failure β}
    (hnext : ∀ a, ExitFree (next a)) : ExitFree (e >>= next) := by
  cases e with
  | ok a => exact hnext a
  | error f => exact error (h f rfl)

end ExitFree

theorem Failure.isExit_ofToml (fault : Toml.Fault) : (ofToml fault).isExit = false := by
  cases fault <;> rfl

theorem Failure.isExit_ofUnresolvable (why : FileTree.Unresolvable) :
    (ofUnresolvable why).isExit = false := by
  cases why <;> rfl

namespace Plan

theorem exitFree_listOf (v : Value) : ExitFree (listOf v) := by
  unfold listOf
  split
  next =>
    split
    next =>
      split
      next => exact .ok _
      next => exact .error rfl
    next =>
      split
      next =>
        split
        next => exact .ok _
        next => exact .error rfl
      next => exact .error rfl
  next => exact .ok _

theorem exitFree_crateNames (given : List String) (v : Value) : ExitFree (crateNames given v) := by
  unfold crateNames
  split
  next =>
    split
    next f hf => exact .error (exitFree_listOf v f hf)
    next => exact .ok _
  next => exact .ok _

theorem exitFree_tokenIn (environment : Entries String String) (name : Value) :
    ExitFree (tokenIn environment name) := by
  unfold tokenIn
  split
  next => exact .ok _
  next => exact .error rfl

theorem exitFree_ofSettings (setting : String → Option Value) (given : List String)
    (environment : Entries String String) (dryRun : Bool) :
    ExitFree (ofSettings setting given environment dryRun) := by
  unfold ofSettings
  split
  next f hf => exact .error (exitFree_tokenIn _ _ f hf)
  next =>
    split
    next f hf => exact .error (exitFree_crateNames _ _ f hf)
    next =>
      split
      next f hf => exact .error (exitFree_listOf _ f hf)
      next => exact .ok _

end Plan

namespace Settings

theorem exitFree_pair (index : Nat) (v : Value) : ExitFree (pair index v) := by
  unfold pair
  split
  next => exact .error rfl
  next =>
    split
    next => exact .ok _
    next => exact .error rfl
  next => exact .error rfl

theorem exitFree_pairs (index : Nat) (members : List Value) : ExitFree (pairs index members) := by
  induction members generalizing index with
  | nil => exact .ok _
  | cons v rest ih =>
    rw [pairs]
    split
    next f hf => exact .error (exitFree_pair index v f hf)
    next => exact (ih _).map _

theorem exitFree_ofData (data : Value) (source : String) : ExitFree (ofData data source) := by
  unfold ofData
  split
  next =>
    refine .map ?_ _
    unfold entriesOf
    split
    next => exact .ok _
    next =>
      split
      next => exact .error rfl
      next => exact exitFree_pairs _ _
  next => exact .ok _

theorem exitFree_finished (found : Except Toml.Fault Value) : ExitFree (finished found) := by
  unfold finished
  split
  next => exact .error (Failure.isExit_ofToml _)
  next =>
    split
    next => exact .ok _
    next => exact .error rfl

theorem exitFree_toolSection? {whenClosed : Value → Failure}
    (h : ∀ v, (whenClosed v).isExit = false) (document : Toml.Table) :
    ExitFree (toolSection? whenClosed document) := by
  unfold toolSection?
  split
  next => exact .error (Failure.isExit_ofToml _)
  next => exact .ok _
  next tools _ _ =>
    cases Toml.Table.field? "crate_release" tools with
    | error fault => exact .error (Failure.isExit_ofToml fault)
    | ok found => exact .ok _
  next => exact .ok _
  next => exact .error (h _)

theorem exitFree_section? (name : String) (document : Toml.Table) :
    ExitFree (section? name document) := by
  refine .bind (exitFree_toolSection? (fun v => rfl) document) fun node => ?_
  cases node with
  | some node => exact exitFree_finished _
  | none =>
    dsimp only
    split
    next => exact .ok _
    next => exact exitFree_finished _

theorem exitFree_contentOf (files : FileTree) (here : Place) (p : Path) :
    ExitFree (contentOf files here p) := by
  unfold contentOf
  split
  next => exact .ok _
  next => exact .error rfl
  next => exact .error rfl

theorem exitFree_read (files : FileTree) (here : Place) (p : Path) :
    ExitFree (read files here p) := by
  unfold read
  split
  next f hf => exact .error (exitFree_contentOf _ _ _ f hf)
  next =>
    split
    next => exact .error rfl
    next =>
      split
      next => exact .error (Failure.isExit_ofToml _)
      next => exact exitFree_section? _ _

theorem exitFree_isPresent (files : FileTree) (here : Place) (p : Path) :
    ExitFree (isPresent files here p) := by
  unfold isPresent
  split
  next => exact .ok _
  next => exact .error rfl

end Settings

namespace Release

open Dialogue Publication

variable {around : Surroundings} {asked : Invocation} {settings : Settings}
  {es : List (Exchange world)}

theorem exitFree_workspaceIn (around : Surroundings) (directory : Value) :
    ExitFree (workspaceIn around directory) := by
  unfold workspaceIn
  split
  next =>
    unfold Workspace.ofPath
    split
    next => exact .error (Failure.isExit_ofUnresolvable _)
    next =>
      dsimp only
      split
      next => exact .error rfl
      next => exact .error rfl
      next => exact .ok _
  next => exact .error rfl

theorem exitFree_secondsOf (v : Value) : ExitFree (secondsOf v) := by
  unfold secondsOf
  split
  next =>
    split
    next => exact .ok _
    next => exact .error rfl
  next => exact .ok _
  next =>
    split
    next => exact .ok _
    next => exact .error rfl
  next => exact .error rfl

theorem exitFree_clientOf (settings : Settings) : ExitFree (clientOf settings) := by
  unfold clientOf
  split
  next f hf => exact .error (exitFree_secondsOf _ f hf)
  next =>
    unfold Registry.Client.ofValues
    split
    next => exact .ok _
    next => exact .error rfl

/-! ## What a setup has found -/

/-- A workspace was opened in a directory that is named and has a manifest. -/
theorem exists_manifest_of_workspaceIn {directory : Value} {workspace : Workspace}
    (h : workspaceIn around directory = .ok workspace) :
    ∃ t, directory = .text t ∧
      around.files.resolve around.here (Path.ofText t.shown) = .ok workspace.directory ∧
        around.files.isPresent [] (workspace.directory.join ⟨.relative, ["Cargo.toml"]⟩) =
          .ok true := by
  cases directory with
  | text t =>
    rw [workspaceIn, Workspace.ofPath] at h
    split at h
    next => cases h
    next place hresolve =>
      dsimp only at h
      split at h
      next => cases h
      next => cases h
      next hpresent =>
        obtain rfl := Except.ok.inj h
        exact ⟨t, rfl, hresolve, hpresent⟩
  | _ => cases h

/-- A client was made with a limit that is a number of seconds. -/
theorem exists_limit_of_clientOf {client : Registry.Client} (h : clientOf settings = .ok client) :
    ∃ limit, secondsOf ((settings.get? "http_timeout").getD (.whole 30)) = .ok limit := by
  unfold clientOf at h
  split at h
  next => cases h
  next limit hlimit => exact ⟨limit, hlimit⟩

/-! ## Looking for settings -/

/-- Exchanges that are complaints and nothing else, with an end that ends the program with the code
one if it does so at all. -/
structure Complaints (es : List (Exchange world)) (o : Except Failure Settings) : Prop where
  warns : ∀ e ∈ es, ∃ line, e = ⟨.warn line, ()⟩
  exits : ∀ code, o = .error (.exit code) → code = 1

theorem Complaints.of_exitFree {o : Except Failure Settings} (h : ExitFree o)
    (warns : ∀ e ∈ es, ∃ line, e = ⟨.warn line, ()⟩) : Complaints es o :=
  ⟨warns, fun code ho => absurd (h _ ho) (by simp [Failure.isExit])⟩

theorem complaints_of_unfolds_discover {files : FileTree} {here : Place}
    {names : List (List String)} {o : Except Failure Settings}
    (h : (Settings.discover files here names).Unfolds es o) : Complaints es o := by
  induction names generalizing es with
  | nil =>
    rw [Settings.discover, unfolds_warn_iff] at h
    obtain ⟨rest, rfl, h⟩ := h
    obtain ⟨rfl, rfl⟩ := unfolds_ofExcept_iff.mp h
    exact .of_exitFree (Settings.exitFree_ofData _ _) (List.forall_mem_singleton.mpr ⟨_, rfl⟩)
  | cons name rest ih =>
    rw [Settings.discover, unfolds_ofExcept_bind_iff] at h
    rcases h with ⟨f, hf, rfl, rfl⟩ | ⟨present, -, h⟩
    · exact .of_exitFree (.error (Settings.exitFree_isPresent _ _ _ f hf)) (List.forall_mem_nil _)
    split at h
    next =>
      rw [unfolds_ofExcept_bind_iff] at h
      rcases h with ⟨f, hf, rfl, rfl⟩ | ⟨data, -, h⟩
      · exact .of_exitFree (.error (Settings.exitFree_read _ _ _ f hf)) (List.forall_mem_nil _)
      cases data with
      | none => exact ih h
      | some data =>
        obtain ⟨rfl, rfl⟩ := unfolds_ofExcept_iff.mp h
        exact .of_exitFree (Settings.exitFree_ofData _ _) (List.forall_mem_nil _)
    next => exact ih h

theorem complaints_of_unfolds_ofFile {files : FileTree} {here : Place} {p : Path}
    {o : Except Failure Settings} (h : (Settings.ofFile files here p).Unfolds es o) :
    Complaints es o := by
  rw [Settings.ofFile, unfolds_ofExcept_bind_iff] at h
  rcases h with ⟨f, hf, rfl, rfl⟩ | ⟨present, -, h⟩
  · exact .of_exitFree (.error (Settings.exitFree_isPresent _ _ _ f hf)) (List.forall_mem_nil _)
  split at h
  next =>
    rw [← ofExcept_bind] at h
    obtain ⟨rfl, rfl⟩ := unfolds_ofExcept_iff.mp h
    refine .of_exitFree (.bind (Settings.exitFree_read _ _ _) fun data => ?_) (List.forall_mem_nil _)
    exact Settings.exitFree_ofData _ _
  next =>
    rw [unfolds_warn_iff] at h
    obtain ⟨rest, rfl, h⟩ := h
    obtain ⟨rfl, rfl⟩ := unfolds_fail_iff.mp h
    refine ⟨List.forall_mem_singleton.mpr ⟨_, rfl⟩, fun code ho => ?_⟩
    injection Except.error.inj ho with hcode
    exact hcode.symm

/-- Looking for settings leads to complaints and to nothing else. -/
theorem complaints_of_unfolds_settingsFor {choice : ConfigChoice} {o : Except Failure Settings}
    (h : (settingsFor around choice).Unfolds es o) : Complaints es o := by
  unfold settingsFor at h
  split at h
  next => exact complaints_of_unfolds_discover h
  next name => exact complaints_of_unfolds_ofFile h
  next =>
    obtain ⟨rfl, rfl⟩ := unfolds_fail_iff.mp h
    exact .of_exitFree (.error rfl) (List.forall_mem_nil _)

/-! ## Up to the publication and behind it -/

/-- A list of exchanges that only write lines. -/
def OnlyLines (es : List (Exchange world)) : Prop := ∀ e ∈ es, e.question.isLine = true

theorem Complaints.onlyLines {o : Except Failure Settings} (h : Complaints es o) : OnlyLines es := by
  intro e he
  obtain ⟨line, rfl⟩ := h.warns e he
  rfl

theorem onlyLines_singleton {e : Exchange world} (h : e.question.isLine = true) : OnlyLines [e] :=
  List.forall_mem_singleton.mpr h

theorem OnlyLines.append {es' : List (Exchange world)} (h : OnlyLines es) (h' : OnlyLines es') :
    OnlyLines (es ++ es') :=
  List.forall_mem_append.mpr ⟨h, h'⟩

/-- What a release consists of once its setup has come to its end: a publication, with lines before
it and behind it. -/
inductive Begun (around : Surroundings) (asked : Invocation) (settings : Settings) :
    List (Exchange world) → Prop
  | between {plan : Plan} {workspace : Workspace} {client : Registry.Client}
      {before ws after : List (Exchange world)} {o : Except Failure Report}
      (prepared : Prepared around asked settings plan workspace client)
      (before_lines : OnlyLines before)
      (published : (carryOut workspace client (publishAll plan .standard)).Unfolds ws o)
      (after_lines : OnlyLines after) : Begun around asked settings (before ++ (ws ++ after))

/-- Whatever has begun was prepared. -/
theorem Begun.exists_prepared (h : Begun around asked settings es) :
    ∃ plan workspace client, Prepared around asked settings plan workspace client := by
  cases h with
  | between prepared _ _ _ => exact ⟨_, _, _, prepared⟩

theorem Begun.append {front : List (Exchange world)} (hfront : OnlyLines front)
    (h : Begun around asked settings es) : Begun around asked settings (front ++ es) := by
  cases h with
  | between prepared before_lines published after_lines =>
    rw [← List.append_assoc]
    exact .between prepared (hfront.append before_lines) published after_lines

/-- A performance only writes lines and does not end well, or it is a publication between lines. -/
theorem Performance.cases_begun {o : Except Failure Int}
    (h : Performance around asked settings es o) :
    (OnlyLines es ∧ o ≠ .ok 0 ∧ o ≠ .error (.exit 0)) ∨ Begun around asked settings es := by
  have hannounced : OnlyLines [announced settings] := onlyLines_singleton rfl
  cases h with
  | @unplanned f h =>
    refine .inl ⟨hannounced, fun ho => ?_, fun ho => ?_⟩
    · cases ho
    · cases ho
      cases Plan.exitFree_ofSettings _ _ _ _ _ h
  | homeless h usual =>
    refine .inl ⟨hannounced.append (onlyLines_singleton rfl), fun ho => ?_, fun ho => ?_⟩
    · cases ho
    · cases ho
  | astray h unusual =>
    refine .inl ⟨hannounced, fun ho => ?_, fun ho => ?_⟩
    · cases ho
    · cases ho
      cases exitFree_workspaceIn _ _ _ h
  | unconnected h =>
    refine .inl ⟨hannounced, fun ho => ?_, fun ho => ?_⟩
    · cases ho
    · cases ho
      cases exitFree_clientOf _ _ h
  | @broken plan workspace client ws f prepared h =>
    rw [← List.append_nil ws]
    exact .inr (.between prepared hannounced h (List.forall_mem_nil _))
  | stopped prepared h stop =>
    exact .inr (.between prepared hannounced h (onlyLines_singleton rfl))
  | finished prepared h smooth =>
    exact .inr (.between prepared hannounced h (onlyLines_singleton rfl))

section Run

variable {σ : Type} {partner : Partner world σ} {s : σ} {arguments : List String}

/-- Without arguments that can be read, there is a line and nothing else. -/
theorem onlyLines_run_of_error {stop : Stop} (h : CommandLine.read arguments = .error stop) :
    OnlyLines ((run around arguments).play partner s).exchanges := by
  unfold run
  rw [h]
  cases stop with
  | help => exact onlyLines_singleton rfl
  | mistake error => exact onlyLines_singleton rfl

/-- A release that fails without a request to end the program with zero does not end with zero. -/
theorem outcome_run_ne_zero (hread : CommandLine.read arguments = .ok asked)
    (hzero : ((perform around asked).play partner s).outcome ≠ .ok 0)
    (hexit : ((perform around asked).play partner s).outcome ≠ .error (.exit 0)) :
    ((run around arguments).play partner s).outcome ≠ .ok 0 := by
  rw [run_eq_of_read hread, play_bind, play_attempt]
  generalize ((perform around asked).play partner s).outcome = o at hzero hexit
  intro hrun
  cases o with
  | ok code =>
    obtain rfl : code = 0 := Except.ok.inj hrun
    exact hzero rfl
  | error f =>
    cases f with
    | exit code =>
      obtain rfl : code = 0 := Except.ok.inj hrun
      exact hexit rfl
    | _ => cases hrun

/-- A release with arguments that can be read either writes lines and does not end with zero, or it
has loaded settings, its setup has come to its end and it has begun to publish. -/
theorem setup_cases (around : Surroundings) (hread : CommandLine.read arguments = .ok asked)
    (partner : Partner world σ) (s : σ) :
    (OnlyLines ((run around arguments).play partner s).exchanges ∧
        ((run around arguments).play partner s).outcome ≠ .ok 0) ∨
      ∃ settings, ((settingsFor around asked.config).play partner s).outcome = .ok settings ∧
        Begun around asked settings ((run around arguments).play partner s).exchanges := by
  have hloading := complaints_of_unfolds_settingsFor
    (unfolds_play partner (settingsFor around asked.config) s)
  rw [exchanges_run hread]
  rcases performance_cases around asked partner s with
    ⟨f, hf, houtcome, hrecord⟩ | ⟨settings, es, hsettings, hperformance, hrecord⟩
  · refine .inl ⟨hrecord ▸ hloading.onlyLines, outcome_run_ne_zero hread ?_ ?_⟩
    · rw [houtcome]
      intro h
      cases h
    · rw [houtcome]
      intro h
      obtain rfl := Except.error.inj h
      cases hloading.exits 0 hf
  · rw [hrecord]
    rcases hperformance.cases_begun with ⟨hlines, hzero, hexit⟩ | hbegun
    · exact .inl ⟨hloading.onlyLines.append hlines, outcome_run_ne_zero hread hzero hexit⟩
    · exact .inr ⟨settings, hsettings, hbegun.append hloading.onlyLines⟩

end Run

end Release

end ReleaseTrain
