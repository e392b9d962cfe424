import ReleaseTrain.Proofs.Publication.CarriedOut
import ReleaseTrain.Proofs.Release.Visibility
import ReleaseTrain.Proofs.Text.Lines

/-!
# The last words of a release

A release that is stopped complains last of all, with the name of the crate that stopped it at the
head of the complaint.  Whether this name stands in the last line that can be read depends on the
message behind it.

* `Failure.quotations`: the texts of others that the message of a failure repeats, and
  `Failure.oneLine_message_iff`: a message is one line exactly if these are.
* `exists_failure_of_stopped`: a publication that is stopped reports the failure of a crate.
* `publication`, `course_of_stopped`: the publication in a release, and what is made of it.
* `last_line_names_crate`: the statement.
* `last_line_of_cargo`: what cargo prints about a manifest hides the name.

## Where the line feeds come from

What cargo writes when it cannot describe a workspace usually has several lines, and the message of
the failure is what cargo has written, as it is.  Beside that, directories may have line feeds in
their names, and versions are what cargo says they are.
-/

namespace ReleaseTrain

open Text

/-! ## Messages -/

/-- The texts of others that the message of a failure repeats: what cargo or the system says, and
names of crates, versions and directories. -/
def Failure.quotations : Failure → List String
  | cargo (.notStarted reason) => [reason]
  | cargo (.undescribed complaint _) => complaint.toList
  | cargo (.unreadable _) => []
  | cargo (.unknownCrate name directory) => [name, directory.text]
  | cargo (.unpublished name _) => [name]
  | absent (.neverSeen name version _) => [name, version]
  | f => [f.message]

theorem Json.oneLine_problem (problem : Json.Problem) : OneLine problem.message := by
  cases problem <;> decide +kernel

theorem Json.oneLine_message (error : Json.Error) : OneLine error.message := by
  cases error with
  | broken problem line column index =>
    dsimp only [Json.Error.message]
    rw [oneLine_append_right (by decide +kernel), oneLine_append_right (oneLine_nat _),
      oneLine_append_right (by decide +kernel), oneLine_append_right (oneLine_nat _),
      oneLine_append_right (by decide +kernel), oneLine_append_right (oneLine_nat _),
      oneLine_append_right (by decide +kernel)]
    exact Json.oneLine_problem problem
  | tooManyDigits count =>
    dsimp only [Json.Error.message]
    rw [oneLine_append_right (by decide +kernel), oneLine_append_right (oneLine_nat _),
      oneLine_append_right (by decide +kernel), oneLine_append_left (by decide +kernel)]
    exact oneLine_nat _
  | tooDeep => decide +kernel

theorem CargoFailure.oneLine_message_iff (g : CargoFailure) :
    OneLine g.message ↔ ∀ text ∈ (Failure.cargo g).quotations, OneLine text := by
  cases g with
  | notStarted reason =>
    dsimp only [message]
    rw [Failure.quotations, List.forall_mem_singleton, oneLine_append_left (by decide +kernel)]
  | undescribed complaint code =>
    cases complaint with
    | none =>
      have hline : OneLine "cargo metadata failed" := by decide +kernel
      exact iff_of_true hline (List.forall_mem_nil _)
    | some text =>
      dsimp only [message]
      rw [Failure.quotations, Option.toList_some, List.forall_mem_singleton]
      -- a complaint without characters is replaced by another text of one line
      split
      next hempty =>
        obtain rfl := String.isEmpty_iff.mp hempty
        decide +kernel
      next => exact Iff.rfl
  | unreadable error =>
    dsimp only [message]
    rw [Failure.quotations, oneLine_append_left (by decide +kernel)]
    exact iff_of_true (Json.oneLine_message error) (List.forall_mem_nil _)
  | unknownCrate name directory =>
    dsimp only [message]
    rw [Failure.quotations, oneLine_append_right (by decide +kernel), oneLine_append,
      oneLine_append_right (by decide +kernel), oneLine_append_left (by decide +kernel),
      List.forall_mem_cons, List.forall_mem_singleton]
  | unpublished name code =>
    dsimp only [message]
    rw [Failure.quotations, oneLine_append_right (oneLine_int code),
      oneLine_append_right (by decide +kernel), oneLine_append_left (by decide +kernel),
      List.forall_mem_singleton]
  | stated text code => exact (List.forall_mem_singleton ..).symm
  | statedUnknown text code => exact (List.forall_mem_singleton ..).symm

/-- A message is one line exactly if every text that it repeats is one. -/
theorem Failure.oneLine_message_iff (f : Failure) :
    OneLine f.message ↔ ∀ text ∈ f.quotations, OneLine text := by
  cases f with
  | cargo g => exact g.oneLine_message_iff
  | absent g =>
    cases g with
    | neverSeen name version attempts =>
      dsimp only [message, AbsenceFailure.message]
      rw [quotations, oneLine_append_right (by decide +kernel),
        oneLine_append_right (oneLine_nat attempts), oneLine_append_right (by decide +kernel),
        oneLine_append, oneLine_append_right (by decide +kernel),
        oneLine_append_left (by decide +kernel), List.forall_mem_cons, List.forall_mem_singleton]
    | stated text => exact (List.forall_mem_singleton ..).symm
  | _ => exact (List.forall_mem_singleton ..).symm

namespace Publication

open Dialogue

/-- A publication that is stopped reports the failure of one of its crates. -/
theorem exists_failure_of_stopped {plan : Plan} {policy : Policy} {names : List String}
    {states : Entries String CrateState} {es : List (Exchange steps)} {report : Report}
    {error : String} (h : (publishEach plan policy states names).Unfolds es (.ok report))
    (herror : report.error = some error) :
    ∃ name ∈ names, ∃ f : Failure, f.isReported = true ∧
      report.states.get? name = some .failed ∧ error = name ++ ": " ++ f.message := by
  induction names generalizing states es with
  | nil =>
    obtain ⟨-, ho⟩ := unfolds_done_iff.mp h
    obtain rfl := Except.ok.inj ho
    cases herror
  | cons name rest ih =>
    rcases publishEach_cons_cases h with ⟨state, es₁, es₂, -, h₂, -⟩ | ⟨f, -, ho⟩
    · obtain ⟨failed, hmem, hfailure⟩ := ih h₂
      exact ⟨failed, List.mem_cons_of_mem name hmem, hfailure⟩
    · cases hreported : f.isReported with
      | true =>
        rw [if_pos hreported] at ho
        obtain rfl := Except.ok.inj ho
        exact ⟨name, List.mem_cons_self .., f, hreported, Entries.get?_put_self _ _ _,
          (Option.some.inj herror).symm⟩
      | false =>
        rw [if_neg (by simp [hreported])] at ho
        cases ho

end Publication

namespace Release

open Dialogue Publication Text

/-- What was written to the stream for complaints, line by line. -/
def complaints (es : List (Exchange world)) : List String :=
  es.filterMap fun e =>
    match e.question with
    | .warn line => some line
    | _ => none

/-- How the last complaint of a release that a crate has stopped begins. -/
def opening (name : String) : String := "[publish] ❌ " ++ name ++ ":"

variable {σ : Type} {around : Surroundings} {asked : Invocation} {settings : Settings} {plan : Plan}
  {workspace : Workspace} {client : Registry.Client} {partner : Partner world σ} {s : σ}
  {report : Report} {error : String}

/-- The publication in a release that was prepared in this way: it begins where the settings have
been loaded and their source was announced. -/
def publication (around : Surroundings) (asked : Invocation) (settings : Settings) (plan : Plan)
    (workspace : Workspace) (client : Registry.Client) (partner : Partner world σ) (s : σ) :
    Course world σ Report :=
  (carryOut workspace client (publishAll plan .standard)).play partner
    (partner (announced settings).question
      ((settingsFor around asked.config).play partner s).state).2

/-- What is left to do once a release is prepared. -/
theorem performWith_of_prepared (h : Prepared around asked settings plan workspace client) :
    performWith around asked settings =
      World.say ("[publish] Конфигурация: " ++ settings.source) >>= fun _ =>
        carryOut workspace client (publishAll plan .standard) >>= conclude := by
  rw [performWith, h.planned, h.opened, h.connected]
  rfl

/-- A release whose publication was stopped ends with the exit code of the report, and complains
about the error last of all. -/
theorem course_of_stopped
    (hsettings : ((settingsFor around asked.config).play partner s).outcome = .ok settings)
    (hprepared : Prepared around asked settings plan workspace client)
    (hreport :
      (publication around asked settings plan workspace client partner s).outcome = .ok report)
    (herror : report.error = some error) :
    ((perform around asked).play partner s).outcome = .ok report.exitCode ∧
      ∃ before, ((perform around asked).play partner s).exchanges =
        before ++ [complained error] := by
  rw [publication] at hreport
  rw [perform_eq, play_bind]
  generalize (settingsFor around asked.config).play partner s = loading at *
  obtain ⟨outcome, load, s'⟩ := loading
  obtain rfl := hsettings
  have hannounce (next : Unit → Dialogue world Int) :
      (World.say ("[publish] Конфигурация: " ++ settings.source) >>= next).play partner s' =
        ((next ()).play partner (partner (announced settings).question s').2).behind
          (announced settings) := rfl
  rw [Course.andThen, performWith_of_prepared hprepared, hannounce, play_bind]
  generalize (carryOut workspace client (publishAll plan .standard)).play partner
    (partner (announced settings).question s').2 = published at *
  obtain ⟨outcome, during, s''⟩ := published
  obtain rfl := hreport
  have hconclude : conclude report =
      World.warn ("[publish] ❌ " ++ error) >>= fun _ => pure report.exitCode := by
    rw [conclude, herror]
  rw [Course.andThen, hconclude]
  refine ⟨rfl, load ++ announced settings :: during, ?_⟩
  rw [List.append_assoc]
  rfl

/-- What was written last is the last of the complaints. -/
theorem complaints_append_complained (before : List (Exchange world)) (error : String) :
    complaints (before ++ [complained error]) =
      complaints before ++ ["[publish] ❌ " ++ error] := List.filterMap_append

/-- The last line of a complaint about a crate begins with the name of the crate exactly if the
message is one line, or if the last line of the message happens to begin so. -/
theorem opening_prefix_iff {name message : String} (hname : OneLine name) :
    (opening name).toList <+:
        behindBreak ("[publish] ❌ " ++ (name ++ ": " ++ message)).toList ↔
      OneLine message ∨ (opening name).toList <+: behindBreak message.toList := by
  have hsplit : "[publish] ❌ " ++ (name ++ ": " ++ message) = opening name ++ (" " ++ message) := by
    have hgrouped (mark colon blank : String) :
        mark ++ (name ++ (colon ++ blank) ++ message) =
          mark ++ name ++ colon ++ (blank ++ message) := by
      simp only [String.append_assoc]
    exact hgrouped "[publish] ❌ " ":" " "
  have hopening : OneLine (opening name) := by
    have hmarked : OneLine ("[publish] ❌ " ++ name) :=
      (oneLine_append_left (by decide +kernel)).mpr hname
    exact (oneLine_append_right (by decide +kernel)).mpr hmarked
  rw [hsplit]
  by_cases hmessage : OneLine message
  · have hline : OneLine (opening name ++ (" " ++ message)) :=
      (oneLine_append_left hopening).mpr ((oneLine_append_left (by decide +kernel)).mpr hmessage)
    rw [behindBreak_of_oneLine hline, String.toList_append]
    exact iff_of_true (List.prefix_append ..) (.inl hmessage)
  · rw [← String.append_assoc, behindBreak_append_of_not_oneLine hmessage, or_iff_right hmessage]

/-- **The last line names the crate, if the message is one line.**  Let a release have begun to
publish, and let the publication end with a report that has an error.  Then the program ends with
the exit code of the report; the report is about a crate of the plan that has failed, its error is
the name of the crate with the message of a failure behind it, and the complaint about it is the
last that the release does.  If the name of the crate is one line, the last line of all complaints
begins with it exactly if all texts of others that the message repeats are one line each, or if
the last line of the message itself begins in the same way. -/
theorem last_line_names_crate (around : Surroundings) (arguments : List String)
    (asked : Invocation) (settings : Settings) (plan : Plan) (workspace : Workspace)
    (client : Registry.Client) (partner : Partner world σ) (s : σ) (report : Report)
    (error : String) (hread : CommandLine.read arguments = .ok asked)
    (hsettings : ((settingsFor around asked.config).play partner s).outcome = .ok settings)
    (hprepared : Prepared around asked settings plan workspace client)
    (hreport :
      (publication around asked settings plan workspace client partner s).outcome = .ok report)
    (herror : report.error = some error) :
    let course := (run around arguments).play partner s
    course.outcome = .ok report.exitCode ∧
      ∃ name ∈ plan.crates, ∃ f : Failure, f.isReported = true ∧
        report.states.get? name = some .failed ∧ error = name ++ ": " ++ f.message ∧
        (∃ before, course.exchanges = before ++ [complained error]) ∧
        (OneLine name →
          ((opening name).toList <+: lastLine (stream (complaints course.exchanges)) ↔
            (∀ text ∈ f.quotations, OneLine text) ∨
              (opening name).toList <+: behindBreak f.message.toList)) := by
  intro course
  obtain ⟨houtcome, before, hbefore⟩ := course_of_stopped hsettings hprepared hreport herror
  obtain ⟨steps, hsteps, -⟩ := exists_expansion_of_carryOut
    (hreport ▸ unfolds_play partner (carryOut workspace client (publishAll plan .standard)) _)
  obtain ⟨rest, -, hbooks⟩ := unfolds_publishAll_iff.mp hsteps
  obtain ⟨name, hname, f, hreported, hstate, rfl⟩ := exists_failure_of_stopped hbooks herror
  have hcourse : course.exchanges = before ++ [complained (name ++ ": " ++ f.message)] :=
    (exchanges_run hread).trans hbefore
  refine ⟨outcome_run_of_ok hread houtcome, name, hname, f, hreported, hstate, rfl,
    ⟨before, hcourse⟩, fun hline => ?_⟩
  rw [hcourse, complaints_append_complained, lastLine_stream, opening_prefix_iff hline,
    f.oneLine_message_iff]

/-- A world in which cargo describes the workspace in this way and refuses to publish anything, and
in which the registry has nothing. -/
def refusingWorld (description : Finished) : Partner world Unit
  | .say _, s | .warn _, s | .pause _, s => ((), s)
  | .cargo _ _ true, s => (.ok description, s)
  | .cargo _ _ false, s => (.ok ⟨101, "", none⟩, s)
  | .get _ _ _, s => (.ok ⟨404, "Not Found", ""⟩, s)

/-- The release of a crate in a directory with a manifest and nothing else can be prepared. -/
theorem exists_prepared_bareWorkspace :
    ∃ client, Prepared bareWorkspace ⟨["app"], .search, none, false⟩
      ⟨Settings.standard, Settings.standardSource⟩ ⟨["app"], none, [], false⟩ ⟨⟨.single, []⟩⟩
      client :=
  ⟨_, rfl, rfl, rfl⟩

/-- The complaint about a crate that cargo does not publish has one line, so the last line names
the crate. -/
theorem last_line_names_crate_of_app :
    CommandLine.read ["app"] = .ok ⟨["app"], .search, none, false⟩ ∧
      ((run bareWorkspace ["app"]).play (refusingWorld appDescribed) ()).outcome = .ok 101 ∧
      (opening "app").toList <+: lastLine (stream (complaints
        ((run bareWorkspace ["app"]).play (refusingWorld appDescribed) ()).exchanges)) := by
  have hread : CommandLine.read ["app"] = .ok ⟨["app"], .search, none, false⟩ := rfl
  have hsettings : ((settingsFor bareWorkspace .search).play (refusingWorld appDescribed)
      ()).outcome = .ok ⟨Settings.standard, Settings.standardSource⟩ := rfl
  obtain ⟨client, hprepared⟩ := exists_prepared_bareWorkspace
  have hreport : (publication bareWorkspace ⟨["app"], .search, none, false⟩
      ⟨Settings.standard, Settings.standardSource⟩ ⟨["app"], none, [], false⟩ ⟨⟨.single, []⟩⟩
      client (refusingWorld appDescribed) ()).outcome =
        .ok ⟨[("app", .failed)],
          some ("app" ++ ": " ++ (Failure.cargo (.unpublished "app" 101)).message), 101⟩ := by
    with_unfolding_all rfl
  obtain ⟨houtcome, name, hname, f, -, -, herror, -, hline⟩ := last_line_names_crate bareWorkspace
    ["app"] _ _ _ _ _ (refusingWorld appDescribed) () _ _ hread hsettings hprepared hreport rfl
  refine ⟨hread, houtcome, ?_⟩
  obtain rfl := List.mem_singleton.mp hname
  have hmessage : f.message = (Failure.cargo (.unpublished "app" 101)).message :=
    (String.append_right_inj ("app" ++ ": ")).mp herror.symm
  refine (hline (by decide)).mpr (.inl (f.oneLine_message_iff.mp ?_))
  rw [hmessage]
  exact (Failure.oneLine_message_iff _).mpr ((List.forall_mem_singleton ..).mpr (by decide))

/-- What cargo prints about a manifest that it cannot read. -/
def unparsableManifest : Finished where
  code := 101
  output := ""
  complaint := some "error: failed to parse manifest\n\nCaused by:\n  missing field package"

/-- What cargo prints about a manifest that it cannot read has four lines.  The publication is
stopped by the crate, but the last line of all complaints is the last one of cargo's, and does not
begin with the name of the crate. -/
theorem last_line_of_cargo :
    OneLine "app" ∧
      (∃ client, Prepared bareWorkspace ⟨["app"], .search, none, false⟩
          ⟨Settings.standard, Settings.standardSource⟩ ⟨["app"], none, [], false⟩ ⟨⟨.single, []⟩⟩
          client ∧
        (publication bareWorkspace ⟨["app"], .search, none, false⟩
          ⟨Settings.standard, Settings.standardSource⟩ ⟨["app"], none, [], false⟩ ⟨⟨.single, []⟩⟩
          client (refusingWorld unparsableManifest) ()).outcome =
            .ok ⟨[("app", .failed)], some ("app: " ++ unparsableManifest.complaint.getD ""), 101⟩) ∧
      ((run bareWorkspace ["app"]).play (refusingWorld unparsableManifest) ()).outcome = .ok 101 ∧
      lastLine (stream (complaints
          ((run bareWorkspace ["app"]).play (refusingWorld unparsableManifest) ()).exchanges)) =
        "  missing field package".toList ∧
      ¬(opening "app").toList <+: lastLine (stream (complaints
        ((run bareWorkspace ["app"]).play (refusingWorld unparsableManifest) ()).exchanges)) := by
  obtain ⟨client, hprepared⟩ := exists_prepared_bareWorkspace
  have hlast : lastLine (stream (complaints
      ((run bareWorkspace ["app"]).play (refusingWorld unparsableManifest) ()).exchanges)) =
        "  missing field package".toList := by
    decide +kernel
  refine ⟨by decide, ⟨client, hprepared, by with_unfolding_all rfl⟩, by with_unfolding_all rfl,
    hlast, ?_⟩
  rw [hlast]
  decide +kernel

end Release

end ReleaseTrain
