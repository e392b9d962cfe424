import ReleaseTrain.Proofs.Cargo.Orderly
import ReleaseTrain.Proofs.Publication.Breakage
import ReleaseTrain.Proofs.Publication.CarriedOut
import ReleaseTrain.Proofs.Publication.Discipline
import ReleaseTrain.Proofs.Publication.Log

/-!
# Lookups that fail are reported

A release looks every crate up before it publishes it, and again in order to publish it.  If
cargo describes the workspace in an orderly way, a lookup that fails ends the release with a
report; if not, the release ends without one.

* `Arises`: where the failure of a release comes from; `closed_of_publishEach`: what closes the
  books of a release.
* `exists_failure_of_escape`: a release without a report was answered with a failure that is not
  reported; `publishEach_of_failure`: whatever failure it was answered with, it ends with it.
* `Log.LooksUp`: the lookups of a release; `failureOf_of_lookup`: what a lookup fails with is what
  its step is answered with.
* `release_of_lookups`: the statement.
* `empty_packages_not_reported`: why the description has to be orderly.
-/

namespace ReleaseTrain.Publication

open Dialogue

variable {σ : Type} {workspace : Workspace} {client : Registry.Client} {plan : Plan}
  {policy : Policy} {name : String} {cs es : List (Exchange steps)} {f : Failure}

/-! ## Failures of a release -/

/-- Where the failure of a release comes from: a call was answered with it, a crate did not turn
up, or the pause behind a publication is too long to be told. -/
def Arises (policy : Policy) (es : List (Exchange steps)) (f : Failure) : Prop :=
  (∃ e ∈ es, failureOf e = some f) ∨ (∃ g, f = .absent g) ∨
    (f = .tooLarge ∧ policy.settling.brief? = none)

theorem Arises.mono {es' : List (Exchange steps)} (h : Arises policy es f) (hsub : es ⊆ es') :
    Arises policy es' f := by
  refine h.imp_left ?_
  rintro ⟨e, he, hf⟩
  exact ⟨e, hsub he, hf⟩

/-- The failure of a turn arises in it. -/
theorem Turn.arises_of_error (h : Turn plan policy name cs (.error f)) : Arises policy cs f := by
  cases h with
  | unknown f => exact .inl ⟨_, List.mem_singleton.mpr rfl, rfl⟩
  | unchecked version f =>
    exact .inl ⟨_, List.mem_cons_of_mem _ (List.mem_singleton.mpr rfl), rfl⟩
  | @entrusted version _ absent _ _ _ after =>
    cases after with
    | refused f => exact .inl ⟨tried plan name (.error f), by simp, rfl⟩
    | lost real wait =>
      cases wait with
      | untold search long => exact .inr (.inr ⟨rfl, long⟩)
      | lost search =>
        rcases search.broken_of_error with ⟨front, rfl⟩ | ⟨hf, -⟩
        · exact .inl ⟨looked name version (.error f), by simp, rfl⟩
        · exact .inr (.inl ⟨_, hf⟩)

/-- The books of a release are closed by its last crate, or by a failure that arises in it. -/
theorem closed_of_publishEach {names : List String} {states : Entries String CrateState}
    {o : Except Failure Report} (h : (publishEach plan policy states names).Unfolds es o) :
    (∃ last, o = .ok ⟨last, none, 0⟩) ∨ ∃ f last name, Arises policy es f ∧
      o = if f.isReported then .ok ⟨last, some (name ++ ": " ++ f.message), f.exitCode⟩
        else .error f := by
  induction names generalizing states es with
  | nil => exact .inl ⟨states, (unfolds_done_iff.mp h).2⟩
  | cons name rest ih =>
    rcases publishEach_cons_cases h with ⟨state, es₁, es₂, -, h₂, rfl⟩ | ⟨f, h, ho⟩
    · refine (ih h₂).imp_right ?_
      rintro ⟨f, last, name, hf, ho⟩
      exact ⟨f, last, name, hf.mono (List.subset_append_right es₁ es₂), ho⟩
    · refine .inr ⟨f, states.put name .failed, name, ?_, ho⟩
      exact (turn_of_unfolds h).arises_of_error.mono fun e he => (mem_calls.mp he).1

/-- A release that ends without a report was answered with a failure that is not reported. -/
theorem exists_failure_of_escape (hsettling : policy.settling.brief? ≠ none) {names : List String}
    {states : Entries String CrateState}
    (h : (publishEach plan policy states names).Unfolds es (.error f)) :
    f.isReported = false ∧ ∃ e ∈ es, failureOf e = some f := by
  rcases closed_of_publishEach h with ⟨last, ho⟩ | ⟨g, last, name, harises, ho⟩
  · cases ho
  · cases hreported : g.isReported with
    | true =>
      rw [if_pos hreported] at ho
      cases ho
    | false =>
      rw [if_neg (by simp [hreported])] at ho
      obtain rfl := Except.error.inj ho
      rcases harises with hanswered | ⟨g, rfl⟩ | ⟨-, hbrief⟩
      · exact ⟨hreported, hanswered⟩
      · cases hreported
      · exact absurd hbrief hsettling

/-- A call in a turn that was answered with a failure is about the crate of the turn, and the
turn ends with the failure. -/
theorem turn_of_failure {o : Except Failure CrateState}
    (h : (publishCrate plan policy name).Unfolds es o) {e : Exchange steps} (he : e ∈ es)
    (hf : failureOf e = some f) : e.question.crate? = some name ∧ o = .error f := by
  have hline : kindOf e ≠ .line := by
    intro hline
    obtain ⟨question, answer⟩ := e
    cases question <;> cases hline
    cases hf
  have hturn := turn_of_unfolds h
  have hcall : e ∈ calls es := mem_calls.mpr ⟨he, hline⟩
  refine ⟨?_, ?_⟩
  · refine (hturn.crate?_of_mem hcall).resolve_left fun hnone => ?_
    obtain ⟨question, answer⟩ := e
    cases question with
    | say line => exact hline rfl
    | pause seconds => cases hf
    | _ => cases hnone
  · obtain ⟨front, rest, hsplit⟩ := List.append_of_mem hcall
    exact endedBy_eq_some_iff.mp (hturn.failsLast.eq_nil hsplit hf).2

/-- A release that was answered with a failure ends with it: with a report that the crate has
failed, or, if it is not reported, with the failure itself. -/
theorem publishEach_of_failure {names : List String} {states : Entries String CrateState}
    {o : Except Failure Report} (h : (publishEach plan policy states names).Unfolds es o)
    {e : Exchange steps} (he : e ∈ es) (hf : failureOf e = some f)
    (hname : e.question.crate? = some name) :
    (f.isReported = true → ∃ report, o = .ok report ∧
        report.states.get? name = some .failed ∧
          report.error = some (name ++ ": " ++ f.message) ∧ report.exitCode = f.exitCode) ∧
      (f.isReported = false → o = .error f) := by
  induction names generalizing states es with
  | nil =>
    obtain ⟨rfl, -⟩ := unfolds_done_iff.mp h
    cases he
  | cons first rest ih =>
    rcases publishEach_cons_cases h with ⟨state, es₁, es₂, h₁, h₂, rfl⟩ | ⟨g, hfirst, rfl⟩
    · rcases List.mem_append.mp he with he | he
      · cases (turn_of_failure h₁ he hf).2
      · exact ih h₂ he
    · obtain ⟨hcrate, hg⟩ := turn_of_failure hfirst he hf
      obtain rfl := Except.error.inj hg
      obtain rfl := Option.some.inj (hname.symm.trans hcrate)
      refine ⟨fun hreported => ⟨_, if_pos hreported, ?_, rfl, rfl⟩, fun hreported => ?_⟩
      · exact Entries.get?_put_self _ _ _
      · exact if_neg (by simp [hreported])

/-! ## Lookups in the world -/

/-- The log of a release has a lookup of a crate: a step about the crate in which cargo was asked
to describe the workspace, with this answer. -/
def Log.LooksUp (log : Log) (workspace : Workspace) (name : String)
    (answer : Except Failure Finished) : Prop :=
  ∃ entry ∈ log, entry.1.question.crate? = some name ∧ workspace.described answer ∈ entry.2

/-- What a lookup fails with is what its step is answered with. -/
theorem failureOf_of_lookup {entry : Exchange steps × List (Exchange world)}
    (hentry : (entry.1.question.carryOut workspace client).Unfolds entry.2 (.ok entry.1.answer))
    (hname : entry.1.question.crate? = some name) {answer : Except Failure Finished}
    (hanswer : workspace.described answer ∈ entry.2)
    (hf : workspace.lookup name answer = .error f) : failureOf entry.1 = some f := by
  obtain ⟨⟨question, told⟩, piece⟩ := entry
  cases question with
  | say line => cases hname
  | pause seconds => cases hname
  | localVersion name' =>
    obtain rfl := Option.some.inj hname
    obtain ⟨description, rfl, rfl⟩ := Step.exists_of_carryOut_localVersion hentry
    cases List.mem_singleton.mp hanswer
    simp only [hf]
    rfl
  | publishedAt name' version =>
    obtain ⟨response, -, rfl | ⟨reason, rfl⟩⟩ := Step.exists_of_carryOut_publishedAt hentry
    · cases List.mem_singleton.mp hanswer
    · rcases List.mem_cons.mp hanswer with h | h
      · cases h
      · cases List.mem_singleton.mp h
  | publish name' token flags dryRun =>
    obtain rfl := Option.some.inj hname
    cases Step.handling_of_carryOut hentry with
    | unknown h =>
      cases List.mem_singleton.mp hanswer
      rw [h] at hf
      exact congrArg some (Except.error.inj hf)
    | shown h =>
      rcases List.mem_cons.mp hanswer with heq | hlast
      · cases heq
        rw [h] at hf
        cases hf
      · cases List.mem_singleton.mp hlast
    | run h result =>
      rcases List.mem_cons.mp hanswer with heq | hlast
      · cases heq
        rw [h] at hf
        cases hf
      · injection List.mem_singleton.mp hlast with hquestion
        injection hquestion with _ _ hcaptured
        cases hcaptured

/-- If lookups are orderly, the registry reports its failures and cargo is kept from starting by
the system alone, then whatever failure a release is answered with is reported. -/
theorem isReported_of_orderly {entry : Exchange steps × List (Exchange world)}
    (hentry : (entry.1.question.carryOut workspace client).Unfolds entry.2 (.ok entry.1.answer))
    (hcargo : ∀ directory arguments captured f,
      (⟨.cargo directory arguments captured, .error f⟩ : Exchange world) ∈ entry.2 →
        f.isOfSystem = true)
    (hregistry : ∀ name version f, entry.1 = looked name version (.error f) → f.isReported = true)
    (horderly : ∀ name finished, entry.1.question.crate? = some name →
      workspace.described (.ok finished) ∈ entry.2 → finished.Orderly name)
    (hf : failureOf entry.1 = some f) : f.isReported = true := by
  have hlookup {name : String} {answer : Except Failure Finished}
      (hname : entry.1.question.crate? = some name) (hanswer : workspace.described answer ∈ entry.2)
      (h : workspace.lookup name answer = .error f) : f.isReported = true := by
    have hstart : ∀ g, answer = .error g → g.isOfSystem = true := by
      rintro g rfl
      exact hcargo _ _ _ g hanswer
    obtain ⟨g, rfl⟩ := (Workspace.lookup_orderly_iff workspace hstart).mpr
      (fun finished hfinished => horderly name finished hname (hfinished ▸ hanswer)) f h
    rfl
  obtain ⟨⟨question, told⟩, piece⟩ := entry
  cases question with
  | say line => cases hf
  | pause seconds => cases hf
  | localVersion name =>
    obtain ⟨description, rfl, rfl⟩ := Step.exists_of_carryOut_localVersion hentry
    cases hanswer : workspace.lookup name description with
    | ok crate =>
      simp only [hanswer] at hf
      cases hf
    | error g =>
      simp only [hanswer] at hf
      cases hf
      exact hlookup rfl (List.mem_singleton.mpr rfl) hanswer
  | publishedAt name version =>
    cases told with
    | ok date => cases hf
    | error g =>
      cases hf
      exact hregistry name version f rfl
  | publish name token flags dryRun =>
    cases told with
    | ok _ => cases hf
    | error g =>
      cases hf
      rcases (Step.handling_of_carryOut hentry).lookup_or_cargo hcargo with
        ⟨answer, hanswer, h⟩ | ⟨g, rfl⟩
      · exact hlookup rfl hanswer h
      · rfl

/-! ## The statement -/

section Release

variable {partner : Partner world σ} {s : σ}

/-- The first crate of a plan is looked up. -/
theorem exists_looksUp_of_cons {rest : List String} (hcrates : plan.crates = name :: rest) :
    ∃ answer, (logOf workspace client (publishAll plan policy) partner s).LooksUp workspace name
      answer := by
  have hunfolds := unfolds_asked_logOf workspace client partner (publishAll plan policy) s
  obtain ⟨es, hes, hbooks⟩ := unfolds_publishAll_iff.mp hunfolds
  rw [hcrates] at hbooks
  have hfirst : ∃ cs, (∃ o, (publishCrate plan policy name).Unfolds cs o) ∧ cs ⊆ es := by
    rcases publishEach_cons_cases hbooks with ⟨state, es₁, es₂, h, -, rfl⟩ | ⟨f, h, -⟩
    · exact ⟨es₁, ⟨_, h⟩, List.subset_append_left es₁ es₂⟩
    · exact ⟨es, ⟨_, h⟩, List.Subset.refl es⟩
  obtain ⟨cs, ⟨o, hcrate⟩, hsub⟩ := hfirst
  obtain ⟨version, later, hcalls, -⟩ := (turn_of_unfolds hcrate).version_first
  have htold : told name version ∈ cs :=
    (mem_calls.mp (hcalls ▸ List.mem_cons_self .. : told name version ∈ calls cs)).1
  have hasked : told name version ∈
      (logOf workspace client (publishAll plan policy) partner s).asked := by
    rw [hes]
    exact List.mem_cons_of_mem _ (hsub htold)
  obtain ⟨piece, hentry⟩ := exists_mem_of_mem_asked hasked
  obtain ⟨answer, hpiece, -⟩ := Step.exists_of_carryOut_localVersion
    (spells_logOf workspace client partner (publishAll plan policy) s _ hentry)
  refine ⟨answer, _, hentry, rfl, ?_⟩
  rw [hpiece]
  exact List.mem_singleton.mpr rfl

/-- What holds of a partner's answers holds of the answers in a log. -/
theorem isOfSystem_of_mem_log
    (hcargo : ∀ directory arguments captured s f,
      (partner (.cargo directory arguments captured) s).1 = .error f → f.isOfSystem = true)
    {d : Dialogue steps Report} {entry : Exchange steps × List (Exchange world)}
    (hentry : entry ∈ logOf workspace client d partner s) {directory : Path}
    {arguments : List String} {captured : Bool}
    (hmem : (⟨.cargo directory arguments captured, .error f⟩ : Exchange world) ∈ entry.2) :
    f.isOfSystem = true := by
  obtain ⟨s', -, hpiece⟩ := exists_play_of_mem_spelled hentry
  rw [← hpiece] at hmem
  obtain ⟨s'', hanswer⟩ := exists_state_of_mem_exchanges hmem
  exact hcargo directory arguments captured s'' f hanswer.symm

/-- A look in a log is answered as the registry answers it. -/
theorem isReported_of_mem_log
    (hregistry : ∀ name version s f,
      ((client.publishedAt name version).play partner s).outcome = .error f → f.isReported = true)
    {d : Dialogue steps Report} {entry : Exchange steps × List (Exchange world)}
    (hentry : entry ∈ logOf workspace client d partner s) {version : String}
    (hlooked : entry.1 = looked name version (.error f)) : f.isReported = true := by
  obtain ⟨s', hanswer, -⟩ := exists_play_of_mem_spelled hentry
  rw [hlooked, Step.carryOut, play_attempt] at hanswer
  exact hregistry name version s' f (Except.ok.inj hanswer)

/-- A release in which every lookup is orderly ends with a report. -/
theorem exists_report_of_orderly
    (hcargo : ∀ directory arguments captured s f,
      (partner (.cargo directory arguments captured) s).1 = .error f → f.isOfSystem = true)
    (hregistry : ∀ name version s f,
      ((client.publishedAt name version).play partner s).outcome = .error f → f.isReported = true)
    (hsettling : policy.settling.brief? ≠ none)
    (horderly : ∀ name finished,
      (logOf workspace client (publishAll plan policy) partner s).LooksUp workspace name
        (.ok finished) → finished.Orderly name) :
    ∃ report,
      ((carryOut workspace client (publishAll plan policy)).play partner s).outcome =
        .ok report := by
  have hunfolds := unfolds_asked_logOf workspace client partner (publishAll plan policy) s
  cases houtcome : ((carryOut workspace client (publishAll plan policy)).play partner s).outcome with
  | ok report => exact ⟨report, rfl⟩
  | error f =>
    rw [houtcome] at hunfolds
    obtain ⟨es, hes, hbooks⟩ := unfolds_publishAll_iff.mp hunfolds
    obtain ⟨hreported, e, he, hf⟩ := exists_failure_of_escape hsettling hbooks
    have hasked : e ∈ (logOf workspace client (publishAll plan policy) partner s).asked := by
      rw [hes]
      exact List.mem_cons_of_mem _ he
    obtain ⟨piece, hentry⟩ := exists_mem_of_mem_asked hasked
    have hreported' : f.isReported = true :=
      isReported_of_orderly
        (spells_logOf workspace client partner (publishAll plan policy) s _ hentry)
        (fun _ _ _ _ hmem => isOfSystem_of_mem_log hcargo hentry hmem)
        (fun _ _ _ heq => isReported_of_mem_log hregistry hentry heq)
        (fun name finished hname hdescribed =>
          horderly name finished ⟨_, hentry, hname, hdescribed⟩) hf
    rw [hreported] at hreported'
    cases hreported'

/-- A lookup that fails ends a release: with a report that the crate has failed, or, if the
failure is not reported, with the failure itself. -/
theorem release_of_lookup_error {answer : Except Failure Finished}
    (hlooks : (logOf workspace client (publishAll plan policy) partner s).LooksUp workspace name
      answer)
    (hf : workspace.lookup name answer = .error f) :
    (f.isReported = true → ∃ report,
        ((carryOut workspace client (publishAll plan policy)).play partner s).outcome =
            .ok report ∧
          report.states.get? name = some .failed ∧
            report.error = some (name ++ ": " ++ f.message)) ∧
      (f.isReported = false →
        ((carryOut workspace client (publishAll plan policy)).play partner s).outcome =
          .error f) := by
  obtain ⟨entry, hentry, hname, hanswer⟩ := hlooks
  have hfailure := failureOf_of_lookup
    (spells_logOf workspace client partner (publishAll plan policy) s _ hentry) hname hanswer hf
  obtain ⟨es, hes, hbooks⟩ := unfolds_publishAll_iff.mp
    (unfolds_asked_logOf workspace client partner (publishAll plan policy) s)
  have hasked : entry.1 ∈ (logOf workspace client (publishAll plan policy) partner s).asked :=
    List.mem_map_of_mem hentry
  rw [hes] at hasked
  rcases List.mem_cons.mp hasked with hline | he
  · rw [hline] at hname
    cases hname
  · obtain ⟨hreport, hescape⟩ := publishEach_of_failure hbooks he hfailure hname
    refine ⟨fun hreported => ?_, hescape⟩
    obtain ⟨report, houtcome, hstate, herror, -⟩ := hreport hreported
    exact ⟨report, houtcome, hstate, herror⟩

end Release

/-- **Lookups that fail are reported, in what is orderly.**  Let cargo, if it does not start, be
kept from it by the system, let the registry fail in no way that is not reported, and let the
pause behind a publication be one that can be told.  Then a workspace tells the version and the
manifest of a crate, or fails to tell them as cargo, exactly if what cargo has left behind is
orderly for this crate.  A release looks up the first crate of its plan.  It ends with a report
exactly if every lookup in it found what is orderly; and if a lookup fails as cargo, the report
says that its crate has failed, and why. -/
theorem release_of_lookups (plan : Plan) (policy : Policy) (workspace : Workspace)
    (client : Registry.Client) (partner : Partner world σ)
    (hcargo : ∀ directory arguments captured s f,
      (partner (.cargo directory arguments captured) s).1 = .error f → f.isOfSystem = true)
    (hregistry : ∀ name version s f,
      ((client.publishedAt name version).play partner s).outcome = .error f → f.isReported = true)
    (hsettling : policy.settling.brief? ≠ none) :
    (∀ name s,
      let orderly := ∀ finished,
        (partner (.cargo workspace.directory Cargo.describeArguments true) s).1 = .ok finished →
          finished.Orderly name
      ((∀ f, ((workspace.version name).play partner s).outcome = .error f → ∃ g, f = .cargo g) ↔
          orderly) ∧
        ((∀ f, ((workspace.manifest name).play partner s).outcome = .error f →
          ∃ g, f = .cargo g) ↔ orderly)) ∧
      ∀ s,
        let log := logOf workspace client (publishAll plan policy) partner s
        let outcome := ((carryOut workspace client (publishAll plan policy)).play partner s).outcome
        (∀ name rest, plan.crates = name :: rest → ∃ answer, log.LooksUp workspace name answer) ∧
          ((∃ report, outcome = .ok report) ↔
            ∀ name finished, log.LooksUp workspace name (.ok finished) → finished.Orderly name) ∧
          ∀ name answer g, log.LooksUp workspace name answer →
            workspace.lookup name answer = .error (.cargo g) →
              ∃ report, outcome = .ok report ∧ report.states.get? name = some .failed ∧
                report.error = some (name ++ ": " ++ g.message) := by
  refine ⟨fun name s => ?_, fun s => ⟨fun name rest => exists_looksUp_of_cons, ⟨?_, ?_⟩, ?_⟩⟩
  · exact ⟨Workspace.told_orderly_iff (·.version) (hcargo _ _ _ s),
      Workspace.told_orderly_iff (·.manifest) (hcargo _ _ _ s)⟩
  · rintro ⟨report, hreport⟩ name finished hlooks
    refine Classical.byContradiction fun hdisorder => ?_
    obtain ⟨f, hf, hreported⟩ := Workspace.lookup_of_not_orderly workspace hdisorder
    have houtcome := (release_of_lookup_error hlooks hf).2 hreported
    cases hreport.symm.trans houtcome
  · exact exists_report_of_orderly hcargo hregistry hsettling
  · exact fun name answer g hlooks hf => (release_of_lookup_error hlooks hf).1 rfl

/-! ## Two descriptions -/

/-- A world in which cargo has nothing to say but a text and the registry knows no crate. -/
def describing (text : String) : Partner world Unit
  | .say _, s | .warn _, s | .pause _, s => ((), s)
  | .cargo _ _ _, s => (.ok ⟨0, text, none⟩, s)
  | .get _ _ _, s => (.ok notFound, s)

theorem isOfSystem_of_describing (text : String) (directory : Path) (arguments : List String)
    (captured : Bool) (s : Unit) (f : Failure)
    (h : (describing text (.cargo directory arguments captured) s).1 = .error f) :
    f.isOfSystem = true := by
  cases h

theorem isReported_of_describing (text name version : String) (s : Unit) (f : Failure)
    (h : ((standardClient.publishedAt name version).play (describing text) s).outcome =
      .error f) : f.isReported = true := by
  cases h

/-- A plan with one crate. -/
abbrev appOnly : Plan := ⟨["app"], none, [], false⟩

/-- What cargo has printed is no document at all, and the release says so. -/
theorem release_of_lookups_in_noise :
    (Finished.mk 0 "noise" none).Orderly "app" ∧
      ∃ report, ((carryOut appWorkspace standardClient (publishAll appOnly .standard)).play
          (describing "noise") ()).outcome = .ok report ∧
        report.states.get? "app" = some .failed ∧
        report.error = some ("app: cargo metadata вернул некорректный JSON: " ++
          "Expecting value: line 1 column 1 (char 0)") := by
  obtain ⟨-, hrelease⟩ := release_of_lookups appOnly .standard appWorkspace standardClient
    (describing "noise") (isOfSystem_of_describing _) (isReported_of_describing _) (by decide)
  obtain ⟨-, -, hreport⟩ := hrelease ()
  have hparse : Json.parse "noise" = .error (.broken .valueExpected 1 1 0) := by rfl
  have hlooks : (logOf appWorkspace standardClient (publishAll appOnly .standard)
      (describing "noise") ()).LooksUp appWorkspace "app" (.ok ⟨0, "noise", none⟩) :=
    ⟨_, List.mem_of_getElem? (i := 1) rfl, rfl, List.mem_singleton.mpr rfl⟩
  refine ⟨.broken _ hparse rfl, ?_⟩
  exact hreport "app" _ (.unreadable (.broken .valueExpected 1 1 0)) hlooks rfl

/-- What cargo has printed is a description, but its packages are no list, and neither the version
nor the manifest of a crate can be told, for a reason that is no failure of cargo.  The release
ends without a report. -/
theorem empty_packages_not_reported :
    let nothing := describing "\x7b\"packages\": null\x7d"
    (∀ directory arguments captured s f,
        (nothing (.cargo directory arguments captured) s).1 = .error f → f.isOfSystem = true) ∧
      (∀ name version s f, ((standardClient.publishedAt name version).play nothing s).outcome =
        .error f → f.isReported = true) ∧
      Policy.standard.settling.brief? ≠ none ∧
      (∃ f, ((appWorkspace.version "app").play nothing ()).outcome = .error f ∧
        ¬∃ g, f = .cargo g) ∧
      (∃ f, ((appWorkspace.manifest "app").play nothing ()).outcome = .error f ∧
        ¬∃ g, f = .cargo g) ∧
      ¬∃ report, ((carryOut appWorkspace standardClient (publishAll appOnly .standard)).play
        nothing ()).outcome = .ok report := by
  have hversion : ((appWorkspace.version "app").play (describing "\x7b\"packages\": null\x7d")
      ()).outcome = .error (.wrongKind .members .null) := by rfl
  have hmanifest : ((appWorkspace.manifest "app").play (describing "\x7b\"packages\": null\x7d")
      ()).outcome = .error (.wrongKind .members .null) := by rfl
  have hrelease : ((carryOut appWorkspace standardClient (publishAll appOnly .standard)).play
      (describing "\x7b\"packages\": null\x7d") ()).outcome =
        .error (.wrongKind .members .null) := by rfl
  refine ⟨isOfSystem_of_describing _, isReported_of_describing _, by decide,
    ⟨_, hversion, ?_⟩, ⟨_, hmanifest, ?_⟩, ?_⟩
  · rintro ⟨g, hg⟩
    cases hg
  · rintro ⟨g, hg⟩
    cases hg
  · rintro ⟨report, hreport⟩
    cases hrelease.symm.trans hreport

end ReleaseTrain.Publication
