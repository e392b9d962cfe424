import ReleaseTrain.Proofs.Publication.Lookups

/-!
# Where an exit code comes from

A process of cargo that does not end well ends the release, and its code becomes that of the
release.  Every other failure that is reported makes it one.

* `demand?`: the exit code that an exchange demands.
* `Heeds`: a failure takes over what is demanded, and asks for one if nothing is;
  `heeds_of_carryOut`: every step does so.
* `exit_code_is_that_of_cargo`: the statement.
* `description_code_taken_over`: a process that was only to describe the workspace counts too.

## Why cargo is not asked what it was run for

A failure of cargo carries the code of its process, and nothing in it says whether the process was
to publish a crate or to describe the workspace.  So the exit code of a release does not tell a
publication that was refused from a description that could not be made.
-/

namespace ReleaseTrain

/-- The exit code that a failure in the place of an answer demands: only cargo demands one. -/
def Failure.demand? : Failure → Option Int
  | cargo g => some (cargo g).exitCode
  | _ => none

theorem Failure.exitCode_eq (f : Failure) : f.exitCode = f.demand?.getD 1 := by
  cases f <;> rfl

theorem Failure.exitCode_of_not_isReported {f : Failure} (h : f.isReported = false) :
    f.exitCode = 1 := by
  cases f with
  | cargo g => cases h
  | _ => rfl

theorem Failure.exists_cargo_of_demand? {f : Failure} {code : Int} (h : f.demand? = some code) :
    ∃ g, f = .cargo g ∧ f.exitCode = code := by
  cases f with
  | cargo g => exact ⟨g, rfl, Option.some.inj h⟩
  | _ => cases h

namespace Publication

open Dialogue

/-- The exit code that an exchange demands: that of a process of cargo that did not end well, or
that of a failure of cargo in the place of an answer. -/
def demand? : Exchange world → Option Int
  | ⟨.cargo _ _ _, .ok finished⟩ => if finished.code = 0 then none else some finished.code
  | ⟨.cargo _ _ _, .error f⟩ | ⟨.get _ _ _, .error f⟩ => f.demand?
  | _ => none

/-- What is demanded in some exchanges is taken over by the failure to which they lead, and without
a demand the failure asks for one. -/
structure Heeds (piece : List (Exchange world)) (failure : Option Failure) : Prop where
  taken : ∀ e ∈ piece, ∀ code, demand? e = some code →
    ∃ g, failure = some (.cargo g) ∧ (Failure.cargo g).exitCode = code
  one : (∀ e ∈ piece, demand? e = none) → ∀ f, failure = some f → f.exitCode = 1

section Heeds

variable {e : Exchange world} {piece : List (Exchange world)} {failure : Option Failure}

/-- Where nothing is demanded, it is enough that the failure asks for one. -/
theorem Heeds.of_no_demand (hnone : ∀ e ∈ piece, demand? e = none)
    (one : ∀ f, failure = some f → f.exitCode = 1) : Heeds piece failure := by
  refine ⟨fun e he code hcode => ?_, fun _ => one⟩
  rw [hnone e he] at hcode
  cases hcode

/-- Exchanges without a demand that lead to no failure. -/
theorem Heeds.of_none (h : ∀ e ∈ piece, demand? e = none) : Heeds piece none := by
  refine .of_no_demand h fun f hf => ?_
  cases hf

/-- A failure that is not reported heeds exchanges without a demand. -/
theorem Heeds.of_not_isReported {f : Failure} (h : ∀ e ∈ piece, demand? e = none)
    (hf : f.isReported = false) : Heeds piece (some f) := by
  refine .of_no_demand h fun g hg => ?_
  obtain rfl := Option.some.inj hg
  exact Failure.exitCode_of_not_isReported hf

theorem Heeds.cons (he : demand? e = none) (h : Heeds piece failure) :
    Heeds (e :: piece) failure := by
  refine ⟨fun e' he' code hcode => ?_, fun hnone => h.one (List.forall_mem_cons.mp hnone).2⟩
  rcases List.mem_cons.mp he' with rfl | he'
  · rw [he] at hcode
    cases hcode
  · exact h.taken e' he' code hcode

/-- What follows without a demand changes nothing. -/
theorem Heeds.concat (h : Heeds [e] failure) {last : Exchange world} (hlast : demand? last = none) :
    Heeds [e, last] failure := by
  refine ⟨fun e' he' code hcode => ?_, fun hnone => ?_⟩
  · rcases List.mem_cons.mp he' with rfl | he'
    · exact h.taken e' (List.mem_singleton.mpr rfl) code hcode
    · rw [List.mem_singleton.mp he', hlast] at hcode
      cases hcode
  · exact h.one (List.forall_mem_singleton.mpr (hnone e (List.mem_cons_self ..)))

/-- Nothing is demanded where nothing fails. -/
theorem Heeds.demand?_eq_none (h : Heeds [e] none) : demand? e = none := by
  cases hdemand : demand? e with
  | none => rfl
  | some code =>
    obtain ⟨g, hg, -⟩ := h.taken e (List.mem_singleton.mpr rfl) code hdemand
    cases hg

/-- A failure that takes the place of an answer heeds it, also if it is told as a failure of
cargo that has not started. -/
theorem heeds_error {f f' : Failure} (he : demand? e = f.demand?)
    (hf : f' = f ∨ f.demand? = none ∧ f'.exitCode = 1) : Heeds [e] (some f') := by
  refine ⟨fun e' he' code hcode => ?_, fun hnone f'' hf'' => ?_⟩
  · rw [List.mem_singleton.mp he', he] at hcode
    rcases hf with rfl | ⟨hdemand, -⟩
    · obtain ⟨g, rfl, hg⟩ := Failure.exists_cargo_of_demand? hcode
      exact ⟨g, rfl, hg⟩
    · rw [hdemand] at hcode
      cases hcode
  · obtain rfl := Option.some.inj hf''
    rcases hf with rfl | ⟨-, hone⟩
    · rw [Failure.exitCode_eq, ← he, hnone e (List.mem_singleton.mpr rfl), Option.getD_none]
    · exact hone

end Heeds

/-! ## Every step heeds -/

section Steps

variable {workspace : Workspace} {client : Registry.Client} {name version : String}

/-- A process that was not started. -/
theorem started_error_cases (f : Failure) :
    (if f.isOfSystem then Failure.cargo (.notStarted f.message) else f) = f ∨
      f.demand? = none ∧
        (if f.isOfSystem then Failure.cargo (.notStarted f.message) else f).exitCode = 1 := by
  cases hsystem : f.isOfSystem with
  | false => exact .inl (if_neg Bool.false_ne_true)
  | true =>
    refine .inr ⟨?_, rfl⟩
    cases f with
    | cargo g => cases hsystem
    | _ => rfl

/-- If cargo has ended well, a lookup that fails asks for one. -/
theorem exitCode_of_lookup {finished : Finished} (hcode : finished.code = 0) {f : Failure}
    (h : workspace.lookup name (.ok finished) = .error f) : f.exitCode = 1 := by
  by_cases horderly : finished.Orderly name
  · rw [Workspace.lookup_ok] at h
    cases horderly with
    | failed code => exact absurd hcode code
    | broken error read grammar =>
      rw [Workspace.readMetadata_of_error hcode read, if_pos grammar] at h
      obtain rfl := Except.error.inj h
      rfl
    | described metadata read orderly =>
      obtain ⟨found, hfound⟩ := Crate.inMetadata_of_orderly orderly
      have hselect : workspace.select name metadata = .error f := by
        rwa [Workspace.readMetadata_of_ok hcode read] at h
      rw [Workspace.select, hfound] at hselect
      cases found with
      | none =>
        obtain rfl := Except.error.inj hselect
        rfl
      | some crate => cases hselect
  · obtain ⟨g, hg, hreported⟩ := Workspace.lookup_of_not_orderly workspace horderly
    obtain rfl := Except.error.inj (hg.symm.trans h)
    exact Failure.exitCode_of_not_isReported hreported

theorem heeds_lookup (workspace : Workspace) (name : String) (answer : Except Failure Finished) :
    Heeds [workspace.described answer] (endedBy (workspace.lookup name answer)) := by
  cases answer with
  | error f => exact heeds_error rfl (started_error_cases f)
  | ok finished =>
    refine ⟨fun e he code hcode => ?_, fun hnone f hf => ?_⟩
    · obtain rfl := List.mem_singleton.mp he
      by_cases hzero : finished.code = 0
      · rw [demand?, if_pos hzero] at hcode
        cases hcode
      · rw [demand?, if_neg hzero] at hcode
        obtain rfl := Option.some.inj hcode
        refine ⟨.undescribed finished.complaint finished.code, ?_, if_neg hzero⟩
        rw [Workspace.lookup_ok, Workspace.readMetadata_of_code hzero]
        rfl
    · have hzero : finished.code = 0 := by
        have hdemand := hnone _ (List.mem_singleton.mpr rfl)
        rw [demand?] at hdemand
        by_contra hne
        rw [if_neg hne] at hdemand
        cases hdemand
      exact exitCode_of_lookup hzero (endedBy_eq_some_iff.mp hf)

theorem heeds_accepted (name : String) (directory : Path) (arguments : List String)
    (answer : Except Failure Finished) :
    Heeds [⟨.cargo directory arguments false, answer⟩]
      (endedBy (Workspace.accepted name answer)) := by
  cases answer with
  | error f => exact heeds_error rfl (started_error_cases f)
  | ok finished =>
    by_cases hzero : finished.code = 0
    · rw [Workspace.accepted_of_code hzero]
      exact .of_none (List.forall_mem_singleton.mpr (if_pos hzero))
    · have hrefused : Workspace.accepted name (.ok finished) =
          .error (.cargo (.unpublished name finished.code)) := if_pos hzero
      rw [hrefused]
      refine ⟨fun e he code hcode => ?_, fun hnone => ?_⟩
      · rw [List.mem_singleton.mp he, demand?, if_neg hzero] at hcode
        obtain rfl := Option.some.inj hcode
        exact ⟨_, rfl, if_neg hzero⟩
      · have hdemand := hnone _ (List.mem_singleton.mpr rfl)
        rw [demand?, if_neg hzero] at hdemand
        cases hdemand

/-- A list of versions that is no list is not reported. -/
theorem isReported_of_dateIn {data : Value} {f : Failure}
    (h : Registry.dateIn version data = .error f) : f.isReported = false := by
  cases data with
  | table entries =>
    rw [Registry.dateIn] at h
    split at h
    next =>
      split at h
      next => cases h
      next =>
        obtain rfl := Except.error.inj h
        rfl
    next => cases h
  | _ => cases h

/-- What a registry has said may be of no use, but it is never a failure that is reported. -/
theorem isReported_of_read {address : String} {response : Response} {f : Failure}
    (h : Registry.read address version response = .error f) : f.isReported = false := by
  unfold Registry.read at h
  split at h
  next => cases h
  next =>
    split at h
    next => cases h
    next =>
      split at h
      next data hparse =>
        cases hdate : Registry.dateIn version data with
        | ok date =>
          rw [hdate] at h
          cases h
        | error f' =>
          rw [hdate] at h
          obtain rfl := Except.error.inj h
          exact isReported_of_dateIn hdate
      next error hparse =>
        dsimp only at h
        split at h
        next => cases h
        next =>
          obtain rfl := Except.error.inj h
          exact Workspace.isReported_ofJson error

theorem heeds_judged (client : Registry.Client) (name version : String)
    (answer : Except Failure Response) :
    Heeds [Registry.fetched client name answer]
      (endedBy (Registry.judged client name version answer)) := by
  cases answer with
  | error f =>
    rw [Registry.judged]
    cases husual : f.isTransport || f.isUnusable with
    | false => exact heeds_error rfl (.inl rfl)
    | true =>
      refine .of_none (List.forall_mem_singleton.mpr ?_)
      cases f with
      | cargo g => cases husual
      | _ => rfl
  | ok response =>
    rw [Registry.judged]
    split
    next f hread =>
      exact .of_not_isReported (List.forall_mem_singleton.mpr rfl) (isReported_of_read hread)
    next => exact .of_none (List.forall_mem_singleton.mpr rfl)
    next => exact .of_none (List.forall_mem_singleton.mpr rfl)

theorem endedBy_map {α β : Type} (part : α → β) (o : Except Failure α) :
    endedBy (o.map part) = endedBy o := by
  cases o <;> rfl

theorem heeds_handling {token : Option String} {flags : List String} {dryRun : Bool}
    {piece : List (Exchange world)} {answer : Except Failure Unit}
    (h : Workspace.Handling workspace name token flags dryRun piece answer) :
    Heeds piece (endedBy answer) := by
  cases h with
  | @unknown _ description f h =>
    have hlookup := heeds_lookup workspace name description
    rwa [h] at hlookup
  | @shown description crate h =>
    have hlookup := heeds_lookup workspace name description
    rw [h] at hlookup
    exact hlookup.concat rfl
  | @run description crate h result =>
    have hlookup := heeds_lookup workspace name description
    rw [h] at hlookup
    exact .cons hlookup.demand?_eq_none (heeds_accepted ..)

/-- Every step of a publication takes over what is demanded in it. -/
theorem heeds_of_carryOut {e : Exchange steps} {piece : List (Exchange world)}
    (h : (e.question.carryOut workspace client).Unfolds piece (.ok e.answer)) :
    Heeds piece (failureOf e) := by
  obtain ⟨question, answer⟩ := e
  cases question with
  | say line =>
    rw [Step.eq_of_carryOut_say h]
    exact .of_none (List.forall_mem_singleton.mpr rfl)
  | pause seconds =>
    rw [Step.eq_of_carryOut_pause h]
    exact .of_none (List.forall_mem_singleton.mpr rfl)
  | localVersion name =>
    obtain ⟨description, rfl, rfl⟩ := Step.exists_of_carryOut_localVersion h
    have hlookup := heeds_lookup workspace name description
    rw [← endedBy_map (·.version)] at hlookup
    generalize (workspace.lookup name description).map (·.version) = told at hlookup ⊢
    cases told <;> exact hlookup
  | publishedAt name version =>
    obtain ⟨response, rfl, hpiece⟩ := Step.exists_of_carryOut_publishedAt h
    have hjudged := heeds_judged client name version response
    have hfailure : failureOf ⟨.publishedAt name version,
        Registry.judged client name version response⟩ =
          endedBy (Registry.judged client name version response) := by
      cases Registry.judged client name version response <;> rfl
    rw [hfailure]
    rcases hpiece with rfl | ⟨reason, rfl⟩
    · exact hjudged
    · exact hjudged.concat rfl
  | publish name token flags dryRun =>
    have hhandling := heeds_handling (Step.handling_of_carryOut h)
    cases answer <;> exact hhandling

end Steps

/-! ## The whole release -/

section Release

variable {σ : Type} {plan : Plan} {policy : Policy} {workspace : Workspace}
  {client : Registry.Client} {partner : Partner world σ} {s : σ}

theorem exists_crate?_of_failureOf {e : Exchange steps} {f : Failure} (h : failureOf e = some f) :
    ∃ name, e.question.crate? = some name := by
  obtain ⟨question, answer⟩ := e
  cases question with
  | say line => cases h
  | pause seconds => cases h
  | localVersion name => exact ⟨name, rfl⟩
  | publishedAt name version => exact ⟨name, rfl⟩
  | publish name token flags dryRun => exact ⟨name, rfl⟩

/-- A release ends as soon as an exit code is demanded, and takes it over. -/
theorem exists_report_of_demand? {e : Exchange world} {code : Int}
    (he : e ∈ ((carryOut workspace client (publishAll plan policy)).play partner s).exchanges)
    (hcode : demand? e = some code) :
    ∃ report error,
      ((carryOut workspace client (publishAll plan policy)).play partner s).outcome = .ok report ∧
        report.error = some error ∧ report.exitCode = code := by
  rw [exchanges_carryOut] at he
  obtain ⟨entry, hentry, hpiece⟩ := List.mem_flatMap.mp he
  have hheeds := heeds_of_carryOut
    (spells_logOf workspace client partner (publishAll plan policy) s entry hentry)
  obtain ⟨g, hfailure, hg⟩ := hheeds.taken e hpiece code hcode
  obtain ⟨name, hname⟩ := exists_crate?_of_failureOf hfailure
  obtain ⟨es, hes, hbooks⟩ := unfolds_publishAll_iff.mp
    (unfolds_asked_logOf workspace client partner (publishAll plan policy) s)
  have hasked : entry.1 ∈ (logOf workspace client (publishAll plan policy) partner s).asked :=
    List.mem_map_of_mem hentry
  rw [hes] at hasked
  rcases List.mem_cons.mp hasked with hline | hmem
  · rw [hline] at hname
    cases hname
  · obtain ⟨report, houtcome, -, herror, hexit⟩ :=
      (publishEach_of_failure hbooks hmem hfailure hname).1 rfl
    exact ⟨report, _, houtcome, herror, hexit.trans hg⟩

/-- A release that is stopped although no exit code is demanded asks for one. -/
theorem exitCode_of_no_demand {report : Report} {error : String}
    (houtcome : ((carryOut workspace client (publishAll plan policy)).play partner s).outcome =
      .ok report)
    (herror : report.error = some error)
    (hnone : ∀ e ∈ ((carryOut workspace client (publishAll plan policy)).play partner s).exchanges,
      demand? e = none) : report.exitCode = 1 := by
  have hunfolds := unfolds_asked_logOf workspace client partner (publishAll plan policy) s
  rw [houtcome] at hunfolds
  obtain ⟨es, hes, hbooks⟩ := unfolds_publishAll_iff.mp hunfolds
  rcases closed_of_publishEach hbooks with ⟨last, hsmooth⟩ | ⟨f, last, name, harises, hclosed⟩
  · obtain rfl := Except.ok.inj hsmooth
    cases herror
  cases hreported : f.isReported with
  | false =>
    rw [if_neg (by simp [hreported])] at hclosed
    cases hclosed
  | true =>
    rw [if_pos hreported] at hclosed
    obtain rfl := Except.ok.inj hclosed
    rcases harises with ⟨e, he, hfailure⟩ | ⟨g, rfl⟩ | ⟨rfl, -⟩
    · have hasked : e ∈ (logOf workspace client (publishAll plan policy) partner s).asked := by
        rw [hes]
        exact List.mem_cons_of_mem _ he
      obtain ⟨piece, hentry⟩ := exists_mem_of_mem_asked hasked
      have hheeds := heeds_of_carryOut
        (spells_logOf workspace client partner (publishAll plan policy) s _ hentry)
      refine hheeds.one (fun e' he' => hnone e' ?_) f hfailure
      rw [exchanges_carryOut]
      exact mem_happened hentry he'
    · rfl
    · rfl

end Release

/-- **The exit code is that of cargo, or one.**  If a process of cargo ends in a release with
another code than zero, the release ends with a report that has an error, and its exit code is
that of the process.  If a release ends with a report that has an error, and neither has such a
process ended in it nor has a failure of cargo taken the place of an answer, then its exit code is
one: so it is if cargo has not started, if what cargo has printed is no document or does not name
the crate, and if a crate has not turned up. -/
theorem exit_code_is_that_of_cargo {σ : Type} (plan : Plan) (policy : Policy)
    (workspace : Workspace) (client : Registry.Client) (partner : Partner world σ) (s : σ) :
    let course := (carryOut workspace client (publishAll plan policy)).play partner s
    (∀ directory command captured finished,
        (⟨.cargo directory command captured, .ok finished⟩ : Exchange world) ∈ course.exchanges →
          finished.code ≠ 0 →
            ∃ report error, course.outcome = .ok report ∧ report.error = some error ∧
              report.exitCode = finished.code) ∧
      ∀ report error, course.outcome = .ok report → report.error = some error →
        (∀ e ∈ course.exchanges, demand? e = none) → report.exitCode = 1 := by
  intro course
  refine ⟨fun directory command captured finished he hcode => ?_, fun report error => ?_⟩
  · exact exists_report_of_demand? he (if_neg hcode)
  · exact exitCode_of_no_demand

/-- A world with one crate that the registry never has, in which cargo ends with given codes. -/
def endingWith (description publication : Int) : Partner world Unit
  | .say _, s | .warn _, s | .pause _, s => ((), s)
  | .cargo _ _ true, s => (.ok { appDescribed with code := description }, s)
  | .cargo _ _ false, s => (.ok ⟨publication, "", none⟩, s)
  | .get _ _ _, s => (.ok notFound, s)

/-- The release of the one crate in a world in which cargo ends with given codes. -/
abbrev appEndingWith (description publication : Int) : Course world Unit Report :=
  (carryOut appWorkspace standardClient (publishAll appOnly .standard)).play
    (endingWith description publication) ()

/-- A publication that cargo refuses, and one that it does not but that does not turn up. -/
theorem exit_code_is_that_of_cargo_at_app :
    (∃ report error, (appEndingWith 0 101).outcome = .ok report ∧ report.error = some error ∧
        report.exitCode = 101) ∧
      ∃ report error, (appEndingWith 0 0).outcome = .ok report ∧ report.error = some error ∧
        (∀ e ∈ (appEndingWith 0 0).exchanges, demand? e = none) ∧ report.exitCode = 1 := by
  obtain ⟨hrefused, -⟩ := exit_code_is_that_of_cargo appOnly .standard appWorkspace
    standardClient (endingWith 0 101) ()
  obtain ⟨-, hlost⟩ := exit_code_is_that_of_cargo appOnly .standard appWorkspace
    standardClient (endingWith 0 0) ()
  have hrun : (appEndingWith 0 101).exchanges[6]? =
      some ⟨.cargo appWorkspace.directory (Cargo.publishArguments ⟨.relative, ["app"]⟩ none [])
        false, .ok ⟨101, "", none⟩⟩ := by
    with_unfolding_all rfl
  have hnone : ∀ e ∈ (appEndingWith 0 0).exchanges, demand? e = none := by
    decide +kernel
  have hstopped : (appEndingWith 0 0).outcome.toOption.any (·.error.isSome) = true := by
    decide +kernel
  obtain ⟨report, houtcome, hsome⟩ := exists_of_any_toOption hstopped
  obtain ⟨error, herror⟩ := Option.isSome_iff_exists.mp hsome
  exact ⟨hrefused _ _ _ _ (List.mem_of_getElem? hrun) (by decide), report, error, houtcome, herror,
    hnone, hlost report error houtcome herror hnone⟩

/-- A description of the workspace that could not be made ends the release with its own code,
although nothing was published and no process was run in order to publish. -/
theorem description_code_taken_over :
    ∃ report error, (appEndingWith 101 0).outcome = .ok report ∧ report.error = some error ∧
      (∀ directory command answer,
        (⟨.cargo directory command false, answer⟩ : Exchange world) ∉
          (appEndingWith 101 0).exchanges) ∧
      report.exitCode = 101 := by
  have hlength : (appEndingWith 101 0).exchanges =
      [⟨.say (openingLine appOnly), ()⟩,
        appWorkspace.described (.ok { appDescribed with code := 101 })] := by
    with_unfolding_all rfl
  refine ⟨⟨[("app", .failed)], some "app: cargo metadata failed", 101⟩, _, ?_, rfl, ?_, rfl⟩
  · with_unfolding_all rfl
  · rw [hlength]
    simp [Cargo.describeArguments]

end Publication

end ReleaseTrain
