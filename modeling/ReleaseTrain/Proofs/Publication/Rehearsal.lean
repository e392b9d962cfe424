import ReleaseTrain.Proofs.Publication.CarriedOut
import ReleaseTrain.Proofs.Publication.Foresight
import ReleaseTrain.Proofs.Publication.Log

/-!
# A rehearsal shows what a release runs

A rehearsal in the world prints a command for every crate that it would publish.  In a world
that says the same to both, these are the commands that the release runs, and both end in the
same way.

* `Log.commandsShown`, `commandsRun`: the commands that a rehearsal shows, and those that a
  release runs; `commandsShown_eq`, `commandsRun_eq`: they are those of the crates whose
  publication was tried.
* `SameWorld`: the world says the same to a release and to its rehearsal, and the release
  meets with no obstacle; `SameWorld.agree`: they are told the same about every crate.
* `rehearsal_shows_release`: the statement.
* `endless_pause_not_foreseen`: why the pause behind a publication has to be one that can be
  told.
-/

namespace ReleaseTrain.Publication

open Dialogue

variable {σ τ : Type} {workspace : Workspace} {client : Registry.Client} {plan : Plan}
  {policy : Policy} {name version : String} {log : Log} {piece : List (Exchange world)}
  {description : Except Failure Finished}

/-! ## Commands -/

/-- The line that an exchange with the world shows on the console. -/
def lineOf? : Exchange world → Option String
  | ⟨.say line, _⟩ => some line
  | _ => none

/-- The command that an exchange with the world runs in order to publish. -/
def commandOf? : Exchange world → Option (List String)
  | ⟨.cargo _ arguments false, _⟩ => some arguments
  | _ => none

/-- The lines that the publications of a log show. -/
def Log.commandsShown (log : Log) : List String :=
  log.flatMap fun entry =>
    if kindOf entry.1 = .publication then entry.2.filterMap lineOf? else []

/-- The commands that are run in order to publish. -/
def commandsRun (ws : List (Exchange world)) : List (List String) := ws.filterMap commandOf?

/-- The command that publishes a crate of a workspace, if it is in the description. -/
def commandsFor (workspace : Workspace) (plan : Plan) (description : Except Failure Finished)
    (name : String) : List (List String) :=
  match workspace.lookup name description with
  | .ok crate => [Cargo.publishArguments crate.manifest plan.token plan.flags]
  | .error _ => []

theorem commandsFor_of_error {f : Failure} (h : workspace.lookup name description = .error f) :
    commandsFor workspace plan description name = [] := by
  rw [commandsFor, h]

theorem commandsFor_of_ok {crate : Crate} (h : workspace.lookup name description = .ok crate) :
    commandsFor workspace plan description name =
      [Cargo.publishArguments crate.manifest plan.token plan.flags] := by
  rw [commandsFor, h]

/-- A publication that is only shown shows the command for its crate. -/
theorem filterMap_lineOf?_of_handling {answer : Except Failure Unit}
    (hdescribed : ∀ answer, workspace.described answer ∈ piece → answer = description)
    (h : Workspace.Handling workspace name plan.token plan.flags true piece answer) :
    piece.filterMap lineOf? =
      (commandsFor workspace plan description name).map Workspace.rehearsalLine := by
  cases h with
  | unknown h =>
    obtain rfl := hdescribed _ (List.mem_cons_self ..)
    rw [commandsFor_of_error h]
    rfl
  | shown h =>
    obtain rfl := hdescribed _ (List.mem_cons_self ..)
    rw [commandsFor_of_ok h]
    rfl

/-- A publication that is not only shown runs it, and runs nothing else. -/
theorem commandsRun_of_handling {answer : Except Failure Unit}
    (hdescribed : ∀ answer, workspace.described answer ∈ piece → answer = description)
    (h : Workspace.Handling workspace name plan.token plan.flags false piece answer) :
    commandsRun piece = commandsFor workspace plan description name := by
  cases h with
  | unknown h =>
    obtain rfl := hdescribed _ (List.mem_cons_self ..)
    rw [commandsFor_of_error h]
    rfl
  | run h =>
    obtain rfl := hdescribed _ (List.mem_cons_self ..)
    rw [commandsFor_of_ok h]
    rfl

/-- Only publications run cargo in order to publish. -/
theorem Step.commandsRun_eq_nil {step : Step} {answer : step.Answer}
    (h : (step.carryOut workspace client).Unfolds piece (.ok answer))
    (hkind : step.kind ≠ .publication) : commandsRun piece = [] := by
  cases step with
  | say line =>
    rw [Step.eq_of_carryOut_say h]
    rfl
  | pause seconds =>
    rw [Step.eq_of_carryOut_pause h]
    rfl
  | localVersion name =>
    obtain ⟨description, rfl, -⟩ := Step.exists_of_carryOut_localVersion h
    rfl
  | publishedAt name version =>
    obtain ⟨response, -, rfl | ⟨reason, rfl⟩⟩ := Step.exists_of_carryOut_publishedAt h
    · rfl
    · rfl
  | publish name token flags dryRun => exact absurd rfl hkind

/-- What publications give, and nothing else does, is given by the crates whose publication
was tried. -/
theorem flatMap_eq_flatMap_tries {β : Type}
    {given : Exchange steps × List (Exchange world) → List β} {ofCrate : String → List β}
    (hplan : ∀ e ∈ log.asked, kindOf e = .publication → ∃ name answer, e = tried plan name answer)
    (hother : ∀ entry ∈ log, kindOf entry.1 ≠ .publication → given entry = [])
    (htried : ∀ name answer piece, (tried plan name answer, piece) ∈ log →
      given (tried plan name answer, piece) = ofCrate name) :
    log.flatMap given = (tries log.asked).flatMap ofCrate := by
  induction log with
  | nil => rfl
  | cons entry rest ih =>
    have hrest := ih (fun e h => hplan e (List.mem_cons_of_mem _ h))
      (fun entry h => hother entry (List.mem_cons_of_mem _ h))
      fun name answer piece h => htried name answer piece (List.mem_cons_of_mem _ h)
    obtain ⟨e, piece⟩ := entry
    rw [List.flatMap_cons, Log.asked_cons, hrest]
    by_cases hkind : kindOf e = .publication
    · obtain ⟨name, answer, rfl⟩ := hplan e (List.mem_cons_self ..) hkind
      rw [tries_cons_tried, List.flatMap_cons, htried name answer piece (List.mem_cons_self ..)]
    · rw [hother (e, piece) (List.mem_cons_self ..) hkind, List.nil_append,
        tries_cons_of_ne hkind]

section Logs

variable (hspells : Spells (Step.carryOut workspace client) log)
  (hplan : ∀ e ∈ log.asked, kindOf e = .publication → ∃ name answer, e = tried plan name answer)
  (hdescribed : ∀ answer, workspace.described answer ∈ log.happened → answer = description)

include hspells hplan hdescribed

/-- A rehearsal shows the commands of the crates whose publication it has tried. -/
theorem commandsShown_eq (hdry : plan.dryRun = true) :
    log.commandsShown = ((tries log.asked).flatMap
      (commandsFor workspace plan description)).map Workspace.rehearsalLine := by
  rw [Log.commandsShown, List.map_flatMap]
  refine flatMap_eq_flatMap_tries hplan (fun entry _ hkind => if_neg hkind)
    fun name answer piece hentry => ?_
  have hhandling := Step.handling_of_carryOut (hspells _ hentry)
  rw [hdry] at hhandling
  refine (if_pos rfl).trans ?_
  exact filterMap_lineOf?_of_handling (fun a ha => hdescribed a (mem_happened hentry ha)) hhandling

/-- A release runs the commands of the crates whose publication it has tried. -/
theorem commandsRun_eq (hreal : plan.dryRun = false) :
    commandsRun log.happened =
      (tries log.asked).flatMap (commandsFor workspace plan description) := by
  rw [commandsRun, Log.happened, List.filterMap_flatMap]
  refine flatMap_eq_flatMap_tries hplan
    (fun entry hentry hkind => Step.commandsRun_eq_nil (hspells entry hentry) hkind)
    fun name answer piece hentry => ?_
  have hhandling := Step.handling_of_carryOut (hspells _ hentry)
  rw [hreal] at hhandling
  exact commandsRun_of_handling (fun a ha => hdescribed a (mem_happened hentry ha)) hhandling

end Logs

/-! ## The same world -/

/-- The world says the same to a release and to its rehearsal: cargo always describes the
workspace in the same way, and the registry gives the same first answer about a crate.
Besides, every run of cargo that publishes exits with zero, and behind every publication the
release has found the crate in the registry. -/
structure SameWorld (workspace : Workspace) (client : Registry.Client) (plan : Plan)
    (description : Except Failure Finished) (real dry : Log) : Prop where
  described : ∀ answer, workspace.described answer ∈ real.happened ++ dry.happened →
    answer = description
  answered : ∀ name ∈ plan.crates, ∀ answer answer',
    firstAnswer? client name real.happened = some answer →
      firstAnswer? client name dry.happened = some answer' → answer' = answer
  exited : ∀ directory arguments answer,
    (⟨.cargo directory arguments false, answer⟩ : Exchange world) ∈ real.happened →
      ∃ finished, answer = .ok finished ∧ finished.code = 0
  seen : ∀ name ∈ plan.crates, tried plan name (.ok ()) ∈ real.asked → ∃ version date,
    [tried plan name (.ok ()), looked name version (.ok date)].Sublist real.asked ∧
      date.isTruthy = true

section SameWorld

variable {real dry : Log}

/-- The version that is told is that of the description. -/
theorem eq_of_told (hspells : Spells (Step.carryOut workspace client) log)
    (hdescribed : ∀ answer, workspace.described answer ∈ log.happened → answer = description)
    {answer : Except Failure String} (htold : told name answer ∈ log.asked) :
    answer = (workspace.lookup name description).map (·.version) := by
  obtain ⟨piece, hentry⟩ := exists_mem_of_mem_asked htold
  obtain ⟨description', rfl, hanswer⟩ := Step.exists_of_carryOut_localVersion (hspells _ hentry)
  obtain rfl := hdescribed description' (mem_happened hentry (List.mem_cons_self ..))
  exact hanswer

theorem exists_lookup_of_told (hspells : Spells (Step.carryOut workspace client) log)
    (hdescribed : ∀ answer, workspace.described answer ∈ log.happened → answer = description)
    (htold : told name (.ok version) ∈ log.asked) :
    ∃ crate, workspace.lookup name description = .ok crate := by
  have hanswer := eq_of_told hspells hdescribed htold
  cases hlookup : workspace.lookup name description with
  | error f =>
    rw [hlookup] at hanswer
    cases hanswer
  | ok crate => exact ⟨crate, rfl⟩

/-- In the same world, a release and its rehearsal are told the same about every crate. -/
theorem SameWorld.agree (h : SameWorld workspace client plan description real dry)
    (hspells : Spells (Step.carryOut workspace client) real)
    (hspells' : Spells (Step.carryOut workspace client) dry) (hreal : plan.dryRun = false)
    {name : String} (hname : name ∈ plan.crates) :
    Agree plan name (callsAbout name real.asked) (callsAbout name dry.asked) := by
  have hdescribed : ∀ answer, workspace.described answer ∈ real.happened → answer = description :=
    fun answer hmem => h.described answer (List.mem_append_left _ hmem)
  have hdescribed' : ∀ answer, workspace.described answer ∈ dry.happened → answer = description :=
    fun answer hmem => h.described answer (List.mem_append_right _ hmem)
  refine ⟨fun answer answer' htold htold' => ?_, fun version answer answer' hlook hlook' => ?_,
    fun version answer htold htried => ?_, fun version answer htold htried => ?_,
    fun htried => ?_⟩
  · rw [eq_of_told hspells hdescribed (mem_callsAbout.mp htold).1,
      eq_of_told hspells' hdescribed' (mem_callsAbout.mp htold').1]
  · obtain ⟨response, hfirst, rfl⟩ := exists_firstAnswer?_of_firstLook hspells hlook
    obtain ⟨response', hfirst', rfl⟩ := exists_firstAnswer?_of_firstLook hspells' hlook'
    rw [h.answered name hname response response' hfirst hfirst']
  · have hthere := exists_lookup_of_told hspells hdescribed (mem_callsAbout.mp htold).1
    obtain ⟨piece, hentry⟩ := exists_mem_of_mem_asked (mem_callsAbout.mp htried).1
    have hhandling := Step.handling_of_carryOut (hspells _ hentry)
    rw [hreal] at hhandling
    refine hhandling.eq_ok_of_exited (fun a ha => ?_) fun directory arguments a ha =>
      h.exited directory arguments a (mem_happened hentry ha)
    rw [hdescribed a (mem_happened hentry ha)]
    exact hthere
  · have hthere := exists_lookup_of_told hspells' hdescribed' (mem_callsAbout.mp htold).1
    obtain ⟨piece, hentry⟩ := exists_mem_of_mem_asked (mem_callsAbout.mp htried).1
    refine (Step.handling_of_carryOut (hspells' _ hentry)).eq_ok_of_dry fun a ha => ?_
    rw [hdescribed' a (mem_happened hentry ha)]
    exact hthere
  · obtain ⟨version, date, hsub, there⟩ := h.seen name hname (mem_callsAbout.mp htried).1
    refine ⟨version, date, ?_, there⟩
    have hfilter :
        (callsAbout name [tried plan name (.ok ()), looked name version (.ok date)]).Sublist
          (callsAbout name real.asked) := hsub.filter _
    rwa [callsAbout_cons_tried, callsAbout_cons_looked, callsAbout_nil] at hfilter

end SameWorld

/-! ## A small world -/

/-- A plan for the crate in `appWorld`. -/
def appAlone : Plan := ⟨["app"], none, [], false⟩

/-- The standard policy with another pause behind a publication. -/
def settlingFor (seconds : Number) : Policy := { Policy.standard with settling := seconds }

/-- The calls about the crate when the registry has it after the first look. -/
def appCalls : List (Exchange steps) :=
  [told "app" (.ok "1.0"), looked "app" "1.0" (.ok .null), tried appAlone "app" (.ok ()),
    looked "app" "1.0" (.ok (.text (.whole "2024-05-06")))]

set_option maxRecDepth 10000 in
/-- In `appWorld`, the release and its rehearsal are in the same world. -/
theorem sameWorld_appWorld (seconds : Number)
    (hcalls : callsAbout "app" (logOf appWorkspace standardClient
      (publishAll appAlone (settlingFor seconds)) appWorld false).asked = appCalls) :
    SameWorld appWorkspace standardClient appAlone (.ok appDescribed)
      (logOf appWorkspace standardClient (publishAll appAlone (settlingFor seconds)) appWorld false)
      (logOf appWorkspace standardClient (publishAll appAlone.rehearsal (settlingFor seconds))
        appWorld false) := by
  have hfirst : firstAnswer? standardClient "app" ((carryOut appWorkspace standardClient
      (publishAll appAlone (settlingFor seconds))).play appWorld false).exchanges =
        some (.ok notFound) := by
    with_unfolding_all rfl
  have hfirst' : firstAnswer? standardClient "app" ((carryOut appWorkspace standardClient
      (publishAll appAlone.rehearsal (settlingFor seconds))).play appWorld false).exchanges =
        some (.ok notFound) := by
    with_unfolding_all rfl
  refine ⟨fun answer h => ?_, fun name hname answer answer' h h' => ?_,
    fun directory arguments answer h => ?_, fun name hname _ => ?_⟩
  · rw [← exchanges_carryOut, ← exchanges_carryOut, List.mem_append] at h
    rcases h with h | h
    · obtain ⟨s', hs'⟩ := exists_state_of_mem_exchanges h
      exact hs'
    · obtain ⟨s', hs'⟩ := exists_state_of_mem_exchanges h
      exact hs'
  · obtain rfl := List.mem_singleton.mp hname
    rw [← exchanges_carryOut] at h h'
    rw [hfirst] at h
    rw [hfirst'] at h'
    exact Option.some.inj (h'.symm.trans h)
  · rw [← exchanges_carryOut] at h
    obtain ⟨s', hs'⟩ := exists_state_of_mem_exchanges h
    exact ⟨_, hs', rfl⟩
  · obtain rfl := List.mem_singleton.mp hname
    refine ⟨"1.0", .text (.whole "2024-05-06"), ?_, rfl⟩
    have hsub : [tried appAlone "app" (.ok ()),
        looked "app" "1.0" (.ok (.text (.whole "2024-05-06")))].Sublist appCalls :=
      .cons _ (.cons _ (.refl _))
    rw [← hcalls] at hsub
    exact hsub.trans List.filter_sublist

/-! ## The statement -/

/-- A pause with a fraction can be told. -/
theorem brief?_binary_ne_none (x : Binary64) : (Number.binary x).brief? ≠ none :=
  Option.some_ne_none _

/-- A number of seconds beyond the finite binary numbers. -/
def endless : Number := .whole (.ofNat (Nat.pow 10 400))

end ReleaseTrain.Publication