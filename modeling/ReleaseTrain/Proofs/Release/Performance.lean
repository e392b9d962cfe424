import ReleaseTrain.Proofs.Dialogue.Unfolding
import ReleaseTrain.Release

/-!
# The course of a release

* `performWith`: a release behind the loading of its settings; `perform_eq`: there is
  no more to a release than that.
* `Prepared`: what a release has put together before it begins.
* `exchanges_run`, `outcome_run_of_ok`: what the arguments add to that.
* `Performance`: what a release can consist of once it has its settings, and how it
  ends; `performance_of_unfolds`, `performance_cases`: there is nothing else.
-/

namespace ReleaseTrain.Release

open Dialogue Publication

/-- A release as a command line asks for it, once it has its settings. -/
def performWith (around : Surroundings) (asked : Invocation) (settings : Settings) :
    Dialogue world Int := do
  World.say ("[publish] Конфигурация: " ++ settings.source)
  let plan ← .ofExcept (Plan.ofSettings settings.get? asked.crates around.environment asked.dryRun)
  match workspaceIn around (directoryOf asked settings) with
  | .error f =>
    if f.isUnusable then
      World.warn ("[publish] ❌ " ++ f.message)
      return 1
    else .fail f
  | .ok workspace =>
    let client ← .ofExcept (clientOf settings)
    let report ← carryOut workspace client (publishAll plan .standard)
    conclude report

theorem perform_eq (around : Surroundings) (asked : Invocation) :
    perform around asked = settingsFor around asked.config >>= performWith around asked := rfl

/-- What a release has put together before it begins. -/
structure Prepared (around : Surroundings) (asked : Invocation) (settings : Settings)
    (plan : Plan) (workspace : Workspace) (client : Registry.Client) : Prop where
  planned :
    Plan.ofSettings settings.get? asked.crates around.environment asked.dryRun = .ok plan
  opened : workspaceIn around (directoryOf asked settings) = .ok workspace
  connected : clientOf settings = .ok client

/-- The line that names the source of the settings. -/
abbrev announced (settings : Settings) : Exchange world :=
  ⟨.say ("[publish] Конфигурация: " ++ settings.source), ()⟩

/-- The complaint with which a release ends. -/
abbrev complained (error : String) : Exchange world := ⟨.warn ("[publish] ❌ " ++ error), ()⟩

/-- The line with which a release ends that nothing stopped. -/
abbrev summed (report : Report) : Exchange world :=
  ⟨.say ("[publish] ✅ Завершено. Опубликовано: " ++ toString (report.count .published) ++
    ", пропущено: " ++ toString (report.count .alreadyPublished)), ()⟩

/-- What a release can consist of once it has its settings, and how it ends. -/
inductive Performance (around : Surroundings) (asked : Invocation) (settings : Settings) :
    List (Exchange world) → Except Failure Int → Prop
  | unplanned {f : Failure}
      (h : Plan.ofSettings settings.get? asked.crates around.environment asked.dryRun = .error f) :
      Performance around asked settings [announced settings] (.error f)
  | homeless {f : Failure} (h : workspaceIn around (directoryOf asked settings) = .error f)
      (usual : f.isUnusable = true) :
      Performance around asked settings [announced settings, complained f.message] (.ok 1)
  | astray {f : Failure} (h : workspaceIn around (directoryOf asked settings) = .error f)
      (unusual : f.isUnusable = false) :
      Performance around asked settings [announced settings] (.error f)
  | unconnected {f : Failure} (h : clientOf settings = .error f) :
      Performance around asked settings [announced settings] (.error f)
  /-- The publication fails in a way that makes no report. -/
  | broken {plan : Plan} {workspace : Workspace} {client : Registry.Client}
      {ws : List (Exchange world)} {f : Failure}
      (prepared : Prepared around asked settings plan workspace client)
      (h : (carryOut workspace client (publishAll plan .standard)).Unfolds ws (.error f)) :
      Performance around asked settings (announced settings :: ws) (.error f)
  | stopped {plan : Plan} {workspace : Workspace} {client : Registry.Client}
      {ws : List (Exchange world)} {report : Report} {error : String}
      (prepared : Prepared around asked settings plan workspace client)
      (h : (carryOut workspace client (publishAll plan .standard)).Unfolds ws (.ok report))
      (stop : report.error = some error) :
      Performance around asked settings (announced settings :: (ws ++ [complained error]))
        (.ok report.exitCode)
  | finished {plan : Plan} {workspace : Workspace} {client : Registry.Client}
      {ws : List (Exchange world)} {report : Report}
      (prepared : Prepared around asked settings plan workspace client)
      (h : (carryOut workspace client (publishAll plan .standard)).Unfolds ws (.ok report))
      (smooth : report.error = none) :
      Performance around asked settings (announced settings :: (ws ++ [summed report])) (.ok 0)

variable {around : Surroundings} {asked : Invocation} {settings : Settings}
  {es : List (Exchange world)}

theorem unfolds_say_iff {α : Type} {line : String} {next : Unit → Dialogue world α}
    {o : Except Failure α} :
    (World.say line >>= next).Unfolds es o ↔
      ∃ rest, es = ⟨.say line, ()⟩ :: rest ∧ (next ()).Unfolds rest o :=
  unfolds_order_bind_iff (T := world) (q := Request.say line) () fun _ => rfl

theorem unfolds_warn_iff {α : Type} {line : String} {next : Unit → Dialogue world α}
    {o : Except Failure α} :
    (World.warn line >>= next).Unfolds es o ↔
      ∃ rest, es = ⟨.warn line, ()⟩ :: rest ∧ (next ()).Unfolds rest o :=
  unfolds_order_bind_iff (T := world) (q := Request.warn line) () fun _ => rfl

/-- Whatever a release does behind its settings is a performance. -/
theorem performance_of_unfolds {o : Except Failure Int}
    (h : (performWith around asked settings).Unfolds es o) :
    Performance around asked settings es o := by
  rw [performWith, unfolds_say_iff] at h
  obtain ⟨_, rfl, h⟩ := h
  rw [unfolds_ofExcept_bind_iff] at h
  rcases h with ⟨f, hplan, rfl, rfl⟩ | ⟨plan, hplan, h⟩
  · exact .unplanned hplan
  split at h
  next f hworkspace =>
    cases husual : f.isUnusable with
    | true =>
      rw [if_pos husual, unfolds_warn_iff] at h
      obtain ⟨_, rfl, h⟩ := h
      rw [unfolds_pure_iff] at h
      obtain ⟨rfl, rfl⟩ := h
      exact .homeless hworkspace husual
    | false =>
      rw [if_neg (by simp [husual]), unfolds_fail_iff] at h
      obtain ⟨rfl, rfl⟩ := h
      exact .astray hworkspace husual
  next workspace hworkspace =>
    rw [unfolds_ofExcept_bind_iff] at h
    rcases h with ⟨f, hclient, rfl, rfl⟩ | ⟨client, hclient, h⟩
    · exact .unconnected hclient
    have hprepared : Prepared around asked settings plan workspace client :=
      ⟨hplan, hworkspace, hclient⟩
    rw [unfolds_bind_iff] at h
    rcases h with ⟨f, h, rfl⟩ | ⟨report, ws, es', h, hconclude, rfl⟩
    · exact .broken hprepared h
    unfold conclude at hconclude
    cases herror : report.error with
    | some error =>
      rw [herror] at hconclude
      dsimp only at hconclude
      rw [unfolds_warn_iff] at hconclude
      obtain ⟨_, rfl, hconclude⟩ := hconclude
      rw [unfolds_pure_iff] at hconclude
      obtain ⟨rfl, rfl⟩ := hconclude
      exact .stopped hprepared h herror
    | none =>
      rw [herror] at hconclude
      dsimp only at hconclude
      rw [unfolds_say_iff] at hconclude
      obtain ⟨_, rfl, hconclude⟩ := hconclude
      rw [unfolds_pure_iff] at hconclude
      obtain ⟨rfl, rfl⟩ := hconclude
      exact .finished hprepared h herror

/-! ## From the arguments on -/

section Run

variable {σ : Type} {partner : Partner world σ} {s : σ} {arguments : List String}

theorem run_eq_of_read (hread : CommandLine.read arguments = .ok asked) :
    run around arguments = (perform around asked).attempt >>= exitCodeOf := by
  unfold run
  rw [hread]

/-- The exit code is settled without a further word. -/
theorem exchanges_exitCodeOf (o : Except Failure Int) :
    ((exitCodeOf o).play partner s).exchanges = [] := by
  cases o with
  | ok code => rfl
  | error f => cases f <;> rfl

/-- Whatever happens behind the arguments is part of the release that they ask for. -/
theorem exchanges_run (hread : CommandLine.read arguments = .ok asked) :
    ((run around arguments).play partner s).exchanges =
      ((perform around asked).play partner s).exchanges := by
  rw [run_eq_of_read hread, play_bind, play_attempt]
  show ((perform around asked).play partner s).exchanges ++
    ((exitCodeOf _).play partner _).exchanges = _
  rw [exchanges_exitCodeOf, List.append_nil]

theorem outcome_run_of_ok (hread : CommandLine.read arguments = .ok asked) {code : Int}
    (h : ((perform around asked).play partner s).outcome = .ok code) :
    ((run around arguments).play partner s).outcome = .ok code := by
  rw [run_eq_of_read hread, play_bind, play_attempt, h]
  rfl

/-- A release has failed to load its settings, or it has loaded them and then gone through a
performance. -/
theorem performance_cases (around : Surroundings) (asked : Invocation)
    (partner : Partner world σ) (s : σ) :
    (∃ f, ((settingsFor around asked.config).play partner s).outcome = .error f ∧
      ((perform around asked).play partner s).outcome = .error f ∧
      ((perform around asked).play partner s).exchanges =
        ((settingsFor around asked.config).play partner s).exchanges) ∨
      ∃ settings es,
        ((settingsFor around asked.config).play partner s).outcome = .ok settings ∧
        Performance around asked settings es ((perform around asked).play partner s).outcome ∧
        ((perform around asked).play partner s).exchanges =
          ((settingsFor around asked.config).play partner s).exchanges ++ es := by
  rw [perform_eq, play_bind]
  generalize (settingsFor around asked.config).play partner s = loading
  obtain ⟨outcome, load, s'⟩ := loading
  cases outcome with
  | error f => exact .inl ⟨f, rfl, rfl, rfl⟩
  | ok settings =>
    exact .inr ⟨settings, _, rfl,
      performance_of_unfolds (unfolds_play partner (performWith around asked settings) s'), rfl⟩

/-- A release that ends with a code has loaded settings and then gone through a
performance. -/
theorem exists_performance_of_outcome_ok {code : Int}
    (h : ((perform around asked).play partner s).outcome = .ok code) :
    ∃ settings es, ((settingsFor around asked.config).play partner s).outcome = .ok settings ∧
      Performance around asked settings es (.ok code) ∧
      ((perform around asked).play partner s).exchanges =
        ((settingsFor around asked.config).play partner s).exchanges ++ es := by
  rcases performance_cases around asked partner s with ⟨f, -, hf, -⟩ | hperformed
  · rw [hf] at h
    cases h
  · rwa [h] at hperformed

end Run

end ReleaseTrain.Release
