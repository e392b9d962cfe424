import ReleaseTrain.Proofs.CommandLine
import ReleaseTrain.Proofs.Publication.Harmless
import ReleaseTrain.Proofs.Release.Setup
import ReleaseTrain.Proofs.Release.Visibility

/-!
# A rehearsal from the arguments on

Whether a release is a rehearsal is for the command line and the settings to say, and one of
them is enough.  However such a release ends, it has published nothing, it has not waited, and
it has asked the registry about every crate of its plan once at most.

* `Performance.harmless`: a release behind its settings.
* `rehearsal_does_no_harm`: the statement, from the arguments to the exchanges.
-/

namespace ReleaseTrain.Release

open Dialogue Publication

variable {around : Surroundings} {asked : Invocation} {settings : Settings}
  {es : List (Exchange world)}

/-! ## A release behind its settings -/

/-- A release that has asked for nothing, or that has asked the registry about the first crates
of its plan. -/
def AsksInOrder (around : Surroundings) (asked : Invocation) (settings : Settings)
    (requests : List Request) : Prop :=
  requests = [] ∨ ∃ plan workspace client, Prepared around asked settings plan workspace client ∧
    requests <+: plan.crates.map client.request

/-- A plan is a rehearsal if the command line or the settings say so. -/
theorem Prepared.dryRun_of {plan : Plan} {workspace : Workspace} {client : Registry.Client}
    (h : Prepared around asked settings plan workspace client)
    (hdry : asked.dryRun = true ∨ ∃ v, settings.get? "dry_run" = some v ∧ v.isTruthy = true) :
    plan.dryRun = true := by
  obtain ⟨token, crates, flags, -, -, -, rfl⟩ := Plan.exists_of_ofSettings h.planned
  rw [Bool.or_eq_true]
  refine hdry.imp_right ?_
  rintro ⟨v, hv, htruthy⟩
  rwa [hv, Option.getD_some]

/-- A rehearsal does no harm, whatever harmless words follow it. -/
theorem Prepared.harmless {plan : Plan} {workspace : Workspace} {client : Registry.Client}
    (prepared : Prepared around asked settings plan workspace client)
    (hdry : asked.dryRun = true ∨ ∃ v, settings.get? "dry_run" = some v ∧ v.isTruthy = true)
    {ws : List (Exchange world)} {r : Except Failure Report}
    (h : (carryOut workspace client (publishAll plan .standard)).Unfolds ws r)
    (last : List (Exchange world))
    (hharmless : ∀ e ∈ last, e.question.isHarmless = true) (hlast : inquiries last = []) :
    (∀ e ∈ announced settings :: (ws ++ last), e.question.isHarmless = true) ∧
      AsksInOrder around asked settings (inquiries (announced settings :: (ws ++ last))) := by
  obtain ⟨hws, hprefix⟩ := harmless_of_carryOut (prepared.dryRun_of hdry) h
  refine ⟨List.forall_mem_cons.mpr ⟨rfl, List.forall_mem_append.mpr ⟨hws, hharmless⟩⟩,
    .inr ⟨_, _, _, prepared, ?_⟩⟩
  rwa [inquiries_cons_of_eq_false rfl, inquiries_append, hlast, List.append_nil]

theorem Performance.harmless {o : Except Failure Int} (h : Performance around asked settings es o)
    (hdry : asked.dryRun = true ∨ ∃ v, settings.get? "dry_run" = some v ∧ v.isTruthy = true) :
    (∀ e ∈ es, e.question.isHarmless = true) ∧
      AsksInOrder around asked settings (inquiries es) := by
  cases h with
  | unplanned h => exact ⟨List.forall_mem_singleton.mpr rfl, .inl rfl⟩
  | homeless h usual =>
    exact ⟨List.forall_mem_cons.mpr ⟨rfl, List.forall_mem_singleton.mpr rfl⟩, .inl rfl⟩
  | astray h unusual => exact ⟨List.forall_mem_singleton.mpr rfl, .inl rfl⟩
  | unconnected h => exact ⟨List.forall_mem_singleton.mpr rfl, .inl rfl⟩
  | @broken plan workspace client ws f prepared h =>
    have hbroken := prepared.harmless hdry h [] (List.forall_mem_nil _) rfl
    rwa [List.append_nil] at hbroken
  | stopped prepared h stop =>
    exact prepared.harmless hdry h _ (List.forall_mem_singleton.mpr rfl) rfl
  | finished prepared h smooth =>
    exact prepared.harmless hdry h _ (List.forall_mem_singleton.mpr rfl) rfl

/-! ## From the arguments on -/

variable {σ : Type}

/-- Complaints are harmless, and no registry is asked in them. -/
theorem harmless_of_warns (h : ∀ e ∈ es, ∃ line, e = ⟨.warn line, ()⟩) :
    (∀ e ∈ es, e.question.isHarmless = true) ∧ inquiries es = [] := by
  refine ⟨fun e he => ?_, ?_⟩
  · obtain ⟨line, rfl⟩ := h e he
    rfl
  · rw [inquiries, List.filter_eq_nil_iff]
    intro q hq
    obtain ⟨e, he, rfl⟩ := List.mem_map.mp hq
    obtain ⟨line, rfl⟩ := h e he
    exact Bool.false_ne_true

/-- A release that is a rehearsal is harmless from the loading of its settings on. -/
theorem harmless_perform (partner : Partner world σ) (s : σ)
    (hdry : asked.dryRun = true ∨ ∃ settings v,
      ((settingsFor around asked.config).play partner s).outcome = .ok settings ∧
        settings.get? "dry_run" = some v ∧ v.isTruthy = true) :
    (∀ e ∈ ((perform around asked).play partner s).exchanges, e.question.isHarmless = true) ∧
      (inquiries ((perform around asked).play partner s).exchanges = [] ∨ ∃ settings,
        ((settingsFor around asked.config).play partner s).outcome = .ok settings ∧
          AsksInOrder around asked settings
            (inquiries ((perform around asked).play partner s).exchanges)) := by
  obtain ⟨hload, hnone⟩ := harmless_of_warns (complaints_of_unfolds_settingsFor
    (unfolds_play partner (settingsFor around asked.config) s)).warns
  rcases performance_cases around asked partner s with
    ⟨f, -, -, hrecord⟩ | ⟨settings, es, hsettings, hperformance, hrecord⟩
  · rw [hrecord]
    exact ⟨hload, .inl hnone⟩
  · have hdry' : asked.dryRun = true ∨
        ∃ v, settings.get? "dry_run" = some v ∧ v.isTruthy = true := by
      refine hdry.imp_right ?_
      rintro ⟨settings', v, hsettings', hv⟩
      obtain rfl := Except.ok.inj (hsettings.symm.trans hsettings')
      exact ⟨v, hv⟩
    obtain ⟨hes, hasks⟩ := hperformance.harmless hdry'
    rw [hrecord, inquiries_append, hnone, List.nil_append]
    exact ⟨List.forall_mem_append.mpr ⟨hload, hes⟩, .inr ⟨settings, hsettings, hasks⟩⟩

/-- **A rehearsal does no harm.**  Let the arguments of a release be such that they can be read,
and let them have the option for a rehearsal, or let the setting for it in the settings that are
loaded be any value that counts as present.  However the program ends, it has run no cargo but
in order to have the workspace described, it has not waited, and the requests that it has sent
to the registry, if there are any, are those for the first crates of its plan, in their order. -/
theorem rehearsal_does_no_harm (around : Surroundings) (arguments : List String)
    (asked : Invocation) (partner : Partner world σ) (s : σ)
    (hread : CommandLine.read arguments = .ok asked)
    (hdry : (∃ forms, CommandLine.tokens arguments = .ok forms ∧ .flag .dryRun ∈ forms) ∨
      ∃ settings v, ((settingsFor around asked.config).play partner s).outcome = .ok settings ∧
        settings.get? "dry_run" = some v ∧ v.isTruthy = true) :
    let record := ((run around arguments).play partner s).exchanges
    (∀ directory command captured answer,
        (⟨.cargo directory command captured, answer⟩ : Exchange world) ∈ record →
          command = Cargo.describeArguments ∧ captured = true) ∧
      (∀ seconds, (⟨.pause seconds, ()⟩ : Exchange world) ∉ record) ∧
      (inquiries record = [] ∨ ∃ settings plan workspace client,
        ((settingsFor around asked.config).play partner s).outcome = .ok settings ∧
          Prepared around asked settings plan workspace client ∧
          inquiries record <+: plan.crates.map client.request) := by
  intro record
  have hasked : asked.dryRun = true ∨ ∃ settings v,
      ((settingsFor around asked.config).play partner s).outcome = .ok settings ∧
        settings.get? "dry_run" = some v ∧ v.isTruthy = true := by
    refine hdry.imp_left ?_
    rintro ⟨forms, hforms, hoption⟩
    exact (CommandLine.dryRun_iff_of_read hforms hread).mpr hoption
  obtain ⟨hharmless, hasks⟩ := harmless_perform partner s hasked
  rw [← exchanges_run hread] at hharmless hasks
  refine ⟨fun directory command captured answer hmem => ?_, fun seconds hmem => ?_, ?_⟩
  · have hcargo := hharmless _ hmem
    simp only [Request.isHarmless, Bool.and_eq_true, beq_iff_eq] at hcargo
    exact hcargo.symm
  · exact absurd (hharmless _ hmem) Bool.false_ne_true
  · rcases hasks with hnone | ⟨settings, hsettings, hnone | ⟨plan, workspace, client, hasks⟩⟩
    · exact .inl hnone
    · exact .inl hnone
    · exact .inr ⟨settings, plan, workspace, client, hsettings, hasks⟩

/-- A directory with a manifest, and with settings in which the one for a rehearsal is a word. -/
def waryWorkspace : Surroundings :=
  ⟨⟨[(["Cargo.toml"], .file ⟨#[]⟩),
    (["crate_release.toml"], .file "dry_run = 'no'".toByteArray)]⟩, [], []⟩

/-- The word counts, whatever it says: a release without the option that ends well has published
nothing, and it has asked the registry once. -/
theorem rehearsal_does_no_harm_by_settings :
    CommandLine.read ["core"] = .ok ⟨["core"], .search, none, false⟩ ∧
      (∃ settings v, ((settingsFor waryWorkspace .search).play oneCrateWorld false).outcome =
          .ok settings ∧ settings.get? "dry_run" = some v ∧ v.isTruthy = true) ∧
      let record := ((run waryWorkspace ["core"]).play oneCrateWorld false).exchanges
      ((run waryWorkspace ["core"]).play oneCrateWorld false).outcome.toOption = some 0 ∧
        (∀ directory command answer,
          (⟨.cargo directory command false, answer⟩ : Exchange world) ∉ record) ∧
        ∃ client : Registry.Client, inquiries record = [client.request "core"] := by
  have hread : CommandLine.read ["core"] = .ok ⟨["core"], .search, none, false⟩ := rfl
  have hword : ((settingsFor waryWorkspace .search).play oneCrateWorld false).outcome.toOption.any
      (fun settings => (settings.get? "dry_run").any Value.isTruthy) = true := by
    decide +kernel
  have hcode : ((run waryWorkspace ["core"]).play oneCrateWorld false).outcome.toOption =
      some 0 := by
    decide +kernel
  have hlength :
      (inquiries ((run waryWorkspace ["core"]).play oneCrateWorld false).exchanges).length = 1 := by
    decide +kernel
  obtain ⟨settings, hloaded, v, hget, htruthy⟩ : ∃ settings,
      ((settingsFor waryWorkspace .search).play oneCrateWorld false).outcome = .ok settings ∧
        ∃ v, settings.get? "dry_run" = some v ∧ v.isTruthy = true := by
    cases hload : ((settingsFor waryWorkspace .search).play oneCrateWorld false).outcome with
    | error f =>
      rw [hload] at hword
      cases hword
    | ok settings =>
      rw [hload] at hword
      exact ⟨settings, rfl, Option.any_eq_true _ _ |>.mp hword⟩
  obtain ⟨hcargo, -, hasks⟩ := rehearsal_does_no_harm waryWorkspace ["core"] _ oneCrateWorld false
    hread (.inr ⟨settings, v, hloaded, hget, htruthy⟩)
  refine ⟨hread, ⟨settings, v, hloaded, hget, htruthy⟩, hcode, ?_, ?_⟩
  · intro directory command answer hmem
    exact Bool.false_ne_true (hcargo directory command false answer hmem).2
  · rcases hasks with hnone | ⟨_, plan, workspace, client, -, hprepared, hprefix⟩
    · rw [hnone] at hlength
      cases hlength
    · obtain ⟨token, crates, flags, -, hcrates, -, rfl⟩ := Plan.exists_of_ofSettings hprepared.planned
      obtain rfl : ["core"] = crates := Except.ok.inj hcrates
      exact ⟨client, hprefix.eq_of_length hlength⟩

end ReleaseTrain.Release
