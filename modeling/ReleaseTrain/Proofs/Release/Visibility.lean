import ReleaseTrain.Proofs.Plan
import ReleaseTrain.Proofs.Publication.Outside
import ReleaseTrain.Proofs.Release.Performance

/-!
# Success means that everything is visible

A release that returns with the exit code zero and was no rehearsal has shown every
crate of its plan to be visible: cargo has described it with a version, and later on the
registry has answered that it has this version.

* `Performance.finished_of_zero`: only a release that nothing stopped ends with zero.
* `visible_of_success`: the statement, from the arguments to the exchanges.
-/

namespace ReleaseTrain.Release

open Dialogue Publication

variable {σ : Type} {around : Surroundings} {asked : Invocation} {settings : Settings}

/-- The exit code zero is kept for a publication without an error. -/
theorem Performance.exists_of_zero {es : List (Exchange world)}
    (h : Performance around asked settings es (.ok 0)) :
    ∃ plan workspace client ws report, Prepared around asked settings plan workspace client ∧
      (carryOut workspace client (publishAll plan .standard)).Unfolds ws (.ok report) ∧
      report.error = none ∧ ws.Sublist es := by
  generalize ho : Except.ok (0 : Int) = o at h
  cases h with
  | unplanned h => cases ho
  | homeless h usual => cases ho
  | astray h unusual => cases ho
  | unconnected h => cases ho
  | broken prepared h => cases ho
  | @stopped plan workspace client ws report error prepared h stop =>
    obtain ⟨steps, hsteps, -⟩ := exists_expansion_of_carryOut h
    exact absurd (Except.ok.inj ho).symm (exitCode_ne_zero_of_unfolds hsteps stop)
  | @finished plan workspace client ws report prepared h smooth =>
    exact ⟨plan, workspace, client, ws, report, prepared, h, smooth,
      (List.sublist_append_left ws _).cons _⟩

/-- The address of a registry is the setting, without slashes at its end. -/
theorem exists_address_of_clientOf {client : Registry.Client}
    (h : clientOf settings = .ok client) :
    ∃ url, settings.get? "registry_url" = some (.text url) ∧
      client.address = Registry.withoutSlashes url.shown := by
  unfold clientOf at h
  split at h
  next => cases h
  next limit hlimit =>
    cases hurl : settings.get? "registry_url" with
    | none =>
      rw [hurl] at h
      cases h
    | some v =>
      rw [hurl, Option.getD_some] at h
      cases v with
      | text url =>
        cases h
        exact ⟨url, rfl, rfl⟩
      | _ => cases h

/-- **Success means that everything is visible.**  If the arguments of a release can be
read and the release ends with the code zero, so does the program, and if the plan is no
rehearsal, it names a crate, and for every crate that it names cargo has described a first
package of this name with some version, and after that the registry has answered, to a
request at the address that the settings name, with a first entry for this version that
has a date. -/
theorem visible_of_success (around : Surroundings) (arguments : List String)
    (asked : Invocation) (partner : Partner world σ) (s : σ)
    (hread : CommandLine.read arguments = .ok asked)
    (hzero : ((perform around asked).play partner s).outcome = .ok 0) :
    ((run around arguments).play partner s).outcome = .ok 0 ∧
      ∃ settings plan workspace client url,
        ((settingsFor around asked.config).play partner s).outcome = .ok settings ∧
        Prepared around asked settings plan workspace client ∧
        settings.get? "registry_url" = some (.text url) ∧
        (plan.dryRun = false → plan.crates ≠ [] ∧
          ∀ name ∈ plan.crates, ∃ finished version response date,
            [(⟨.cargo workspace.directory Cargo.describeArguments true, .ok finished⟩ :
                Exchange world),
              ⟨.get (Registry.withoutSlashes url.shown ++ "/" ++ name) client.limit client.agent,
                .ok response⟩].Sublist ((run around arguments).play partner s).exchanges ∧
            finished.Describes name version ∧ response.Confirms version.sentence date) := by
  obtain ⟨settings, es, hsettings, hperformance, hes⟩ := exists_performance_of_outcome_ok hzero
  obtain ⟨plan, workspace, client, ws, report, hprepared, hcarried, hok, hws⟩ :=
    hperformance.exists_of_zero
  obtain ⟨url, hurl, haddress⟩ := exists_address_of_clientOf hprepared.connected
  refine ⟨outcome_run_of_ok hread hzero, settings, plan, workspace, client, url, hsettings,
    hprepared, hurl, fun hreal => ⟨Plan.crates_ne_nil hprepared.planned, fun name hname => ?_⟩⟩
  obtain ⟨steps, hsteps, hexpansion⟩ := exists_expansion_of_carryOut hcarried
  obtain ⟨version, hseen⟩ := exists_seen_of_unfolds hsteps hok hreal hname
  obtain ⟨finished, v, response, date, hsub, hdescribes, hconfirms⟩ :=
    exists_sublist_of_seen hexpansion hseen
  refine ⟨finished, v, response, date, ?_, hdescribes, hconfirms⟩
  rw [exchanges_run hread, hes, ← haddress]
  exact (hsub.trans hws).trans (List.sublist_append_right _ es)

/-- A directory with a manifest and nothing else. -/
def bareWorkspace : Surroundings := ⟨⟨[(["Cargo.toml"], .file ⟨#[]⟩)]⟩, [], []⟩

/-- A world with one crate, which the registry knows once cargo has published it.  The
state says whether it has. -/
def oneCrateWorld : Partner world Bool
  | .say _, s | .warn _, s | .pause _, s => ((), s)
  | .cargo _ _ true, s =>
    (.ok ⟨0, "\x7b\"packages\":[\x7b\"name\":\"core\",\"version\":\"1.0.0\"," ++
      "\"manifest_path\":\"core/Cargo.toml\"\x7d]\x7d", none⟩, s)
  | .cargo _ _ false, _ => (.ok ⟨0, "", none⟩, true)
  | .get _ _ _, false => (.ok ⟨404, "Not Found", ""⟩, false)
  | .get _ _ _, true =>
    (.ok ⟨200, "OK", "\x7b\"versions\":[\x7b\"num\":\"1.0.0\"," ++
      "\"updated_at\":\"2024-05-06T07:08:09Z\"\x7d]\x7d"⟩, true)

/-- A crate that is published and then turns up. -/
theorem visible_of_success_of_core :
    CommandLine.read ["core"] = .ok ⟨["core"], .search, none, false⟩ ∧
      ((perform bareWorkspace ⟨["core"], .search, none, false⟩).play oneCrateWorld false).outcome =
        .ok 0 ∧
      ∃ workspace client finished version response date,
        [Workspace.described workspace (.ok finished),
            Registry.fetched client "core" (.ok response)].Sublist
          ((run bareWorkspace ["core"]).play oneCrateWorld false).exchanges ∧
        finished.Describes "core" version ∧ response.Confirms version.sentence date := by
  have hread : CommandLine.read ["core"] = .ok ⟨["core"], .search, none, false⟩ := rfl
  have hzero : ((perform bareWorkspace ⟨["core"], .search, none, false⟩).play
      oneCrateWorld false).outcome = .ok 0 := by
    with_unfolding_all rfl
  have hstandard : ((settingsFor bareWorkspace .search).play oneCrateWorld false).outcome =
      .ok ⟨Settings.standard, Settings.standardSource⟩ := rfl
  refine ⟨hread, hzero, ?_⟩
  obtain ⟨-, settings, plan, workspace, client, url, hsettings, hprepared, hurl, hvisible⟩ :=
    visible_of_success bareWorkspace ["core"] _ oneCrateWorld false hread hzero
  obtain rfl := Except.ok.inj (hsettings.symm.trans hstandard)
  have hplan : Plan.ofSettings (Settings.get? ⟨Settings.standard, Settings.standardSource⟩)
      ["core"] [] false = .ok ⟨["core"], none, [], false⟩ := rfl
  obtain rfl := Except.ok.inj (hprepared.planned.symm.trans hplan)
  obtain ⟨-, hcore⟩ := hvisible rfl
  obtain ⟨finished, version, response, date, hsub, hdescribes, hconfirms⟩ :=
    hcore "core" (List.mem_singleton.mpr rfl)
  obtain ⟨url', hurl', haddress⟩ := exists_address_of_clientOf hprepared.connected
  obtain rfl : url = url' := Value.text.inj (Option.some.inj (hurl.symm.trans hurl'))
  rw [← haddress] at hsub
  exact ⟨workspace, client, finished, version, response, date, hsub, hdescribes, hconfirms⟩

end ReleaseTrain.Release
