import ReleaseTrain.Proofs.Publication.Stretches
import ReleaseTrain.Proofs.Release.Setup
import ReleaseTrain.Proofs.Release.Visibility

/-!
# The commands that publish

What is published cannot be taken back, so the commands that publish have to be what was asked
for, from the directory in which they are run to the last argument.

* `Cargo.publishArguments_of_tokenIn`: a command, from the settings and the environment.
* `commands_are_as_asked`: the statement, from the arguments of a release to the commands.
-/

namespace ReleaseTrain

/-- The command that publishes the crate of a manifest: the flags stand behind the manifest, and the
token, if there is one, stands last. -/
theorem Cargo.publishArguments_of_tokenIn {environment : Entries String String} {name : Value}
    {token : Option String} (h : Plan.tokenIn environment name = .ok token) (manifest : Path)
    (flags : List String) :
    publishArguments manifest token flags =
      ["publish", "--manifest-path", manifest.text] ++ flags ++
        if Plan.secretIn environment name = "" then []
        else ["--token", Plan.secretIn environment name] := by
  rw [Plan.eq_of_tokenIn h]
  unfold publishArguments
  by_cases hnone : Plan.secretIn environment name = ""
  · rw [if_pos hnone, if_pos hnone]
  · rw [if_neg hnone, if_neg hnone]
    dsimp only
    rw [if_neg (by rwa [String.isEmpty_iff])]
    rfl

namespace Release

open Dialogue Publication

theorem OnlyLines.quiet {ws : List (Exchange world)} (h : OnlyLines ws) : Quiet ws := by
  intro e he
  obtain ⟨question, answer⟩ := e
  have hline := h _ he
  cases question with
  | cargo directory arguments captured => cases hline
  | _ => rfl

/-- **The commands that publish are as they were asked for.**  If cargo is run in a release for
anything but a description of the workspace, then the arguments can be read, settings are loaded,
and the workspace lies in the directory that they name.  The release consists of a stretch for each
of the first crates that are to be published, in their order, with nothing published before them or
behind them.  In a stretch cargo is run once at most but for descriptions: in the workspace, with
its streams left alone, right behind a description that tells the manifest of the crate, and with
the command for this manifest, which ends with the flags of the settings and then with the token,
if its variable holds one. -/
theorem commands_are_as_asked {σ : Type} (around : Surroundings) (arguments : List String)
    (partner : Partner world σ) (s : σ)
    (hpublishes : ∃ e ∈ ((run around arguments).play partner s).exchanges,
      e.question.isCommand = true) :
    ∃ asked settings place directory crates flags before reached pieces after,
      CommandLine.read arguments = .ok asked ∧
      ((settingsFor around asked.config).play partner s).outcome = .ok settings ∧
      directoryOf asked settings = .text place ∧
      around.files.resolve around.here (Path.ofText place.shown) = .ok directory ∧
      Plan.crateNames asked.crates ((settings.get? "crates").getD .null) = .ok crates ∧
      Plan.Lists ((settings.get? "publish_flags").getD .null) flags ∧
      ((run around arguments).play partner s).exchanges = before ++ (pieces.flatten ++ after) ∧
      Quiet before ∧ Quiet after ∧ reached <+: crates ∧
      let token := Plan.secretIn around.environment
        ((settings.get? "token_env").getD (.text Plan.standardTokenVariable))
      List.Forall₂
        (Stretch directory fun manifest =>
          ["publish", "--manifest-path", manifest.text] ++ flags ++
            if token = "" then [] else ["--token", token])
        reached pieces := by
  obtain ⟨e, he, hpublish⟩ := hpublishes
  have hbusy : ¬OnlyLines ((run around arguments).play partner s).exchanges := by
    intro hlines
    rw [hlines.quiet e he] at hpublish
    cases hpublish
  cases hread : CommandLine.read arguments with
  | error stop => exact absurd (onlyLines_run_of_error hread) hbusy
  | ok asked =>
    rcases setup_cases around hread partner s with ⟨hlines, -⟩ | ⟨settings, hloaded, hbegun⟩
    · exact absurd hlines hbusy
    generalize ((run around arguments).play partner s).exchanges = record at hbegun
    cases hbegun with
    | @between plan workspace client before ws after o prepared before_lines published after_lines =>
      obtain ⟨token, crates, flags, htoken, hcrates, hflags, rfl⟩ :=
        Plan.exists_of_ofSettings prepared.planned
      obtain ⟨place, hplace, hdirectory, -⟩ := exists_manifest_of_workspaceIn prepared.opened
      obtain ⟨opening, reached, pieces, hopening, hreached, rfl, hstretches⟩ :=
        exists_stretches_of_carryOut published
      simp only [Cargo.publishArguments_of_tokenIn htoken] at hstretches
      have hrecord : before ++ (opening ++ pieces.flatten ++ after) =
          (before ++ opening) ++ (pieces.flatten ++ after) := by
        simp only [List.append_assoc]
      exact ⟨asked, settings, place, workspace.directory, crates, flags, before ++ opening, reached,
        pieces, after, rfl, hloaded, hplace, hdirectory, hcrates, Plan.lists_of_listOf hflags,
        hrecord, before_lines.quiet.append hopening, after_lines.quiet, hreached, hstretches⟩

/-- A workspace that lies where the settings say, with flags in one text and a token that has white
space around it. -/
def distantWorkspace : Surroundings where
  files :=
    ⟨[(["ws"], .directory), (["ws", "Cargo.toml"], .file ⟨#[]⟩),
      (["crate_release.toml"], .file ("manifest_dir = 'ws'\n" ++ "token_env = 'TOKEN'\n" ++
        "publish_flags = \"--locked --features 'a b'\"\n").toByteArray)]⟩
  here := []
  environment := [("TOKEN", " secret\n")]

/-- The settings that are loaded there. -/
theorem exists_settings_of_distantWorkspace :
    ∃ settings, ((settingsFor distantWorkspace .search).play oneCrateWorld false).outcome =
        .ok settings ∧
      settings.get? "manifest_dir" = some (.text (.whole "ws")) ∧
      settings.get? "token_env" = some (.text (.whole "TOKEN")) ∧
      settings.get? "publish_flags" = some (.text (.whole "--locked --features 'a b'")) := by
  have hsettings : ((settingsFor distantWorkspace .search).play oneCrateWorld
      false).outcome.toOption.any (fun settings => settings.hasText "manifest_dir" "ws" &&
        (settings.hasText "token_env" "TOKEN" &&
          settings.hasText "publish_flags" "--locked --features 'a b'")) = true := by
    decide +kernel
  obtain ⟨settings, hloaded, htexts⟩ := exists_of_any_toOption hsettings
  rw [Bool.and_eq_true, Bool.and_eq_true] at htexts
  obtain ⟨hplace, hvariable, hflags⟩ := htexts
  exact ⟨settings, hloaded, Settings.get?_of_hasText hplace, Settings.get?_of_hasText hvariable,
    Settings.get?_of_hasText hflags⟩

/-- The one command that publishes the crate there. -/
theorem commands_are_as_asked_at_core :
    (∃ e ∈ ((run distantWorkspace ["core"]).play oneCrateWorld false).exchanges,
      e.question.isCommand = true) ∧
      ∃ finished manifest result, finished.Locates "core" manifest ∧
        [(⟨.cargo ⟨.single, ["ws"]⟩ Cargo.describeArguments true, .ok finished⟩ :
            Exchange world),
          ⟨.cargo ⟨.single, ["ws"]⟩
            ["publish", "--manifest-path", (Path.ofText manifest.shown).text,
              "--locked", "--features", "a b", "--token", "secret"] false, result⟩] <:+:
          ((run distantWorkspace ["core"]).play oneCrateWorld false).exchanges := by
  have hcommands : ((run distantWorkspace ["core"]).play oneCrateWorld false).exchanges.any
      (·.question.isCommand) = true := by
    decide +kernel
  obtain ⟨e, he, hcommand⟩ := List.any_eq_true.mp hcommands
  refine ⟨⟨e, he, hcommand⟩, ?_⟩
  obtain ⟨settings, hloaded, hplace, hvariable, hflags⟩ := exists_settings_of_distantWorkspace
  obtain ⟨asked, settings', place, directory, crates, flags, before, reached, pieces, after, hread,
    hloaded', hplace', hresolve, hcrates, hlists, hrecord, hbefore, hafter, hreached,
    hstretches⟩ := commands_are_as_asked distantWorkspace ["core"] oneCrateWorld false
      ⟨e, he, hcommand⟩
  obtain rfl : ⟨["core"], .search, none, false⟩ = asked := Except.ok.inj hread
  obtain rfl := Except.ok.inj (hloaded.symm.trans hloaded')
  -- what the settings and the environment say
  have hnamed : directoryOf ⟨["core"], .search, none, false⟩ settings = .text (.whole "ws") := by
    show (settings.get? "manifest_dir").getD .null = _
    rw [hplace, Option.getD_some]
  obtain rfl : place = .whole "ws" := Value.text.inj (hplace'.symm.trans hnamed)
  obtain rfl : directory = ⟨.single, ["ws"]⟩ := Except.ok.inj (hresolve.symm.trans rfl)
  obtain rfl : ["core"] = crates := Except.ok.inj hcrates
  rw [hflags, Option.getD_some] at hlists
  obtain rfl : flags = ["--locked", "--features", "a b"] := by
    cases hlists with
    | absent h => exact absurd h (by decide)
    | text h => exact Except.ok.inj (h.symm.trans rfl)
    | members other h => exact absurd rfl (other _)
  have hsecret : Plan.secretIn distantWorkspace.environment (.text (.whole "TOKEN")) =
      "secret" := by
    decide +kernel
  simp only [hvariable, Option.getD_some, hsecret] at hstretches
  -- nothing is published before the stretches or behind them
  have hwithin : e ∈ pieces.flatten := by
    rw [hrecord] at he
    by_contra hout
    have hquiet : e.question.isCommand = false := by
      rcases List.mem_append.mp he with he | he
      · exact hbefore e he
      · exact hafter e ((List.mem_append.mp he).resolve_left hout)
    rw [hquiet] at hcommand
    cases hcommand
  obtain ⟨name, hname, finished, manifest, result, hlocates, rfl, hinfix⟩ :=
    eq_of_isCommand_of_stretches hstretches hwithin hcommand
  obtain rfl : name = "core" := List.mem_singleton.mp (hreached.subset hname)
  rw [hrecord]
  exact ⟨finished, manifest, result, hlocates,
    hinfix.trans ((List.prefix_append _ _).isInfix.trans (List.suffix_append _ _).isInfix)⟩

end Release

end ReleaseTrain
