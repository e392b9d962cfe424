import ReleaseTrain.Proofs.Settings.Overlay

/-!
# Standard settings and fallbacks

What is taken for a setting that nobody has configured is said twice.  There are the standard
settings, over which a table of settings is put; and a plan, which may be made of a bare table too,
has a fallback for each setting that it asks for.

* `comesTo_over_standard`: a table comes to the same with the standard settings below it, if the
  standard setting comes to the same as the fallback.
* `standard_settings_agree`: the statement.

## Why the two may differ

The standard lists are empty, and the fallback for a list is null.  These are different values, but
both count as absent, and a plan sees of a list no more than its words.  So the settings are not
compared as values, but as what a plan makes of them.
-/

namespace ReleaseTrain.Settings

variable {table : Entries Text Value} {name source : String}

/-- What a table comes to does not depend on the standard settings below it, if the standard setting
comes to the same as the fallback for a missing one. -/
theorem comesTo_over_standard {α : Type} (comesTo : Value → α) {fallback : Value}
    (hdistinct : (table.map Prod.fst).Nodup) (hname : name ≠ sourceKey)
    (hstandard : comesTo ((standard.get? (.text name)).getD fallback) = comesTo fallback) :
    comesTo ((get? ⟨standard.putAll (keyed table), source⟩ name).getD fallback) =
      comesTo ((table.get? (.whole name)).getD fallback) := by
  rw [get?_of_ne hname, get?_putAll_keyed hdistinct]
  cases table.get? (.whole name) with
  | some v => rfl
  | none => exact hstandard

/-- **The two answers for missing settings agree.**  A table of settings can always be put over the
standard ones, and then each command line, environment and request for a rehearsal leads to the
plan that it leads to with the bare table, or to the same failure, whichever settings are in the
table and whatever their values are. -/
theorem standard_settings_agree (table : Entries Text Value)
    (hdistinct : (table.map Prod.fst).Nodup) (source : String) :
    ∃ settings, ofData (.table table) source = .ok settings ∧
      ∀ given environment dryRun,
        Plan.ofSettings settings.get? given environment dryRun =
          Plan.ofSettings (fun name => table.get? (.whole name)) given environment dryRun := by
  refine ⟨_, ofData_table table source, Plan.ofSettings_congr ?_ ?_ ?_ ?_⟩
  · exact comesTo_over_standard id hdistinct (by decide) rfl
  · exact comesTo_over_standard Plan.listOf hdistinct (by decide) rfl
  · exact comesTo_over_standard Plan.listOf hdistinct (by decide) rfl
  · exact comesTo_over_standard Value.isTruthy hdistinct (by decide) rfl

/-- Settings with odd values: truth values for the crates and for the name of a variable. -/
def oddSettings : Entries Text Value :=
  [(.whole "crates", .bool false), (.whole "token_env", .bool true),
    (.whole "publish_flags", .text "--locked --quiet")]

/-- Odd values lead to one plan, and flags that are no list to one failure. -/
theorem standard_settings_agree_on_odd_ones :
    (oddSettings.map Prod.fst).Nodup ∧
    (∃ settings, ofData (.table oddSettings) standardSource = .ok settings ∧
      Plan.ofSettings settings.get? [] [("True", " cio1\n")] false =
        .ok ⟨Plan.standardCrates, some "cio1", ["--locked", "--quiet"], false⟩) ∧
    ∃ settings, ofData (.table [(.whole "publish_flags", .bool true)]) standardSource =
        .ok settings ∧
      Plan.ofSettings settings.get? ["app"] [] true =
        .error (.wrongKind .members (.bool true)) := by
  have hdistinct : (oddSettings.map Prod.fst).Nodup := by decide
  obtain ⟨settings, hdata, hplan⟩ := standard_settings_agree oddSettings hdistinct standardSource
  obtain ⟨settings', hdata', hplan'⟩ := standard_settings_agree
    [(.whole "publish_flags", .bool true)] (by decide) standardSource
  exact ⟨hdistinct, ⟨settings, hdata, hplan _ _ _⟩, settings', hdata', hplan' _ _ _⟩

end ReleaseTrain.Settings
