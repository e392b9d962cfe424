import ReleaseTrain.CommandLine

/-!
# What a command line asks for

* `dryRun_iff_of_read`: a command line that can be read asks for a rehearsal exactly if the
  option for it is among its arguments, in any spelling and at any place before the two
  dashes.
-/

namespace ReleaseTrain.CommandLine

variable {reading : Reading} {asked : Invocation}

theorem Reading.dryRun_takeRow (row : List String) :
    (reading.takeRow row).dryRun = reading.dryRun := by
  unfold takeRow
  split
  · rfl
  · split
    · rfl
    · rfl

theorem Reading.dryRun_takeValue (flag : Flag) (value : String) :
    (reading.takeValue flag value).dryRun = reading.dryRun := by
  cases flag <;> rfl

theorem Reading.dryRun_of_finish (h : reading.finish = .ok asked) :
    asked.dryRun = reading.dryRun := by
  unfold finish at h
  split at h
  · cases h
    rfl
  · cases h

/-- The option stays chosen once it has been read, and nothing else chooses it. -/
theorem dryRun_iff_of_readTokens {row : List String} {tokens : List Token}
    (h : readTokens reading row tokens = .ok asked) :
    asked.dryRun = true ↔ reading.dryRun = true ∨ .flag .dryRun ∈ tokens := by
  fun_induction readTokens reading row tokens with
  | case1 reading row => rw [Reading.dryRun_of_finish h, Reading.dryRun_takeRow]; simp
  | case2 reading row text rest ih => simpa using ih h
  | case3 reading row rest ih => simpa using ih h
  | case4 reading row text rest taken ih =>
    simpa [taken, Reading.dryRun_takeRow] using ih h
  | case5 reading row flag value rest hvalue ih =>
    simpa [Reading.dryRun_takeValue, Reading.dryRun_takeRow] using ih h
  | case6 => cases h
  | case7 => cases h
  | case8 => cases h
  | case9 reading row rest ih => simpa using ih h
  | case10 reading row value rest ih =>
    simpa [Reading.dryRun_takeValue, Reading.dryRun_takeRow] using ih h
  | case11 reading row value rest ih =>
    simpa [Reading.dryRun_takeValue, Reading.dryRun_takeRow] using ih h
  | case12 => cases h

/-- A command line that can be read asks for a rehearsal exactly if it has the option. -/
theorem dryRun_iff_of_read {arguments : List String} {forms : List Token}
    (hforms : tokens arguments = .ok forms) (h : read arguments = .ok asked) :
    asked.dryRun = true ↔ .flag .dryRun ∈ forms := by
  rw [read, hforms] at h
  rw [dryRun_iff_of_readTokens h]
  simp

end ReleaseTrain.CommandLine
