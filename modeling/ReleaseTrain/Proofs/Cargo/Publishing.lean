import ReleaseTrain.Proofs.Cargo.Metadata

/-!
# Publishing a crate of a workspace

* `unfolds_version_iff`: what telling a version consists of.
* `Handling`: what publishing a crate can consist of, and how it ends;
  `handling_of_unfolds`: there is nothing else.
* `accepted`: what is made of the answer to the run of cargo that publishes;
  `exists_cargo_of_accepted`: if that is a failure, it is one of cargo.
* `Handling.eq_ok_of_exited`, `Handling.eq_ok_of_dry`: if the crate is there, showing its
  command ends well, and so does running it if cargo exits with zero.

A crate is looked up before anything else is done about it.  So a rehearsal fails for want of
the crate like the publication itself, and if there is a crate, the command that the one shows
is the command that the other one runs.
-/

namespace ReleaseTrain.Workspace

open Dialogue

variable {workspace : Workspace} {name : String} {token : Option String} {flags : List String}
  {dryRun : Bool} {es : List (Exchange world)}

/-- Telling a version is one lookup. -/
theorem unfolds_version_iff {o : Except Failure String} :
    (workspace.version name).Unfolds es o ↔
      ∃ answer, es = [workspace.described answer] ∧
        o = (workspace.lookup name answer).map (·.version) := by
  rw [version, crate_eq, unfolds_ask_bind_iff]
  refine exists_congr fun answer => ?_
  cases workspace.lookup name answer with
  | error f =>
    simp only [ofExcept_error, fail_bind, unfolds_fail_iff]
    constructor
    · rintro ⟨rest, rfl, rfl, rfl⟩
      exact ⟨rfl, rfl⟩
    · rintro ⟨rfl, rfl⟩
      exact ⟨[], rfl, rfl, rfl⟩
  | ok crate =>
    simp only [ofExcept_ok, done_bind, unfolds_pure_iff]
    constructor
    · rintro ⟨rest, rfl, rfl, rfl⟩
      exact ⟨rfl, rfl⟩
    · rintro ⟨rfl, rfl⟩
      exact ⟨[], rfl, rfl, rfl⟩

/-- What is made of the answer to the run of cargo that publishes. -/
def accepted (name : String) (answer : Except Failure Finished) : Except Failure Unit := do
  let finished ← started answer
  if finished.code ≠ 0 then .error (.cargo (.unpublished name finished.code)) else .ok ()

theorem ofExcept_accepted (answer : Except Failure Finished) :
    (Dialogue.ofExcept (accepted name answer) : Dialogue world Unit) =
      Dialogue.ofExcept (started answer) >>= fun finished =>
        if finished.code ≠ 0 then .fail (.cargo (.unpublished name finished.code))
        else return () := by
  rw [accepted, ofExcept_bind]
  refine congrArg _ (funext fun finished => ?_)
  split
  · rfl
  · rfl

theorem accepted_of_code {finished : Finished} (h : finished.code = 0) :
    accepted name (.ok finished) = .ok () :=
  if_neg (not_not_intro h)

/-- A run of cargo that is not accepted has failed as cargo, if it was the system that kept it
from starting. -/
theorem exists_cargo_of_accepted {answer : Except Failure Finished} {f : Failure}
    (hstart : ∀ g, answer = .error g → g.isOfSystem = true)
    (h : accepted name answer = .error f) : ∃ g, f = .cargo g := by
  cases answer with
  | error g =>
    have hstarted : accepted name (.error g) =
        .error (if g.isOfSystem then .cargo (.notStarted g.message) else g) := rfl
    rw [hstarted, if_pos (hstart g rfl)] at h
    exact ⟨_, (Except.error.inj h).symm⟩
  | ok finished =>
    by_cases hcode : finished.code = 0
    · rw [accepted_of_code hcode] at h
      cases h
    · have hrefused : accepted name (.ok finished) =
          .error (.cargo (.unpublished name finished.code)) := if_pos hcode
      rw [hrefused] at h
      exact ⟨_, (Except.error.inj h).symm⟩

/-- The line with which a rehearsal shows a command. -/
def rehearsalLine (arguments : List String) : String :=
  "[publish]   [dry-run] " ++ Cargo.shown arguments

/-- What publishing a crate can consist of, and how it ends. -/
inductive Handling (workspace : Workspace) (name : String) (token : Option String)
    (flags : List String) : Bool → List (Exchange world) → Except Failure Unit → Prop
  | unknown {dryRun : Bool} {answer : Except Failure Finished} {f : Failure}
      (h : workspace.lookup name answer = .error f) :
      Handling workspace name token flags dryRun [workspace.described answer] (.error f)
  | shown {answer : Except Failure Finished} {crate : Crate}
      (h : workspace.lookup name answer = .ok crate) :
      Handling workspace name token flags true
        [workspace.described answer,
          ⟨.say (rehearsalLine (Cargo.publishArguments crate.manifest token flags)), ()⟩]
        (.ok ())
  | run {answer : Except Failure Finished} {crate : Crate}
      (h : workspace.lookup name answer = .ok crate) (result : Except Failure Finished) :
      Handling workspace name token flags false
        [workspace.described answer,
          ⟨.cargo workspace.directory (Cargo.publishArguments crate.manifest token flags) false,
            result⟩]
        (accepted name result)

/-- Publishing a crate is in the list. -/
theorem handling_of_unfolds {o : Except Failure Unit}
    (h : (workspace.publish name token flags dryRun).Unfolds es o) :
    Handling workspace name token flags dryRun es o := by
  rw [publish, manifest, crate_eq, bind_assoc, unfolds_ask_bind_iff] at h
  obtain ⟨answer, rest, rfl, h⟩ := h
  cases hlookup : workspace.lookup name answer with
  | error f =>
    rw [hlookup, ofExcept_error, fail_bind, unfolds_fail_iff] at h
    obtain ⟨rfl, rfl⟩ := h
    exact .unknown hlookup
  | ok crate =>
    rw [hlookup, ofExcept_ok, done_bind, pure_bind] at h
    cases dryRun with
    | true =>
      rw [if_pos rfl, World.say, unfolds_ask_iff] at h
      obtain ⟨⟨⟩, rest, rfl, h⟩ := h
      obtain ⟨rfl, rfl⟩ := unfolds_done_iff.mp h
      exact .shown hlookup
    | false =>
      rw [if_neg Bool.false_ne_true, run_eq, unfolds_ask_bind_iff] at h
      obtain ⟨result, rest, rfl, h⟩ := h
      rw [← ofExcept_accepted, unfolds_ofExcept_iff] at h
      obtain ⟨rfl, rfl⟩ := h
      exact .run hlookup result

section Handling

variable {answer : Except Failure Unit}

/-- If the crate is there and cargo exits with zero, publishing it ends well. -/
theorem Handling.eq_ok_of_exited
    (hthere : ∀ answer, workspace.described answer ∈ es →
      ∃ crate, workspace.lookup name answer = .ok crate)
    (hexited : ∀ directory arguments answer,
      (⟨.cargo directory arguments false, answer⟩ : Exchange world) ∈ es →
        ∃ finished, answer = .ok finished ∧ finished.code = 0)
    (h : Handling workspace name token flags false es answer) : answer = .ok () := by
  cases h with
  | @unknown _ description f h =>
    obtain ⟨crate, hcrate⟩ := hthere description (List.mem_cons_self ..)
    rw [hcrate] at h
    cases h
  | run h result =>
    obtain ⟨finished, rfl, hcode⟩ :=
      hexited _ _ result (List.mem_cons_of_mem _ (List.mem_cons_self ..))
    exact accepted_of_code hcode

/-- If the crate is there, showing its command ends well. -/
theorem Handling.eq_ok_of_dry
    (hthere : ∀ answer, workspace.described answer ∈ es →
      ∃ crate, workspace.lookup name answer = .ok crate)
    (h : Handling workspace name token flags true es answer) : answer = .ok () := by
  cases h with
  | @unknown _ description f h =>
    obtain ⟨crate, hcrate⟩ := hthere description (List.mem_cons_self ..)
    rw [hcrate] at h
    cases h
  | shown h => rfl

/-- Publishing a crate fails as its lookup does, or as cargo, if it was the system that kept cargo
from starting. -/
theorem Handling.lookup_or_cargo {f : Failure}
    (hstart : ∀ directory arguments captured g,
      (⟨.cargo directory arguments captured, .error g⟩ : Exchange world) ∈ es →
        g.isOfSystem = true)
    (h : Handling workspace name token flags dryRun es (.error f)) :
    (∃ answer, workspace.described answer ∈ es ∧ workspace.lookup name answer = .error f) ∨
      ∃ g, f = .cargo g := by
  generalize ho : (Except.error f : Except Failure Unit) = o at h
  cases h with
  | @unknown _ answer g h =>
    obtain rfl := Except.error.inj ho
    exact .inl ⟨answer, List.mem_cons_self .., h⟩
  | shown h => cases ho
  | run h result =>
    refine .inr (exists_cargo_of_accepted ?_ ho.symm)
    rintro g rfl
    exact hstart _ _ false g (List.mem_cons_of_mem _ (List.mem_singleton.mpr rfl))

end Handling

end ReleaseTrain.Workspace
