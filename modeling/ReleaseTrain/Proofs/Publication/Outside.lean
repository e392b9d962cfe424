import ReleaseTrain.Proofs.Cargo.Metadata
import ReleaseTrain.Proofs.Publication.Books
import ReleaseTrain.Proofs.Registry.Inquiry
import ReleaseTrain.Publication.Outside

/-!
# A publication in the world

A publication that is carried out in the world is an unfolding of the publication, with
each step spelled out by what it takes in the world.

* `exists_expansion_of_carryOut`: whatever happens in the world is such an expansion.
* `Step.exists_describes_of_carryOut`, `Step.exists_confirms_of_carryOut`: what stands in
  the world behind a version that was told and a look that found a date.
* `exists_seen_of_unfolds`: a publication without an error has seen every crate.
-/

namespace ReleaseTrain.Publication

open Dialogue

variable {workspace : Workspace} {client : Registry.Client}

/-! ## Steps in the world -/

namespace Step

/-- A step may be answered with a failure, but carrying it out does not fail. -/
theorem not_unfolds_carryOut_error (step : Step) (piece : List (Exchange world)) (f : Failure) :
    ¬(step.carryOut workspace client).Unfolds piece (.error f) := by
  intro h
  cases step with
  | say line =>
    obtain ⟨answer, rest, -, h⟩ := unfolds_ask_iff.mp h
    cases h
  | pause seconds =>
    obtain ⟨answer, rest, -, h⟩ := unfolds_ask_iff.mp h
    cases h
  | localVersion name =>
    obtain ⟨o, ho, -⟩ := unfolds_attempt_iff.mp h
    cases ho
  | publishedAt name version =>
    obtain ⟨o, ho, -⟩ := unfolds_attempt_iff.mp h
    cases ho
  | publish name token flags dryRun =>
    obtain ⟨o, ho, -⟩ := unfolds_attempt_iff.mp h
    cases ho

variable {name version : String} {piece : List (Exchange world)}

/-- Behind a version that was told stands one description by cargo. -/
theorem exists_describes_of_carryOut
    (h : (carryOut workspace client (.localVersion name)).Unfolds piece (.ok (.ok version))) :
    ∃ finished v, piece = [workspace.described (.ok finished)] ∧ finished.Describes name v ∧
      version = v.sentence := by
  obtain ⟨o, ho, h⟩ := unfolds_attempt_iff.mp h
  cases ho
  exact Workspace.exists_describes_of_unfolds_version h

/-- Behind a look that found a date stands one answer of the registry. -/
theorem exists_confirms_of_carryOut {date : Value}
    (h : (carryOut workspace client (.publishedAt name version)).Unfolds piece (.ok (.ok date)))
    (there : date.isTruthy = true) :
    ∃ response, piece = [Registry.fetched client name (.ok response)] ∧
      response.Confirms version date := by
  obtain ⟨o, ho, h⟩ := unfolds_attempt_iff.mp h
  cases ho
  exact (Registry.inquiry_of_unfolds h).exists_confirms there

end Step

/-! ## The whole publication -/

theorem exists_expansion_of_carryOut {α : Type} {d : Dialogue steps α}
    {ws : List (Exchange world)} {o : Except Failure α}
    (h : (carryOut workspace client d).Unfolds ws o) :
    ∃ es, d.Unfolds es o ∧ Expansion (Step.carryOut workspace client) es ws :=
  exists_expansion_of_unfolds_via Step.not_unfolds_carryOut_error h

/-- Some answer to every step. -/
def anyAnswer : (step : Step) → step.Answer
  | .say _ | .pause _ => ()
  | .localVersion _ => .ok ""
  | .publishedAt _ _ => .ok .null
  | .publish _ _ _ _ => .ok ()

variable {plan : Plan} {policy : Policy}

/-- A publication without an error has seen every crate, whoever answered. -/
theorem exists_seen_of_unfolds {es : List (Exchange steps)} {report : Report}
    (h : (publishAll plan policy).Unfolds es (.ok report)) (hok : report.error = none)
    (hreal : plan.dryRun = false) {name : String} (hname : name ∈ plan.crates) :
    ∃ version, Seen name version es := by
  -- the answers are read off the unfolding, so that what holds of runs applies
  have hplay := exists_play_of_unfolds anyAnswer h
  have houtcome : ((publishAll plan policy).play (reader anyAnswer) es).outcome = .ok report := by
    rw [hplay]
  have hall : completed plan policy (reader anyAnswer) es = plan.crates.length :=
    completed_of_forall_endedWell (endedWell_of_outcome_ok houtcome hok)
  obtain ⟨i, hi, rfl⟩ := List.getElem_of_mem hname
  obtain ⟨name, version, hname, hseen⟩ := exists_seen_of_lt_completed hreal (hall ▸ hi)
  rw [List.getElem?_eq_getElem hi, Option.some_inj] at hname
  rw [hplay] at hseen
  exact ⟨version, hname ▸ hseen⟩

/-- A report with an error asks for an exit code that does not claim success. -/
theorem exitCode_ne_zero_of_unfolds {es : List (Exchange steps)} {report : Report} {error : String}
    (h : (publishAll plan policy).Unfolds es (.ok report)) (herror : report.error = some error) :
    report.exitCode ≠ 0 := by
  have houtcome : ((publishAll plan policy).play (reader anyAnswer) es).outcome = .ok report := by
    rw [exists_play_of_unfolds anyAnswer h]
  rw [outcome_publishAll] at houtcome
  exact exitCode_ne_zero_of_reckon houtcome herror

/-- What stands in the world behind a crate that was seen: a description by cargo, and
later on an answer of the registry for the version in it. -/
theorem exists_sublist_of_seen {es : List (Exchange steps)} {ws : List (Exchange world)}
    (hexpansion : Expansion (Step.carryOut workspace client) es ws) {name version : String}
    (hseen : Seen name version es) :
    ∃ finished v response date,
      [workspace.described (.ok finished), Registry.fetched client name (.ok response)].Sublist ws ∧
      finished.Describes name v ∧ response.Confirms v.sentence date := by
  obtain ⟨date, hsub, there⟩ := hseen
  obtain ⟨ws', hpair, hws⟩ := hexpansion.exists_sublist hsub
  cases hpair with
  | cons hversion hrest =>
    cases hrest with
    | cons hlook hnil =>
      cases hnil
      obtain ⟨finished, v, rfl, hdescribes, rfl⟩ := Step.exists_describes_of_carryOut hversion
      obtain ⟨response, rfl, hconfirms⟩ := Step.exists_confirms_of_carryOut hlook there
      exact ⟨finished, v, response, date, hws, hdescribes, hconfirms⟩

end ReleaseTrain.Publication
