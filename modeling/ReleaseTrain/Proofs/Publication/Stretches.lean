import Mathlib.Data.List.Forall2
import ReleaseTrain.Proofs.Publication.Harmless

/-!
# What cargo is run for

Apart from describing the workspace, a release runs cargo in order to publish, and then the
command is put together from the plan and from what the description has said right before.

* `Request.isCommand`: whether cargo is run for anything but a description.
* `Stretch`: what the turn of a crate can take in the world, as far as publishing is concerned;
  `stretch_of_expansion`: there is nothing else.
* `eq_of_isCommand_of_stretches`: every command in such stretches is the one of its crate.
* `exists_stretches_of_carryOut`: a release is one such stretch for each crate that it reaches.

## Why the description is part of the stretch

Nothing is remembered from one description to the next, and a publication may change the
manifest that cargo tells.  So the manifest in a command is not that of the workspace, but that of
the description right before the command.
-/

namespace ReleaseTrain

/-- Whether a request runs cargo for anything but a description of the workspace. -/
def Request.isCommand : Request → Bool
  | .cargo _ arguments captured => !(captured && arguments == Cargo.describeArguments)
  | _ => false

theorem Request.isCommand_of_isHarmless {q : Request} (h : q.isHarmless = true) :
    q.isCommand = false := by
  cases q with
  | cargo directory arguments captured => exact congrArg Bool.not h
  | _ => rfl

namespace Publication

open Dialogue

/-- Exchanges in which cargo is run for descriptions alone. -/
def Quiet (ws : List (Exchange world)) : Prop := ∀ e ∈ ws, e.question.isCommand = false

/-- What the turn of a crate can take in the world, as far as publishing is concerned: nothing is
published, or cargo has told the manifest of the crate, and right behind that it is run with the
command for this manifest, in the same directory and with its streams left alone. -/
inductive Stretch (directory : Path) (command : Path → List String) (name : String) :
    List (Exchange world) → Prop
  | idle {ws : List (Exchange world)} (quiet : Quiet ws) : Stretch directory command name ws
  | publishing {front back : List (Exchange world)} {finished : Finished} {manifest : Text}
      (before : Quiet front) (located : finished.Locates name manifest)
      (result : Except Failure Finished) (behind : Quiet back) :
      Stretch directory command name
        (front ++ ⟨.cargo directory Cargo.describeArguments true, .ok finished⟩ ::
          ⟨.cargo directory (command (Path.ofText manifest.shown)) false, result⟩ :: back)

variable {workspace : Workspace} {client : Registry.Client} {plan : Plan} {policy : Policy}
  {name : String} {es : List (Exchange steps)} {ws ws' piece : List (Exchange world)}

theorem Quiet.append (h : Quiet ws) (h' : Quiet ws') : Quiet (ws ++ ws') :=
  List.forall_mem_append.mpr ⟨h, h'⟩

theorem quiet_of_isHarmless (h : ∀ e ∈ ws, e.question.isHarmless = true) : Quiet ws :=
  fun e he => Request.isCommand_of_isHarmless (h e he)

/-- A command of a stretch is the one of the crate, and it comes right behind the description that
it goes by. -/
theorem Stretch.eq_of_isCommand {directory : Path} {command : Path → List String}
    (h : Stretch directory command name ws) {e : Exchange world} (he : e ∈ ws)
    (hcommand : e.question.isCommand = true) :
    ∃ finished manifest result, finished.Locates name manifest ∧
      e = ⟨.cargo directory (command (Path.ofText manifest.shown)) false, result⟩ ∧
      [⟨.cargo directory Cargo.describeArguments true, .ok finished⟩, e] <:+: ws := by
  cases h with
  | idle quiet =>
    rw [quiet e he] at hcommand
    cases hcommand
  | @publishing front back finished manifest before located result behind =>
    have heq : e = ⟨.cargo directory (command (Path.ofText manifest.shown)) false, result⟩ := by
      by_contra hother
      -- the description and the exchanges around the two run no command
      have hquiet : e.question.isCommand = false := by
        rcases List.mem_append.mp he with he | he
        · exact before e he
        rcases List.mem_cons.mp he with rfl | he
        · rfl
        · exact behind e ((List.mem_cons.mp he).resolve_left hother)
      rw [hquiet] at hcommand
      cases hcommand
    exact ⟨finished, manifest, result, located, heq, front, back, by simp [heq]⟩

/-- Every command in a record that is made of stretches is the one of a crate. -/
theorem eq_of_isCommand_of_stretches {directory : Path} {command : Path → List String}
    {names : List String} {pieces : List (List (Exchange world))}
    (h : List.Forall₂ (Stretch directory command) names pieces) {e : Exchange world}
    (he : e ∈ pieces.flatten) (hcommand : e.question.isCommand = true) :
    ∃ name ∈ names, ∃ finished manifest result, finished.Locates name manifest ∧
      e = ⟨.cargo directory (command (Path.ofText manifest.shown)) false, result⟩ ∧
      [⟨.cargo directory Cargo.describeArguments true, .ok finished⟩, e] <:+: pieces.flatten := by
  induction h with
  | nil => cases he
  | @cons name piece names pieces hstretch hrest ih =>
    rw [List.flatten_cons] at he ⊢
    rcases List.mem_append.mp he with he | he
    · obtain ⟨finished, manifest, result, hlocates, heq, hinfix⟩ :=
        hstretch.eq_of_isCommand he hcommand
      exact ⟨name, List.mem_cons_self, finished, manifest, result, hlocates, heq,
        hinfix.trans (List.prefix_append _ _).isInfix⟩
    · obtain ⟨other, hother, finished, manifest, result, hlocates, heq, hinfix⟩ := ih he
      exact ⟨other, List.mem_cons_of_mem name hother, finished, manifest, result, hlocates, heq,
        hinfix.trans (List.suffix_append _ _).isInfix⟩

/-! ## One step -/

/-- A step that is no publication publishes nothing. -/
theorem Step.quiet_of_carryOut {step : Step} {answer : step.Answer}
    (h : (step.carryOut workspace client).Unfolds piece (.ok answer))
    (hkind : step.kind ≠ .publication) : Quiet piece := by
  cases step with
  | pause seconds =>
    rw [Step.eq_of_carryOut_pause h]
    exact List.forall_mem_singleton.mpr rfl
  | publish name token flags dryRun => exact absurd rfl hkind
  | _ => exact quiet_of_isHarmless (Step.isHarmless_of_carryOut h rfl)

theorem quiet_of_expansion (h : Expansion (Step.carryOut workspace client) es ws)
    (hes : ∀ e ∈ es, kindOf e ≠ .publication) : Quiet ws := by
  induction h with
  | nil => exact List.forall_mem_nil _
  | cons first _ ih =>
    obtain ⟨hstep, hrest⟩ := List.forall_mem_cons.mp hes
    exact (Step.quiet_of_carryOut first hstep).append (ih hrest)

/-- The publication of a crate is a stretch, between exchanges that publish nothing. -/
theorem stretch_of_handling {token : Option String} {flags : List String} {dryRun : Bool}
    {answer : Except Failure Unit}
    (h : Workspace.Handling workspace name token flags dryRun piece answer)
    {front back : List (Exchange world)} (before : Quiet front) (behind : Quiet back) :
    Stretch workspace.directory (fun manifest => Cargo.publishArguments manifest token flags) name
      (front ++ (piece ++ back)) := by
  cases h with
  | unknown hlookup =>
    exact .idle (before.append (.append (List.forall_mem_singleton.mpr rfl) behind))
  | shown hlookup =>
    refine .idle (before.append (.append ?_ behind))
    exact List.forall_mem_cons.mpr ⟨rfl, List.forall_mem_singleton.mpr rfl⟩
  | run hlookup result =>
    obtain ⟨finished, manifest, rfl, hlocates, hmanifest⟩ := Workspace.locates_of_lookup hlookup
    rw [hmanifest]
    exact .publishing before hlocates result behind

/-! ## One crate -/

/-- The calls of a turn hold one publication at most, and it is that of the crate. -/
theorem Turn.split_publication {o : Except Failure CrateState}
    (h : Turn plan policy name (calls es) o) :
    (∀ e ∈ es, kindOf e ≠ .publication) ∨ ∃ front answer back,
      es = front ++ tried plan name answer :: back ∧
        (∀ e ∈ front, kindOf e ≠ .publication) ∧ ∀ e ∈ back, kindOf e ≠ .publication := by
  by_cases hsome : ∃ e ∈ es, kindOf e = .publication
  · obtain ⟨e, he, hkind⟩ := hsome
    have hcall : e ∈ calls es := by
      rw [mem_calls, hkind]
      exact ⟨he, by simp⟩
    obtain ⟨answer, rfl⟩ := h.eq_tried_of_mem hcall hkind
    obtain ⟨front, back, rfl⟩ := List.append_of_mem he
    -- a second publication on either side would make two
    have honce := h.publication_once
    rw [calls_append, calls_cons_tried, List.countP_append, List.countP_cons_of_pos (by simp)]
      at honce
    have hzero (side : List (Exchange steps))
        (hside : (calls side).countP (fun e => kindOf e = .publication) = 0) :
        ∀ e ∈ side, kindOf e ≠ .publication := by
      intro e he hkind
      have hcall : e ∈ calls side := by
        rw [mem_calls, hkind]
        exact ⟨he, by simp⟩
      exact List.countP_eq_zero.mp hside e hcall (decide_eq_true hkind)
    exact .inr ⟨front, answer, back, rfl, hzero front (by omega), hzero back (by omega)⟩
  · exact .inl fun e he hkind => hsome ⟨e, he, hkind⟩

/-- The turn of a crate takes a stretch in the world. -/
theorem stretch_of_expansion {o : Except Failure CrateState}
    (h : (publishCrate plan policy name).Unfolds es o)
    (hexpansion : Expansion (Step.carryOut workspace client) es ws) :
    Stretch workspace.directory
      (fun manifest => Cargo.publishArguments manifest plan.token plan.flags) name ws := by
  rcases (turn_of_unfolds h).split_publication with
    hnone | ⟨front, answer, back, rfl, hfront, hback⟩
  · exact .idle (quiet_of_expansion hexpansion hnone)
  · obtain ⟨before, rest, hbefore, hrest, rfl⟩ := hexpansion.exists_append
    cases hrest with
    | cons first hbehind =>
      exact stretch_of_handling (Step.handling_of_carryOut first)
        (quiet_of_expansion hbefore hfront) (quiet_of_expansion hbehind hback)

/-! ## A whole release -/

/-- The turns of some crates, up to the first one that fails, take a stretch each. -/
theorem exists_stretches_of_publishEach {names : List String}
    {states : Entries String CrateState} {o : Except Failure Report}
    (h : (publishEach plan policy states names).Unfolds es o)
    (hexpansion : Expansion (Step.carryOut workspace client) es ws) :
    ∃ reached pieces, reached <+: names ∧ ws = pieces.flatten ∧
      List.Forall₂ (Stretch workspace.directory
        fun manifest => Cargo.publishArguments manifest plan.token plan.flags) reached pieces := by
  induction names generalizing states es ws with
  | nil =>
    obtain ⟨rfl, -⟩ := unfolds_done_iff.mp h
    cases hexpansion
    exact ⟨[], [], List.prefix_rfl, rfl, .nil⟩
  | cons name rest ih =>
    rcases publishEach_cons_cases h with ⟨state, es₁, es₂, h₁, h₂, rfl⟩ | ⟨f, h, -⟩
    · obtain ⟨first, later, hfirst, hlater, rfl⟩ := hexpansion.exists_append
      obtain ⟨reached, pieces, hreached, rfl, hstretches⟩ := ih h₂ hlater
      exact ⟨name :: reached, first :: pieces, (List.prefix_cons_inj name).mpr hreached, rfl,
        .cons (stretch_of_expansion h₁ hfirst) hstretches⟩
    · exact ⟨[name], [ws], List.prefix_append [name] rest, (List.append_nil ws).symm,
        .cons (stretch_of_expansion h hexpansion) .nil⟩

/-- A release that is carried out in the world begins without a publication and is a stretch then
for each crate that it reaches, in the order of its plan. -/
theorem exists_stretches_of_carryOut {o : Except Failure Report}
    (h : (carryOut workspace client (publishAll plan policy)).Unfolds ws o) :
    ∃ opening reached pieces, Quiet opening ∧ reached <+: plan.crates ∧
      ws = opening ++ pieces.flatten ∧
        List.Forall₂ (Stretch workspace.directory
          fun manifest => Cargo.publishArguments manifest plan.token plan.flags) reached pieces := by
  obtain ⟨es, hes, hexpansion⟩ := exists_expansion_of_carryOut h
  obtain ⟨rest, rfl, hbooks⟩ := unfolds_publishAll_iff.mp hes
  cases hexpansion with
  | @cons _ _ opening _ _ first hrest =>
    obtain ⟨reached, pieces, hreached, rfl, hstretches⟩ :=
      exists_stretches_of_publishEach hbooks hrest
    have hopening : Quiet opening := Step.quiet_of_carryOut first (by simp [Step.kind])
    exact ⟨opening, reached, pieces, hopening, hreached, rfl, hstretches⟩

end Publication

end ReleaseTrain
