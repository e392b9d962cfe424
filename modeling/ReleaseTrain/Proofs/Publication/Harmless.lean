import ReleaseTrain.Proofs.Publication.Discipline
import ReleaseTrain.Proofs.Publication.Log

/-!
# A rehearsal does no harm

Whatever a rehearsal asks of the world leaves the world as it is, and it asks the registry
about every crate of its plan once at most.

* `Request.isHarmless`: the requests that leave the world as it is.
* `Request.asksRegistry`, `inquiries`: the requests that a record sends to registries.
* `Step.isHarmless`, `looks`: the same for the steps of a publication.
* `Turn.isHarmless_of_mem`, `Turn.looks_of_dry`: a turn; `harmless_publishEach`: turns one
  after another.
* `harmless_of_carryOut`: a whole rehearsal, in the world.

## Why the looks are a prefix

A rehearsal looks once at every crate that it reaches and goes on only behind a turn that has
looked.  So the crates that it has looked at are the first ones of the plan, in its order,
and not merely as many as the plan has places.
-/

namespace ReleaseTrain

/-- Whether a request leaves the world as it is: it shows a line, asks a registry, or lets cargo
describe a workspace. -/
def Request.isHarmless : Request → Bool
  | .say _ | .warn _ | .get _ _ _ => true
  | .pause _ => false
  | .cargo _ arguments captured => captured && arguments == Cargo.describeArguments

/-- Whether a request asks a registry. -/
def Request.asksRegistry : Request → Bool
  | .get _ _ _ => true
  | _ => false

/-- The request for what a registry has to say about a crate. -/
def Registry.Client.request (client : Registry.Client) (name : String) : Request :=
  .get (client.addressOf name) client.limit client.agent

namespace Publication

open Dialogue

variable {workspace : Workspace} {client : Registry.Client} {plan : Plan} {policy : Policy}
  {name : String} {cs es es' : List (Exchange steps)} {ws ws' piece : List (Exchange world)}

/-! ## Requests to registries -/

/-- The requests of a record that ask registries, in order. -/
def inquiries (ws : List (Exchange world)) : List Request :=
  (ws.map (·.question)).filter Request.asksRegistry

@[simp] theorem inquiries_nil : inquiries [] = [] := rfl

theorem inquiries_append : inquiries (ws ++ ws') = inquiries ws ++ inquiries ws' := by
  rw [inquiries, List.map_append, List.filter_append]
  rfl

@[simp] theorem inquiries_cons_of_eq_false {e : Exchange world}
    (h : e.question.asksRegistry = false) : inquiries (e :: ws) = inquiries ws := by
  rw [inquiries, List.map_cons, List.filter_cons_of_neg (by simp [h])]
  rfl

/-! ## Looks at crates -/

/-- Whether a step leaves the world as it is: it is no pause, and no publication but one that is
only shown. -/
def Step.isHarmless : Step → Bool
  | .pause _ => false
  | .publish _ _ _ dryRun => dryRun
  | _ => true

/-- The crate that a step looks up in the registry. -/
def Step.looked? : Step → Option String
  | .publishedAt name _ => some name
  | _ => none

/-- The crates that were looked up, in order. -/
def looks (es : List (Exchange steps)) : List String := es.filterMap fun e => e.question.looked?

theorem looks_append : looks (es ++ es') = looks es ++ looks es' := List.filterMap_append ..

theorem looks_calls : looks (calls es) = looks es := filterMap_calls (fun _ => rfl) es

/-! ## One turn -/

/-- In a rehearsal every call of a turn is harmless. -/
theorem Turn.isHarmless_of_mem {o : Except Failure CrateState} (h : Turn plan policy name cs o)
    (hdry : plan.dryRun = true) {e : Exchange steps} (he : e ∈ cs) :
    e.question.isHarmless = true := by
  have hpause := (h.rehearsal hdry).2 e he
  rcases h.eq_of_mem he with ⟨answer, rfl⟩ | ⟨answer, rfl⟩ | ⟨seconds, rfl⟩ |
    ⟨version, answer, -, rfl⟩
  · rfl
  · exact hdry
  · exact absurd rfl hpause
  · rfl

/-- In a rehearsal a turn looks at its crate once at most, and it does if it ends well. -/
theorem Turn.looks_of_dry {o : Except Failure CrateState} (h : Turn plan policy name cs o)
    (hdry : plan.dryRun = true) :
    looks cs <+: [name] ∧ ∀ state, o = .ok state → looks cs = [name] := by
  cases h with
  | unknown f => exact ⟨List.nil_prefix, fun state hstate => by cases hstate⟩
  | unchecked version f => exact ⟨List.prefix_rfl, fun _ _ => rfl⟩
  | passedOver version there => exact ⟨List.prefix_rfl, fun _ _ => rfl⟩
  | entrusted absent after =>
    rw [after.eq_nil (.inl hdry)]
    exact ⟨List.prefix_rfl, fun _ _ => rfl⟩

/-- Everything in a record is harmless if its calls are. -/
theorem isHarmless_of_calls (h : ∀ e ∈ calls es, e.question.isHarmless = true) :
    ∀ e ∈ es, e.question.isHarmless = true := by
  intro e he
  by_cases hline : kindOf e = .line
  · obtain ⟨question, answer⟩ := e
    cases question with
    | say line => rfl
    | _ => cases hline
  · exact h e (mem_calls.mpr ⟨he, hline⟩)

/-- In a rehearsal a turn is harmless, it looks at its crate once at most, and it does if it ends
well. -/
theorem harmless_publishCrate (hdry : plan.dryRun = true) {o : Except Failure CrateState}
    (h : (publishCrate plan policy name).Unfolds es o) :
    (∀ e ∈ es, e.question.isHarmless = true) ∧ looks es <+: [name] ∧
      ∀ state, o = .ok state → looks es = [name] := by
  have hturn := turn_of_unfolds h
  have hlooks := hturn.looks_of_dry hdry
  rw [looks_calls] at hlooks
  exact ⟨isHarmless_of_calls fun e he => hturn.isHarmless_of_mem hdry he, hlooks⟩

/-! ## One turn after another -/

/-- In a rehearsal turns are harmless, and they look at the first crates of those whose turns
they are, in their order. -/
theorem harmless_publishEach (hdry : plan.dryRun = true) {names : List String}
    {states : Entries String CrateState} {o : Except Failure Report}
    (h : (publishEach plan policy states names).Unfolds es o) :
    (∀ e ∈ es, e.question.isHarmless = true) ∧ looks es <+: names := by
  induction names generalizing states es with
  | nil =>
    obtain ⟨rfl, -⟩ := unfolds_done_iff.mp h
    exact ⟨List.forall_mem_nil _, List.prefix_rfl⟩
  | cons name rest ih =>
    rcases publishEach_cons_cases h with ⟨state, es₁, es₂, h₁, h₂, rfl⟩ | ⟨f, h, -⟩
    · obtain ⟨hharmless, -, hlooks⟩ := harmless_publishCrate hdry h₁
      obtain ⟨hrest, hlooksRest⟩ := ih h₂
      refine ⟨List.forall_mem_append.mpr ⟨hharmless, hrest⟩, ?_⟩
      rw [looks_append, hlooks state rfl]
      exact (List.prefix_append_right_inj [name]).mpr hlooksRest
    · obtain ⟨hharmless, hlooks, -⟩ := harmless_publishCrate hdry h
      exact ⟨hharmless, hlooks.trans (List.prefix_append [name] rest)⟩

/-- A rehearsal is harmless, and it looks at the first crates of its plan. -/
theorem harmless_publishAll (hdry : plan.dryRun = true) {o : Except Failure Report}
    (h : (publishAll plan policy).Unfolds es o) :
    (∀ e ∈ es, e.question.isHarmless = true) ∧ looks es <+: plan.crates := by
  obtain ⟨rest, rfl, hbooks⟩ := unfolds_publishAll_iff.mp h
  obtain ⟨hharmless, hlooks⟩ := harmless_publishEach hdry hbooks
  exact ⟨List.forall_mem_cons.mpr ⟨rfl, hharmless⟩, hlooks⟩

/-! ## In the world -/

/-- A harmless step is harmless in the world. -/
theorem Step.isHarmless_of_carryOut {step : Step} {answer : step.Answer}
    (h : (step.carryOut workspace client).Unfolds piece (.ok answer))
    (hstep : step.isHarmless = true) : ∀ e ∈ piece, e.question.isHarmless = true := by
  cases step with
  | say line =>
    rw [Step.eq_of_carryOut_say h]
    exact List.forall_mem_singleton.mpr rfl
  | pause seconds => cases hstep
  | localVersion name =>
    obtain ⟨description, rfl, -⟩ := Step.exists_of_carryOut_localVersion h
    exact List.forall_mem_singleton.mpr rfl
  | publishedAt name version =>
    obtain ⟨response, -, rfl | ⟨reason, rfl⟩⟩ := Step.exists_of_carryOut_publishedAt h
    · exact List.forall_mem_singleton.mpr rfl
    · exact List.forall_mem_cons.mpr ⟨rfl, List.forall_mem_singleton.mpr rfl⟩
  | publish name token flags dryRun =>
    obtain rfl : dryRun = true := hstep
    cases Step.handling_of_carryOut h with
    | unknown hlookup => exact List.forall_mem_singleton.mpr rfl
    | shown hlookup => exact List.forall_mem_cons.mpr ⟨rfl, List.forall_mem_singleton.mpr rfl⟩

/-- A step asks the registry once if it is a look, and not at all otherwise. -/
theorem Step.inquiries_of_carryOut {step : Step} {answer : step.Answer}
    (h : (step.carryOut workspace client).Unfolds piece (.ok answer)) :
    inquiries piece = step.looked?.toList.map client.request := by
  cases step with
  | say line =>
    rw [Step.eq_of_carryOut_say h]
    rfl
  | pause seconds =>
    rw [Step.eq_of_carryOut_pause h]
    rfl
  | localVersion name =>
    obtain ⟨description, rfl, -⟩ := Step.exists_of_carryOut_localVersion h
    rfl
  | publishedAt name version =>
    obtain ⟨response, -, rfl | ⟨reason, rfl⟩⟩ := Step.exists_of_carryOut_publishedAt h
    · rfl
    · rfl
  | publish name token flags dryRun =>
    cases Step.handling_of_carryOut h with
    | unknown hlookup => rfl
    | shown hlookup => rfl
    | run hlookup => rfl

/-- What harmless steps take in the world is harmless. -/
theorem isHarmless_of_expansion (h : Expansion (Step.carryOut workspace client) es ws)
    (hes : ∀ e ∈ es, e.question.isHarmless = true) : ∀ e ∈ ws, e.question.isHarmless = true := by
  induction h with
  | nil => exact List.forall_mem_nil _
  | cons first _ ih =>
    obtain ⟨hstep, hrest⟩ := List.forall_mem_cons.mp hes
    exact List.forall_mem_append.mpr ⟨Step.isHarmless_of_carryOut first hstep, ih hrest⟩

/-- The registry is asked about the crates that are looked up. -/
theorem inquiries_of_expansion (h : Expansion (Step.carryOut workspace client) es ws) :
    inquiries ws = (looks es).map client.request := by
  induction h with
  | nil => rfl
  | cons first _ ih =>
    rw [inquiries_append, ih, Step.inquiries_of_carryOut first, ← List.map_append, looks, looks,
      List.filterMap_cons]
    split
    next hnone => rw [hnone]; rfl
    next hsome => rw [hsome]; rfl

/-- **A rehearsal does no harm.**  Whatever it asks of the world leaves the world as it is, and
what it asks the registry about are the first crates of its plan, in their order. -/
theorem harmless_of_carryOut (hdry : plan.dryRun = true) {o : Except Failure Report}
    (h : (carryOut workspace client (publishAll plan policy)).Unfolds ws o) :
    (∀ e ∈ ws, e.question.isHarmless = true) ∧
      inquiries ws <+: plan.crates.map client.request := by
  obtain ⟨es, hes, hexpansion⟩ := exists_expansion_of_carryOut h
  obtain ⟨hharmless, hlooks⟩ := harmless_publishAll hdry hes
  rw [inquiries_of_expansion hexpansion]
  exact ⟨isHarmless_of_expansion hexpansion hharmless, hlooks.map client.request⟩

end Publication

end ReleaseTrain
