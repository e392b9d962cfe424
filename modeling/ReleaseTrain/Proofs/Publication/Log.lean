import ReleaseTrain.Proofs.Cargo.Publishing
import ReleaseTrain.Proofs.Dialogue.Spelling
import ReleaseTrain.Proofs.Publication.Calls
import ReleaseTrain.Proofs.Publication.Outside

/-!
# The log of a publication

What a publication leaves in the world is a single record of exchanges.  Its log says besides
which step each of them belongs to.

* `Log`: the steps of a publication, each with what it took in the world; `logOf`: the log of
  a publication that is carried out.
* `exchanges_carryOut`, `unfolds_asked_logOf`, `spells_logOf`: what happened in the world is
  what stands in the log, and its steps are those of the publication.
* `Step.exists_of_carryOut_localVersion`, `Step.exists_of_carryOut_publishedAt`,
  `Step.handling_of_carryOut`: what a step takes in the world, and how it is answered.
* `firstAnswer?`: the first answer of a registry about a crate;
  `exists_firstAnswer?_of_firstLook`: it decides the first look at the crate.

## Why the steps are kept

A line on the console is shown by whichever step shows it, and the name of a crate may look
like the beginning of any line.  The log says which lines come from a publication.
-/

namespace ReleaseTrain.Publication

open Dialogue

variable {α σ : Type} {workspace : Workspace} {client : Registry.Client} {name version : String}
  {piece : List (Exchange world)}

/-! ## Logs -/

/-- The steps of a publication, each with what it took in the world. -/
abbrev Log := List (Exchange steps × List (Exchange world))

namespace Log

/-- The steps of a log. -/
def asked (log : Log) : List (Exchange steps) := log.map (·.1)

/-- What the steps of a log took in the world. -/
def happened (log : Log) : List (Exchange world) := log.flatMap (·.2)

end Log

/-- The log of a dialogue about a publication that is carried out in the world. -/
def logOf (workspace : Workspace) (client : Registry.Client) (d : Dialogue steps α)
    (partner : Partner world σ) (s : σ) : Log :=
  d.spelled (Step.carryOut workspace client) partner s

section LogOf

variable (workspace : Workspace) (client : Registry.Client) (partner : Partner world σ)
  (d : Dialogue steps α) (s : σ)

/-- What happens in the world is what stands in the log. -/
theorem exchanges_carryOut :
    ((carryOut workspace client d).play partner s).exchanges =
      (logOf workspace client d partner s).happened :=
  (unfolds_spelled Step.not_unfolds_carryOut_error partner d s).2

theorem unfolds_asked_logOf :
    d.Unfolds (logOf workspace client d partner s).asked
      ((carryOut workspace client d).play partner s).outcome :=
  (unfolds_spelled Step.not_unfolds_carryOut_error partner d s).1

theorem spells_logOf :
    Spells (Step.carryOut workspace client) (logOf workspace client d partner s) :=
  spells_spelled partner d s

end LogOf

variable {log : Log}

@[simp] theorem Log.asked_cons (entry : Exchange steps × List (Exchange world)) :
    Log.asked (entry :: log) = entry.1 :: log.asked := rfl

@[simp] theorem Log.happened_cons (entry : Exchange steps × List (Exchange world)) :
    Log.happened (entry :: log) = entry.2 ++ log.happened := rfl

theorem exists_mem_of_mem_asked {e : Exchange steps} (h : e ∈ log.asked) :
    ∃ piece, (e, piece) ∈ log := by
  obtain ⟨entry, hentry, rfl⟩ := List.mem_map.mp h
  exact ⟨entry.2, hentry⟩

theorem mem_happened {entry : Exchange steps × List (Exchange world)} {e : Exchange world}
    (hentry : entry ∈ log) (he : e ∈ entry.2) : e ∈ log.happened :=
  List.mem_flatMap.mpr ⟨entry, hentry, he⟩

/-! ## What a step takes in the world -/

theorem Step.eq_of_carryOut_say {line : String}
    (h : (Step.carryOut workspace client (.say line)).Unfolds piece (.ok ())) :
    piece = [⟨.say line, ()⟩] := by
  rw [Step.carryOut, World.say, unfolds_ask_iff] at h
  obtain ⟨⟨⟩, rest, rfl, h⟩ := h
  obtain ⟨rfl, -⟩ := unfolds_done_iff.mp h
  rfl

theorem Step.eq_of_carryOut_pause {seconds : Number}
    (h : (Step.carryOut workspace client (.pause seconds)).Unfolds piece (.ok ())) :
    piece = [⟨.pause seconds, ()⟩] := by
  rw [Step.carryOut, World.pause, unfolds_ask_iff] at h
  obtain ⟨⟨⟩, rest, rfl, h⟩ := h
  obtain ⟨rfl, -⟩ := unfolds_done_iff.mp h
  rfl

theorem Step.exists_of_carryOut_localVersion {answer : Except Failure String}
    (h : (Step.carryOut workspace client (.localVersion name)).Unfolds piece (.ok answer)) :
    ∃ description, piece = [workspace.described description] ∧
      answer = (workspace.lookup name description).map (·.version) := by
  obtain ⟨o, ho, h⟩ := unfolds_attempt_iff.mp h
  obtain rfl := Except.ok.inj ho
  exact Workspace.unfolds_version_iff.mp h

theorem Step.exists_of_carryOut_publishedAt {answer : Except Failure Value}
    (h : (Step.carryOut workspace client (.publishedAt name version)).Unfolds piece
      (.ok answer)) :
    ∃ response, answer = Registry.judged client name version response ∧
      (piece = [Registry.fetched client name response] ∨ ∃ reason,
        piece = [Registry.fetched client name response, Registry.warned client name reason]) := by
  obtain ⟨o, ho, h⟩ := unfolds_attempt_iff.mp h
  obtain rfl := Except.ok.inj ho
  exact (Registry.inquiry_of_unfolds h).exists_judged

theorem Step.handling_of_carryOut {token : Option String} {flags : List String} {dryRun : Bool}
    {answer : Except Failure Unit}
    (h : (Step.carryOut workspace client (.publish name token flags dryRun)).Unfolds piece
      (.ok answer)) :
    Workspace.Handling workspace name token flags dryRun piece answer := by
  obtain ⟨o, ho, h⟩ := unfolds_attempt_iff.mp h
  obtain rfl := Except.ok.inj ho
  exact Workspace.handling_of_unfolds h

/-! ## Answers of the registry -/

/-- The answer of a registry about a crate, if that is what was exchanged. -/
def answerAbout? (client : Registry.Client) (name : String) :
    Exchange world → Option (Except Failure Response)
  | ⟨.get address _ _, answer⟩ => if address = client.addressOf name then some answer else none
  | _ => none

/-- The first answer of a registry about a crate. -/
def firstAnswer? (client : Registry.Client) (name : String) (ws : List (Exchange world)) :
    Option (Except Failure Response) :=
  ws.findSome? (answerAbout? client name)

theorem answerAbout?_fetched (response : Except Failure Response) :
    answerAbout? client name (Registry.fetched client name response) = some response :=
  if_pos rfl

theorem answerAbout?_fetched_of_ne {other : String} (hne : other ≠ name)
    (response : Except Failure Response) :
    answerAbout? client name (Registry.fetched client other response) = none := by
  refine if_neg fun heq => hne ?_
  exact (String.append_right_inj _).mp heq

/-- Only a look at a crate asks the registry about it. -/
theorem Step.firstAnswer?_eq_none {step : Step} {answer : step.Answer}
    (h : (step.carryOut workspace client).Unfolds piece (.ok answer))
    (hother : ∀ version, step ≠ .publishedAt name version) :
    firstAnswer? client name piece = none := by
  cases step with
  | say line =>
    rw [Step.eq_of_carryOut_say h]
    rfl
  | pause seconds =>
    rw [Step.eq_of_carryOut_pause h]
    rfl
  | localVersion name' =>
    obtain ⟨description, rfl, -⟩ := Step.exists_of_carryOut_localVersion h
    rfl
  | publishedAt name' version =>
    have hne : name' ≠ name := fun heq => hother version (heq ▸ rfl)
    obtain ⟨response, -, rfl | ⟨reason, rfl⟩⟩ := Step.exists_of_carryOut_publishedAt h
    · rw [firstAnswer?, List.findSome?_cons, answerAbout?_fetched_of_ne hne]
      rfl
    · rw [firstAnswer?, List.findSome?_cons, answerAbout?_fetched_of_ne hne]
      rfl
  | publish name' token flags dryRun =>
    cases Step.handling_of_carryOut h with
    | unknown h => rfl
    | shown h => rfl
    | run h => rfl

/-- The first look at a crate is what is made of the first answer of the registry about it. -/
theorem exists_firstAnswer?_of_firstLook (hspells : Spells (Step.carryOut workspace client) log)
    {answer : Except Failure Value}
    (hlook : FirstLook name version answer (callsAbout name log.asked)) :
    ∃ response, firstAnswer? client name log.happened = some response ∧
      answer = Registry.judged client name version response := by
  rw [FirstLook, callsAbout, List.find?_filter] at hlook
  induction log with
  | nil => cases hlook
  | cons entry rest ih =>
    obtain ⟨hentry, hrest⟩ := hspells.of_cons
    obtain ⟨⟨question, told⟩, piece⟩ := entry
    rw [Log.happened_cons, firstAnswer?, List.findSome?_append]
    by_cases hlooks : ∃ version', question = .publishedAt name version'
    · obtain ⟨version', rfl⟩ := hlooks
      rw [Log.asked_cons,
        List.find?_cons_of_pos (by simp [Step.crate?, kindOf, Step.kind])] at hlook
      cases hlook
      obtain ⟨response, hanswer, rfl | ⟨reason, rfl⟩⟩ := Step.exists_of_carryOut_publishedAt hentry
      · rw [List.findSome?_cons, answerAbout?_fetched]
        exact ⟨response, rfl, hanswer⟩
      · rw [List.findSome?_cons, answerAbout?_fetched]
        exact ⟨response, rfl, hanswer⟩
    · have hother : ∀ version, question ≠ .publishedAt name version :=
        fun version heq => hlooks ⟨version, heq⟩
      have hpiece : piece.findSome? (answerAbout? client name) = none :=
        Step.firstAnswer?_eq_none hentry hother
      rw [hpiece, Option.none_or]
      refine ih hrest ?_
      rw [Log.asked_cons, List.find?_cons_of_neg] at hlook
      · exact hlook
      · cases question with
        | publishedAt name' version' =>
          have hne : name' ≠ name := fun heq => hother version' (heq ▸ rfl)
          simp [Step.crate?, hne]
        | _ => simp [kindOf, Step.kind]

end ReleaseTrain.Publication
