import ReleaseTrain.Proofs.Publication.CarriedOut
import ReleaseTrain.Proofs.Publication.Harmless
import ReleaseTrain.Proofs.Registry.Reading

/-!
# On what grounds a crate is taken as published

A crate is passed over, and the wait for it comes to its end, because of one answer of the
registry.

* `judged_of_isRefused`: a refusal gives no date; `judged_with_status`: whatever is no refusal is
  read like a success.
* `Grounds`: the last answer of the registry confirms a version.
* `grounds_of_expansion`: behind a look that found a date, and that no other look follows, there are
  grounds.
* `refusals_are_no_grounds`: what an answer is worth by its status, and that only what is worth
  a date lets a crate be passed over or ends the wait for it.

## Which statuses count

The status of an answer says whether the registry has turned the request down, and that is all that
is asked of it.  An answer that is neither a refusal nor a success, such as the offer of a choice of
places, is looked through like a success.  So there are grounds in it if its body has a date.
-/

namespace ReleaseTrain

namespace Registry

variable {client : Client} {name version : String} {response : Response}

/-- A registry that turns a request down gives no date, whatever it says in the body. -/
theorem judged_of_isRefused (h : response.IsRefused) :
    judged client name version (.ok response) = .ok .null := by
  refine judged_eq_null (fun f hupset => ?_) fun response' date hanswer hconfirms => ?_
  · cases hupset with
    | tooDeep heard => exact heard h
    | unlisted heard => exact heard h
  · cases hanswer
    exact hconfirms.2.1 h

/-- Among the responses that are no refusals the status makes no difference. -/
theorem judged_with_status (heard : ¬response.IsRefused) :
    judged client name version (.ok response) =
      judged client name version (.ok { response with status := 200 }) := by
  have hsuccess : ¬Response.IsRefused { response with status := 200 } :=
    fun h => absurd h.1 (by decide : ¬(400 : Int) ≤ 200)
  have hread : read (client.addressOf name) version response =
      read (client.addressOf name) version { response with status := 200 } := by
    cases hparse : Json.parse response.body with
    | ok data => rw [read_of_ok heard hparse, read_of_ok hsuccess hparse]
    | error error => rw [read_of_error heard hparse, read_of_error hsuccess hparse]
  simp only [judged, hread]

end Registry

namespace Publication

open Dialogue Registry

variable {σ : Type} {workspace : Workspace} {client : Registry.Client} {plan : Plan}
  {policy : Policy} {name version : String} {date : Value} {es front back : List (Exchange steps)}
  {ws : List (Exchange world)}

/-- The last answer of the registry in a record confirms the version of the crate with this date. -/
def Grounds (client : Registry.Client) (name version : String) (date : Value)
    (ws : List (Exchange world)) : Prop :=
  ∃ before response after, ws = before ++ fetched client name (.ok response) :: after ∧
    inquiries after = [] ∧ response.Confirms version date

theorem grounds_of_expansion (h : Expansion (Step.carryOut workspace client) es ws)
    (hcalls : calls es = front ++ looked name version (.ok date) :: back)
    (there : date.isTruthy = true) (hback : looks back = []) :
    Grounds client name version date ws := by
  -- `calls` has left out the lines, so the record is split at the look with its lines around it
  obtain ⟨es₁, rest, rfl, -, hrest⟩ := List.filter_eq_append_iff.mp hcalls
  obtain ⟨es₂, es₃, rfl, -, -, hback'⟩ := List.filter_eq_cons_iff.mp hrest
  obtain ⟨ws₁, ws₂, -, h₂, rfl⟩ := h.exists_append
  obtain ⟨ws₃, ws₄, -, h₄, rfl⟩ := h₂.exists_append
  cases h₄ with
  | @cons _ _ _ _ after first hafter =>
    obtain ⟨response, rfl, hconfirms⟩ := Step.exists_confirms_of_carryOut first there
    refine ⟨ws₁ ++ ws₃, response, after, by simp, ?_, hconfirms⟩
    have hlooks : looks es₃ = [] := by
      rw [← looks_calls, calls, hback', hback]
    rw [inquiries_of_expansion hafter, hlooks]
    rfl

/-- A crate that is passed over is passed over on grounds. -/
theorem exists_grounds_of_publishCrate
    (h : (carryOut workspace client (publishCrate plan policy name)).Unfolds ws
      (.ok .alreadyPublished)) :
    ∃ version date, Grounds client name version date ws := by
  obtain ⟨es, hes, hexpansion⟩ := exists_expansion_of_carryOut h
  have hturn := turn_of_unfolds hes
  generalize hcalls : calls es = cs at hturn
  cases hturn with
  | @passedOver version date there =>
    have hlast : calls es = [told name (.ok version)] ++ [looked name version (.ok date)] := hcalls
    exact ⟨version, date, grounds_of_expansion hexpansion hlast there rfl⟩
  | entrusted absent after => cases after

/-- A wait that comes to its end does so on grounds. -/
theorem grounds_of_waitUntilVisible
    (h : (carryOut workspace client (waitUntilVisible policy name version)).Unfolds ws
      (.ok date)) :
    Grounds client name version date ws := by
  obtain ⟨es, hes, hexpansion⟩ := exists_expansion_of_carryOut h
  obtain ⟨there, front, hcalls⟩ := (wait_of_unfolds hes).exists_eq_append
  exact grounds_of_expansion hexpansion hcalls there rfl

/-- **Refusals are no grounds.**  A response by which a registry turns a request down gives no date,
and any other response gives what it would give as a success.  A crate is passed over, and the wait
for it comes to its end, only if the last answer of the registry is no refusal and confirms a
version of it. -/
theorem refusals_are_no_grounds (workspace : Workspace) (client : Registry.Client) (plan : Plan)
    (policy : Policy) (name version : String) (partner : Partner world σ) (s : σ) :
    let answer := (partner (client.request name) s).1
    let inquiry := (client.publishedAt name version).play partner s
    let turn := (carryOut workspace client (publishCrate plan policy name)).play partner s
    let wait := (carryOut workspace client (waitUntilVisible policy name version)).play partner s
    (∀ response, answer = .ok response →
      (response.IsRefused → inquiry.outcome = .ok .null) ∧
      (¬response.IsRefused → inquiry.outcome = ((client.publishedAt name version).play
        (answering (.ok { response with status := 200 })) ()).outcome)) ∧
      (turn.outcome = .ok .alreadyPublished →
        ∃ version date, Grounds client name version date turn.exchanges) ∧
      (∀ date, wait.outcome = .ok date →
        Grounds client name version date wait.exchanges) := by
  intro answer inquiry turn wait
  have hinquiry : inquiry.outcome = judged client name version answer :=
    (play_publishedAt client name version partner s).2
  refine ⟨fun response hanswer => ⟨fun hrefused => ?_, fun heard => ?_⟩, fun hturn => ?_,
    fun date hwait => ?_⟩
  · rw [hinquiry, hanswer, judged_of_isRefused hrefused]
  · rw [hinquiry, hanswer, judged_with_status heard, outcome_answering]
  · have h := unfolds_play partner (carryOut workspace client (publishCrate plan policy name)) s
    exact exists_grounds_of_publishCrate (hturn ▸ h)
  · have h := unfolds_play partner
      (carryOut workspace client (waitUntilVisible policy name version)) s
    exact grounds_of_waitUntilVisible (hwait ▸ h)

/-- In `appWorld`, once the registry has the crate, its turn passes it over on grounds. -/
theorem refusals_are_no_grounds_for_app :
    let turn := (carryOut appWorkspace standardClient
      (publishCrate ⟨["app"], none, [], false⟩ .standard "app")).play appWorld true
    turn.outcome = .ok .alreadyPublished ∧
      ∃ version date, Grounds standardClient "app" version date turn.exchanges := by
  obtain ⟨-, hturn, -⟩ := refusals_are_no_grounds appWorkspace standardClient
    ⟨["app"], none, [], false⟩ .standard "app" "1.0" appWorld true
  exact ⟨rfl, hturn rfl⟩

/-- A world with one crate, in which the registry offers a choice of places and describes the crate
all the same. -/
def choosyWorld : Partner world Unit
  | .say _, s | .warn _, s | .pause _, s => ((), s)
  | .cargo _ _ _, s => (.ok appDescribed, s)
  | .get _ _ _, s => (.ok ⟨300, "Multiple Choices", appFound.body⟩, s)

/-- The answers of the registry are no successes.  Nevertheless the inquiry ends with a date, and
the crate is passed over. -/
theorem choice_of_places_counts :
    let response : Response := ⟨300, "Multiple Choices", appFound.body⟩
    let turn := (carryOut appWorkspace standardClient
      (publishCrate ⟨["app"], none, [], false⟩ .standard "app")).play choosyWorld ()
    ¬(200 ≤ response.status ∧ response.status < 300) ∧
      (choosyWorld (standardClient.request "app") ()).1 = .ok response ∧
      ((standardClient.publishedAt "app" "1.0").play choosyWorld ()).outcome =
        .ok (.text "2024-05-06") ∧
      turn.outcome = .ok .alreadyPublished :=
  ⟨by decide, rfl, rfl, rfl⟩

end Publication

end ReleaseTrain
