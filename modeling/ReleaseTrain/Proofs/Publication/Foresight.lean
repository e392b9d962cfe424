import ReleaseTrain.Proofs.Publication.Outside
import ReleaseTrain.Proofs.Publication.Truth

/-!
# What a rehearsal foresees

A rehearsal publishes nothing and waits for nothing, so it is over long before a release
would be.  Nevertheless it ends in the same way, if it is told the same about every crate,
and if nothing goes wrong with a crate once its publication has been tried.

* `Plan.rehearsal`: the same plan as a rehearsal; `tries`: the crates whose publication was
  tried.
* `foreseen`: how a turn ends, to judge by its check; `Turn.eq_foreseen`: so it does, if
  nothing goes wrong later on.
* `Agree`: what a release and its rehearsal are told about one crate.
* `Turn.eq_of_agree`, `ends_eq_of_agree`, `outcome_eq_of_agree`: the ends of one turn, of all turns,
  and of the whole release.

## Why the two records are not compared call by call

A crate that is published has a long turn in the release, with pauses and looks, and a short
one in the rehearsal.  What the two have in common is what comes first in a turn, and by then
it is settled how both will end.
-/

namespace ReleaseTrain

/-- The same plan as a rehearsal. -/
def Plan.rehearsal (plan : Plan) : Plan := { plan with dryRun := true }

namespace Publication

open Dialogue

variable {σ τ : Type} {plan : Plan} {policy : Policy} {partner : Partner steps σ}
  {partner' : Partner steps τ} {name version : String} {es es' cs cs' : List (Exchange steps)}
  {o o' : Except Failure CrateState}

/-! ## The crates whose publication was tried -/

/-- The crate that a step publishes. -/
def Step.published? : Step → Option String
  | .publish name _ _ _ => some name
  | _ => none

/-- The crates whose publication was tried, in order. -/
def tries (es : List (Exchange steps)) : List String :=
  es.filterMap fun e => e.question.published?

@[simp] theorem tries_nil : tries [] = [] := rfl

@[simp] theorem tries_append : tries (es ++ es') = tries es ++ tries es' :=
  List.filterMap_append ..

@[simp] theorem tries_cons_say (line : String) (answer : Unit) :
    tries (⟨.say line, answer⟩ :: es) = tries es := rfl

@[simp] theorem tries_cons_told (answer : Except Failure String) :
    tries (told name answer :: es) = tries es := rfl

@[simp] theorem tries_cons_looked (answer : Except Failure Value) :
    tries (looked name version answer :: es) = tries es := rfl

@[simp] theorem tries_cons_tried (answer : Except Failure Unit) :
    tries (tried plan name answer :: es) = name :: tries es := rfl

theorem tries_cons_of_ne {e : Exchange steps} (h : kindOf e ≠ .publication) :
    tries (e :: es) = tries es := by
  obtain ⟨question, answer⟩ := e
  cases question with
  | publish name token flags dryRun => exact absurd rfl h
  | _ => rfl

theorem tries_calls : tries (calls es) = tries es := filterMap_calls (fun _ => rfl) es

/-- Nothing is published behind the publication of a turn. -/
theorem Aftermath.tries_eq_nil {answer : Except Failure Unit}
    (h : Aftermath plan policy name version answer cs o) : tries cs = [] := by
  rw [tries, List.filterMap_eq_nil_iff]
  intro e he
  rcases h.eq_of_mem he with ⟨seconds, rfl⟩ | ⟨answer, rfl⟩
  · rfl
  · rfl

/-! ## One turn -/

/-- How the turn of a crate ends, to judge by the first look at it, and what it publishes. -/
def foreseen (name : String) : Except Failure Value → Except Failure CrateState × List String
  | .error f => (.error f, [])
  | .ok date =>
    if date.isTruthy then (.ok .alreadyPublished, []) else (.ok .published, [name])

/-- A turn ends in the way that can be foreseen from its version and its first look, if it
ends well once the publication has been tried. -/
theorem Turn.eq_foreseen (h : Turn plan policy name cs o)
    (hafter : ∀ version answer, told name (.ok version) ∈ callsAbout name cs →
      tried plan name answer ∈ callsAbout name cs → o = .ok .published) :
    (∃ f, told name (.error f) ∈ callsAbout name cs ∧ (o, tries cs) = (.error f, [])) ∨
      ∃ version answer, told name (.ok version) ∈ callsAbout name cs ∧
        FirstLook name version answer (callsAbout name cs) ∧
        (o, tries cs) = foreseen name answer := by
  cases h with
  | unknown f => exact .inl ⟨f, by simp, rfl⟩
  | unchecked version f => exact .inr ⟨version, .error f, by simp, by simp [FirstLook], rfl⟩
  | @passedOver version date there =>
    exact .inr ⟨version, .ok date, by simp, by simp [FirstLook], by simp [foreseen, there]⟩
  | @entrusted version date absent answer cs o after =>
    obtain rfl : o = .ok .published := hafter version answer (by simp) (by simp)
    refine .inr ⟨version, .ok date, by simp, by simp [FirstLook], ?_⟩
    simp [foreseen, absent, after.tries_eq_nil]

theorem Aftermath.eq_published_of_dry (dry : plan.dryRun = true)
    (h : Aftermath plan policy name version (.ok ()) cs o) : o = .ok .published := by
  cases h with
  | rehearsed => rfl
  | lost real wait => exact absurd dry (by simp [real])
  | visible real wait => rfl

/-- If a look behind a publication found the crate, and the pause after it can be told, the
turn ends well. -/
theorem Aftermath.eq_published_of_seen (hbrief : policy.settling.brief? ≠ none) {other : String}
    {date : Value} (hlooked : looked name other (.ok date) ∈ cs) (there : date.isTruthy = true)
    (h : Aftermath plan policy name version (.ok ()) cs o) : o = .ok .published := by
  cases h with
  | rehearsed => rfl
  | visible real wait => rfl
  | lost real wait =>
    cases wait with
    | untold search long => exact absurd long hbrief
    | lost search =>
      rw [search.isTruthy_eq_false hlooked] at there
      cases there

/-! ## Two turns -/

/-- What a release and its rehearsal are told about a crate: the same version, and the same
at the first look.  The publication of a crate with a version ends well in both, and in the
release a look behind it finds the crate. -/
structure Agree (plan : Plan) (name : String) (cs cs' : List (Exchange steps)) : Prop where
  version : ∀ answer answer', told name answer ∈ cs → told name answer' ∈ cs' → answer' = answer
  check : ∀ version answer answer', FirstLook name version answer cs →
    FirstLook name version answer' cs' → answer' = answer
  accepted : ∀ version answer, told name (.ok version) ∈ cs →
    tried plan name answer ∈ cs → answer = .ok ()
  rehearsed : ∀ version answer, told name (.ok version) ∈ cs' →
    tried plan.rehearsal name answer ∈ cs' → answer = .ok ()
  seen : tried plan name (.ok ()) ∈ cs → ∃ version date,
    [tried plan name (.ok ()), looked name version (.ok date)].Sublist cs ∧ date.isTruthy = true

/-- The turn of a crate in a rehearsal ends well once the publication has been tried. -/
theorem Agree.published_of_rehearsal (hagree : Agree plan name cs (callsAbout name cs'))
    (h : Turn plan.rehearsal policy name cs' o') {answer : Except Failure Unit}
    (htold : told name (.ok version) ∈ callsAbout name cs')
    (htried : tried plan.rehearsal name answer ∈ callsAbout name cs') : o' = .ok .published := by
  obtain rfl := hagree.rehearsed _ _ htold htried
  cases h with
  | unknown f => simp at htried
  | unchecked version f => simp at htried
  | passedOver version there => simp at htried
  | @entrusted _ _ absent answer' cs' o' after =>
    obtain rfl := hagree.rehearsed _ answer' htold (by simp)
    exact after.eq_published_of_dry rfl

/-- So it does in the release. -/
theorem Agree.published_of_release (hbrief : policy.settling.brief? ≠ none)
    (hagree : Agree plan name (callsAbout name cs) cs') (h : Turn plan policy name cs o)
    {answer : Except Failure Unit} (htold : told name (.ok version) ∈ callsAbout name cs)
    (htried : tried plan name answer ∈ callsAbout name cs) : o = .ok .published := by
  obtain rfl := hagree.accepted _ _ htold htried
  obtain ⟨version', date', hsub, there⟩ := hagree.seen htried
  have hlooked := hsub.subset (List.mem_cons_of_mem _ (List.mem_cons_self ..))
  cases h with
  | unknown f => simp at htried
  | unchecked version f => simp at htried
  | passedOver version there => simp at htried
  | @entrusted version date absent answer cs o after =>
    obtain rfl := hagree.accepted version answer (by simp) (by simp)
    have hbehind : looked name version' (.ok date') ∈ cs := by
      rw [mem_callsAbout, List.mem_cons, List.mem_cons, List.mem_cons] at hlooked
      rcases hlooked.1 with heq | heq | heq | hmem
      · cases heq
      · -- the look before the publication found nothing
        cases heq
        rw [absent] at there
        cases there
      · cases heq
      · exact hmem
    exact after.eq_published_of_seen hbrief hbehind there

/-- The turns of a crate in a release and in its rehearsal end in the same way, and they try
the same. -/
theorem Turn.eq_of_agree (hbrief : policy.settling.brief? ≠ none)
    (hagree : Agree plan name (callsAbout name es) (callsAbout name es'))
    (h : Turn plan policy name (calls es) o)
    (h' : Turn plan.rehearsal policy name (calls es') o') : o' = o ∧ tries es' = tries es := by
  rw [← @callsAbout_calls name es, ← @callsAbout_calls name es'] at hagree
  rw [← @tries_calls es, ← @tries_calls es', ← Prod.mk.injEq]
  have hrelease := h.eq_foreseen fun _ _ => hagree.published_of_release hbrief h
  have hrehearsal := h'.eq_foreseen fun _ _ => hagree.published_of_rehearsal h'
  rcases hrelease with ⟨f, htold, hend⟩ | ⟨version, answer, htold, hlook, hend⟩
  · rcases hrehearsal with ⟨f', htold', hend'⟩ | ⟨version', answer', htold', hlook', hend'⟩
    · cases hagree.version _ _ htold htold'
      rw [hend, hend']
    · cases hagree.version _ _ htold htold'
  · rcases hrehearsal with ⟨f', htold', hend'⟩ | ⟨version', answer', htold', hlook', hend'⟩
    · cases hagree.version _ _ htold htold'
    · cases hagree.version _ _ htold htold'
      obtain rfl := hagree.check _ _ _ hlook hlook'
      rw [hend, hend']

/-! ## All turns -/

/-- The record of some turns. -/
abbrev recordOf (turns : List (Course steps σ CrateState)) : List (Exchange steps) :=
  turns.flatMap (·.exchanges)

theorem recordOf_cons (turn : Course steps σ CrateState)
    (turns : List (Course steps σ CrateState)) :
    recordOf (turn :: turns) = turn.exchanges ++ recordOf turns := List.flatMap_cons ..

/-- Turn by turn, a release and its rehearsal end in the same way and try the same. -/
theorem ends_eq_of_agree (hbrief : policy.settling.brief? ≠ none) {names : List String}
    (hnodup : names.Nodup) {s : σ} {s' : τ}
    (hagree : ∀ name ∈ names,
      Agree plan name (callsAbout name (recordOf (turns plan policy partner names s)))
        (callsAbout name (recordOf (turns plan.rehearsal policy partner' names s')))) :
    ends names (turns plan.rehearsal policy partner' names s') =
        ends names (turns plan policy partner names s) ∧
      tries (recordOf (turns plan.rehearsal policy partner' names s')) =
        tries (recordOf (turns plan policy partner names s)) := by
  induction names generalizing s s' with
  | nil => exact ⟨rfl, rfl⟩
  | cons name rest ih =>
    rw [List.nodup_cons] at hnodup
    have hturn := turn_of_unfolds (unfolds_play partner (publishCrate plan policy name) s)
    have hturn' :=
      turn_of_unfolds (unfolds_play partner' (publishCrate plan.rehearsal policy name) s')
    have hfirst := hagree name (List.mem_cons_self ..)
    rw [callsAbout_turns_cons_self hnodup.1, callsAbout_turns_cons_self hnodup.1] at hfirst
    have hend := hturn.eq_of_agree hbrief hfirst hturn'
    cases houtcome : ((publishCrate plan policy name).play partner s).outcome with
    | error f =>
      have houtcome' := hend.1.trans houtcome
      rw [turns_cons_of_error houtcome, turns_cons_of_error houtcome', ends, ends, List.map_cons,
        List.map_cons, hend.1]
      exact ⟨rfl, by simpa using hend.2⟩
    | ok state =>
      have houtcome' := hend.1.trans houtcome
      obtain ⟨hends, htries⟩ := ih hnodup.2 fun other hother => by
        have hne : other ≠ name := fun heq => hnodup.1 (heq ▸ hother)
        have hother := hagree other (List.mem_cons_of_mem _ hother)
        rwa [callsAbout_turns_cons_of_ne hne houtcome,
          callsAbout_turns_cons_of_ne hne houtcome'] at hother
      rw [ends, ends] at hends
      rw [turns_cons_of_ok houtcome, turns_cons_of_ok houtcome']
      refine ⟨?_, ?_⟩
      · rw [ends, ends, List.map_cons, List.map_cons, List.zip_cons_cons, List.zip_cons_cons,
          hends, hend.1]
      · rw [recordOf_cons, recordOf_cons, tries_append, tries_append, htries, hend.2]

/-- A publication in a release is as the plan wants it. -/
theorem exists_eq_tried {es : List (Exchange steps)} {r : Except Failure Report}
    (h : (publishAll plan policy).Unfolds es r) {e : Exchange steps} (he : e ∈ es)
    (hkind : kindOf e = .publication) : ∃ name answer, e = tried plan name answer := by
  have hplay := exists_play_of_unfolds anyAnswer h
  have hes : es = ⟨.say (openingLine plan), ()⟩ ::
      recordOf (turnsOf plan policy (reader anyAnswer) es) := by
    rw [← exchanges_publishAll, hplay]
  rw [hes] at he
  rcases List.mem_cons.mp he with rfl | he
  · cases hkind
  obtain ⟨turn, hturn, he⟩ := List.mem_flatMap.mp he
  obtain ⟨k, hk, rfl⟩ := List.getElem_of_mem hturn
  obtain ⟨name, -, hturn⟩ := turn_of_getElem?_turns (List.getElem?_eq_getElem hk)
  exact ⟨name, hturn.eq_tried_of_mem (mem_calls.mpr ⟨he, by simp [hkind]⟩) hkind⟩

/-- A release and its rehearsal end in the same way and try the same, if they agree about
every crate. -/
theorem outcome_eq_of_agree (hbrief : policy.settling.brief? ≠ none) (hnodup : plan.crates.Nodup)
    {s : σ} {s' : τ}
    (hagree : ∀ name ∈ plan.crates,
      Agree plan name (callsAbout name ((publishAll plan policy).play partner s).exchanges)
        (callsAbout name ((publishAll plan.rehearsal policy).play partner' s').exchanges)) :
    ((publishAll plan.rehearsal policy).play partner' s').outcome =
        ((publishAll plan policy).play partner s).outcome ∧
      tries ((publishAll plan.rehearsal policy).play partner' s').exchanges =
        tries ((publishAll plan policy).play partner s).exchanges := by
  simp only [exchanges_publishAll, callsAbout_cons_say] at hagree
  obtain ⟨hends, htries⟩ := ends_eq_of_agree hbrief hnodup hagree
  rw [outcome_publishAll, outcome_publishAll, exchanges_publishAll, exchanges_publishAll,
    tries_cons_say, tries_cons_say]
  exact ⟨congrArg _ hends, htries⟩

/-- So it is whoever answers. -/
theorem eq_of_agree (hbrief : policy.settling.brief? ≠ none) (hnodup : plan.crates.Nodup)
    {r r' : Except Failure Report} (h : (publishAll plan policy).Unfolds es r)
    (h' : (publishAll plan.rehearsal policy).Unfolds es' r')
    (hagree : ∀ name ∈ plan.crates, Agree plan name (callsAbout name es) (callsAbout name es')) :
    r' = r ∧ tries es' = tries es := by
  have hplay := exists_play_of_unfolds anyAnswer h
  have hplay' := exists_play_of_unfolds anyAnswer h'
  have hall := @outcome_eq_of_agree _ _ plan policy (reader anyAnswer) (reader anyAnswer) hbrief
    hnodup es es'
  rw [hplay, hplay'] at hall
  exact hall hagree

end Publication

end ReleaseTrain
