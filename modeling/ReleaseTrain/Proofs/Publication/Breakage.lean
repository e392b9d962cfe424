import ReleaseTrain.Proofs.Publication.Books
import ReleaseTrain.Proofs.Publication.Places

/-!
# A failure is the end

Publishing cannot be undone, so a release must not go on behind a failure.  There are
two ways to fail: a call is answered with a failure, or a crate does not turn up in
as many looks as the policy allows.

* `failureOf`: the failure with which a call was answered; `isVain`: a look that found
  nothing.
* `Broken`: what a turn has to show for a failure, up to the call that brought it.
* `Turn.eq_nil_of_broken`: nothing is called in a turn behind such a call, and the
  turn ends with the failure.
* `stops_at_failure`: nor is anything called in the release, which ends with a report
  or with the failure itself, as the failure demands.

## Why vain looks are counted

A poll does not say that it has come to its end.  But a turn looks once before the
publication and then at most as often as the policy allows, so one vain look more
than the policy allows is the last one, and with fewer the poll goes on.
-/

namespace ReleaseTrain

/-- What cargo reports and what does not turn up ends a release with a report. -/
theorem Failure.isReported_iff {f : Failure} :
    f.isReported = true ↔ (∃ g, f = .cargo g) ∨ ∃ g, f = .absent g := by
  cases f <;> simp [isReported]

namespace Publication

open Dialogue

variable {σ α : Type} {plan : Plan} {policy : Policy} {name version : String}
  {cs : List (Exchange steps)} {f : Failure}

/-! ## Failures and vain looks -/

/-- The failure with which a call was answered, if it was. -/
def failureOf : Exchange steps → Option Failure
  | ⟨.localVersion _, .error f⟩ => some f
  | ⟨.publishedAt _ _, .error f⟩ => some f
  | ⟨.publish _ _ _ _, .error f⟩ => some f
  | _ => none

/-- Whether an exchange is a look at the registry that found nothing. -/
def isVain : Exchange steps → Bool
  | ⟨.publishedAt _ _, .ok date⟩ => !date.isTruthy
  | _ => false

@[simp] theorem isVain_paused (seconds : Number) : isVain (paused seconds) = false := rfl

@[simp] theorem isVain_told (answer : Except Failure String) :
    isVain (told name answer) = false := rfl

@[simp] theorem isVain_looked_ok (date : Value) :
    isVain (looked name version (.ok date)) = !date.isTruthy := rfl

@[simp] theorem isVain_looked_error : isVain (looked name version (.error f)) = false := rfl

@[simp] theorem isVain_tried (answer : Except Failure Unit) :
    isVain (tried plan name answer) = false := rfl

/-- The exchanges at a place, up to one that brought a failure. -/
inductive Broken (policy : Policy) (es : List (Exchange steps)) : Failure → Prop
  /-- The last call was answered with the failure. -/
  | refused {front : List (Exchange steps)} {e : Exchange steps} {f : Failure}
      (last : es = front ++ [e]) (failure : failureOf e = some f) : Broken policy es f
  /-- The last look was in vain, like all looks that the policy allows and the one
  before the publication. -/
  | exhausted {front : List (Exchange steps)} {name version : String} {date : Value}
      (last : es = front ++ [looked name version (.ok date)]) (vain : date.isTruthy = false)
      (count : es.countP isVain = policy.attempts + 1) :
      Broken policy es (.absent (.neverSeen name version policy.attempts))

/-! ## Nothing fails before the end -/

/-- The failure with which something ended, if it did. -/
def endedBy : Except Failure α → Option Failure
  | .ok _ => none
  | .error f => some f

@[simp] theorem endedBy_ok (a : α) : endedBy (.ok a : Except Failure α) = none := rfl

@[simp] theorem endedBy_error : endedBy (.error f : Except Failure α) = some f := rfl

theorem endedBy_eq_some_iff {o : Except Failure α} : endedBy o = some f ↔ o = .error f := by
  cases o with
  | ok a => simp
  | error g => simp

/-- No call failed, or only the last one, and with its failure all ended. -/
inductive FailsLast : List (Exchange steps) → Option Failure → Prop
  | nil (r : Option Failure) : FailsLast [] r
  | last {e : Exchange steps} {f : Failure} (failure : failureOf e = some f) :
      FailsLast [e] (some f)
  | cons {e : Exchange steps} {cs : List (Exchange steps)} {r : Option Failure}
      (fine : failureOf e = none) (rest : FailsLast cs r) : FailsLast (e :: cs) r

section FailsLast

variable {r : Option Failure}

theorem FailsLast.append {cs' : List (Exchange steps)} (h : FailsLast cs none)
    (h' : FailsLast cs' r) : FailsLast (cs ++ cs') r := by
  generalize hr : (none : Option Failure) = r' at h
  induction h with
  | nil => exact h'
  | last failure => cases hr
  | cons fine _ ih => exact .cons fine (ih hr)

/-- Nothing follows a failure. -/
theorem FailsLast.eq_nil {front rest : List (Exchange steps)} {e : Exchange steps}
    (h : FailsLast cs r) (hcs : cs = front ++ e :: rest) (hf : failureOf e = some f) :
    rest = [] ∧ r = some f := by
  induction h generalizing front with
  | nil => simp at hcs
  | last failure =>
    cases front with
    | nil =>
      cases hcs
      exact ⟨rfl, by rw [← failure, hf]⟩
    | cons e' front => simp at hcs
  | cons fine _ ih =>
    cases front with
    | nil =>
      cases hcs
      rw [fine] at hf
      cases hf
    | cons e' front =>
      injection hcs with _ hcs
      exact ih hcs

theorem Search.failsLast {left : Nat} {o : Except Failure Value}
    (h : Search policy name version left cs o) : FailsLast cs (endedBy o) := by
  induction h with
  | exhausted => exact .nil _
  | seen left there => exact .cons rfl (.cons rfl (.nil _))
  | broken left f => exact .cons rfl (.last rfl)
  | again absent _ ih => exact .cons rfl (.cons rfl ih)

theorem Wait.failsLast {o : Except Failure Value} (h : Wait policy name version cs o) :
    FailsLast cs (endedBy o) := by
  cases h with
  | lost search => exact search.failsLast
  | untold search long => simpa using search.failsLast.append (.nil (some .tooLarge))
  | visible search => exact search.failsLast.append (.cons rfl (.nil _))

theorem Aftermath.failsLast {answer : Except Failure Unit} {o : Except Failure CrateState}
    (h : Aftermath plan policy name version answer cs o) :
    FailsLast (tried plan name answer :: cs) (endedBy o) := by
  cases h with
  | refused f => exact .last rfl
  | rehearsed dry => exact .cons rfl (.nil _)
  | lost real wait => exact .cons rfl wait.failsLast
  | visible real wait => exact .cons rfl wait.failsLast

theorem Turn.failsLast {o : Except Failure CrateState} (h : Turn plan policy name cs o) :
    FailsLast cs (endedBy o) := by
  cases h with
  | unknown f => exact .last rfl
  | unchecked version f => exact .cons rfl (.last rfl)
  | passedOver version there => exact .cons rfl (.cons rfl (.nil _))
  | entrusted absent after => exact .cons rfl (.cons rfl after.failsLast)

end FailsLast

/-! ## Vain looks -/

/-- A search looks in vain at most as often as it may.  If it does so every time, it
ends with that. -/
theorem Search.countP_isVain {left : Nat} {o : Except Failure Value}
    (h : Search policy name version left cs o) :
    cs.countP isVain ≤ left ∧ (cs.countP isVain = left →
      o = .error (.absent (.neverSeen name version policy.attempts)) ∧
        (0 < left → ∃ front date, cs = front ++ [looked name version (.ok date)] ∧
          date.isTruthy = false)) := by
  induction h with
  | exhausted => exact ⟨Nat.le_refl _, fun _ => ⟨rfl, nofun⟩⟩
  | seen left there => simp [there]
  | broken left f => simp
  | @again left date cs o absent rest ih =>
    obtain ⟨hle, hend⟩ := ih
    simp only [List.countP_cons, isVain_paused, isVain_looked_ok, absent]
    refine ⟨by simpa using hle, fun heq => ?_⟩
    obtain ⟨ho, hlast⟩ := hend (by simpa using heq)
    refine ⟨ho, fun _ => ?_⟩
    cases left with
    | zero =>
      cases rest
      exact ⟨[_], date, rfl, absent⟩
    | succ left =>
      obtain ⟨front, date', rfl, hdate'⟩ := hlast (Nat.succ_pos left)
      exact ⟨_ :: _ :: front, date', rfl, hdate'⟩

/-- A search that ends well has not looked in vain every time. -/
theorem Search.countP_isVain_lt {left : Nat} {date : Value}
    (h : Search policy name version left cs (.ok date)) : cs.countP isVain < left := by
  obtain ⟨hle, hend⟩ := h.countP_isVain
  refine Nat.lt_of_le_of_ne hle fun heq => ?_
  cases (hend heq).1

/-- A search that fails was answered with its failure at last, or its last look was in
vain like all the others. -/
theorem Search.broken_of_error {left : Nat} (h : Search policy name version left cs (.error f)) :
    (∃ front, cs = front ++ [looked name version (.error f)]) ∨
      f = .absent (.neverSeen name version policy.attempts) ∧ cs.countP isVain = left := by
  generalize ho : (Except.error f : Except Failure Value) = o at h
  induction h with
  | exhausted =>
    cases ho
    exact .inr ⟨rfl, rfl⟩
  | seen left there => cases ho
  | broken left g =>
    cases ho
    exact .inl ⟨[_], rfl⟩
  | again absent _ ih =>
    rcases ih ho with ⟨front, rfl⟩ | ⟨hf, hcount⟩
    · exact .inl ⟨_ :: _ :: front, rfl⟩
    · exact .inr ⟨hf, by simp [hcount, absent]⟩

/-- A turn looks in vain at most once more than the policy allows.  If it does so, the
last of these looks is its last call. -/
theorem Turn.countP_isVain {o : Except Failure CrateState} (h : Turn plan policy name cs o) :
    cs.countP isVain ≤ policy.attempts + 1 ∧ (cs.countP isVain = policy.attempts + 1 →
      ∃ version front date, cs = front ++ [looked name version (.ok date)] ∧
        date.isTruthy = false ∧
        o = .error (.absent (.neverSeen name version policy.attempts))) := by
  have hpos := policy.attempts_pos
  cases h with
  | unknown f => simp
  | unchecked version f => simp
  | passedOver version there => simp [there]
  | @entrusted version date absent answer cs o after =>
    have hcount : (told name (.ok version) :: looked name version (.ok date) ::
        tried plan name answer :: cs).countP isVain = cs.countP isVain + 1 := by
      simp [absent]
    rw [hcount]
    cases after with
    | refused f => simp; omega
    | rehearsed dry => simp; omega
    | lost real wait =>
      cases wait with
      | lost search =>
        obtain ⟨hle, hend⟩ := search.countP_isVain
        refine ⟨Nat.succ_le_succ hle, fun heq => ?_⟩
        obtain ⟨ho, hlast⟩ := hend (Nat.succ.inj heq)
        obtain ⟨front, date', rfl, hdate'⟩ := hlast hpos
        cases ho
        exact ⟨version, _ :: _ :: _ :: front, date', rfl, hdate', rfl⟩
      | untold search long =>
        have hlt := search.countP_isVain_lt
        exact ⟨by omega, fun heq => by omega⟩
    | visible real wait =>
      cases wait with
      | visible search =>
        have hlt := search.countP_isVain_lt
        rw [List.countP_append]
        simp only [List.countP_singleton, isVain_paused]
        exact ⟨by simp; omega, fun heq => by simp at heq; omega⟩

/-! ## What follows in the turn and in the release -/

/-- Nothing is called in a turn behind the call that brought a failure, and the turn
ends with that failure. -/
theorem Turn.eq_nil_of_broken {o : Except Failure CrateState} {front rest : List (Exchange steps)}
    (h : Turn plan policy name cs o) (hcs : cs = front ++ rest) (hbroken : Broken policy front f) :
    rest = [] ∧ o = .error f := by
  cases hbroken with
  | refused last failure =>
    subst last
    rw [List.append_assoc, List.singleton_append] at hcs
    obtain ⟨hnil, ho⟩ := h.failsLast.eq_nil hcs failure
    exact ⟨hnil, endedBy_eq_some_iff.mp ho⟩
  | @exhausted front' name' version date last vain count =>
    obtain ⟨hle, hend⟩ := h.countP_isVain
    have hsum : cs.countP isVain = policy.attempts + 1 + rest.countP isVain := by
      rw [hcs, List.countP_append, count]
    obtain ⟨version', front'', date', hlast, hdate', ho⟩ := hend (by omega)
    rcases List.eq_nil_or_concat rest with rfl | ⟨rest', e, rfl⟩
    · rw [List.append_nil] at hcs
      rw [hcs, last] at hlast
      cases (List.append_inj_right' hlast rfl)
      exact ⟨rfl, ho⟩
    · -- the vain look at the end would be one too many
      rw [hcs, List.concat_eq_append, ← List.append_assoc] at hlast
      cases (List.append_inj_right' hlast rfl)
      simp [hdate'] at hsum
      omega

/-- A turn that fails is the last one, and the release ends with a report that names
its crate, or with the failure itself. -/
theorem outcome_publishEach_of_error (states : Entries String CrateState) {names : List String}
    {s : σ} {k : Nat} {turn : Course steps σ CrateState} {partner : Partner steps σ}
    (hturn : (turns plan policy partner names s)[k]? = some turn) (hname : names[k]? = some name)
    (hf : turn.outcome = .error f) :
    (turns plan policy partner names s).length = k + 1 ∧
      ∃ states', ((publishEach plan policy states names).play partner s).outcome =
        if f.isReported then .ok ⟨states', some (name ++ ": " ++ f.message), f.exitCode⟩
        else .error f := by
  rw [outcome_publishEach]
  induction names generalizing states s k with
  | nil => cases hname
  | cons first rest ih =>
    cases houtcome : ((publishCrate plan policy first).play partner s).outcome with
    | ok state =>
      rw [turns_cons_of_ok houtcome] at hturn ⊢
      cases k with
      | zero =>
        rw [List.getElem?_cons_zero, Option.some_inj] at hturn
        rw [← hturn, houtcome] at hf
        cases hf
      | succ k =>
        obtain ⟨hlength, states', hend⟩ := ih (states.put first state) hturn hname
        rw [List.length_cons, hlength, ends, List.map_cons, List.zip_cons_cons, houtcome, reckon]
        exact ⟨rfl, states', hend⟩
    | error g =>
      rw [turns_cons_of_error houtcome] at hturn ⊢
      cases k with
      | zero =>
        rw [List.getElem?_cons_zero, Option.some_inj] at hturn hname
        rw [← hturn, houtcome] at hf
        cases hf
        rw [ends, List.map_cons, List.zip_cons_cons, houtcome, reckon, hname]
        exact ⟨rfl, _, rfl⟩
      | succ k => simp at hturn

/-- What brought a failure is seen in the calls alone. -/
theorem Broken.calls {es : List (Exchange steps)} (h : Broken policy es f) :
    Broken policy (calls es) f := by
  cases h with
  | @refused front e f last failure =>
    have hkind : kindOf e ≠ .line := by
      intro hline
      obtain ⟨question, answer⟩ := e
      cases question <;> cases hline
      cases failure
    have hlast : Publication.calls es = Publication.calls front ++ [e] := by
      rw [last, calls_append]
      simp [Publication.calls, hkind]
    exact .refused hlast failure
  | @exhausted front name version date last vain count =>
    have hlast : Publication.calls es =
        Publication.calls front ++ [looked name version (.ok date)] := by
      rw [last, calls_append]
      simp
    refine .exhausted hlast vain ?_
    rw [← count, Publication.calls, List.countP_filter]
    refine List.countP_congr fun e _ => ?_
    obtain ⟨question, answer⟩ := e
    cases question <;> simp [kindOf, Step.kind, isVain]

/-- **A failure is the end.**  A release shows its opening line and then goes through
the places of the plan.  When a call brings a failure, by its answer or as the last
look that the policy allows, nothing is called and no time passes behind it.  If cargo
reported the failure or the crate did not turn up, the release ends with a report that
names the crate at this place and claims no success; any other failure ends it as it
is. -/
theorem stops_at_failure (plan : Plan) (policy : Policy) (partner : Partner steps σ) (s : σ)
    (before after : List (Nat × Exchange steps)) (k : Nat) (e : Exchange steps) (f : Failure)
    (hsplit : placed plan policy partner s = before ++ (k, e) :: after)
    (hbroken : Broken policy (eventsAt k (before ++ [(k, e)])) f) :
    ((publishAll plan policy).play partner s).exchanges =
        ⟨.say (openingLine plan), ()⟩ :: (placed plan policy partner s).map (·.2) ∧
      (∀ x ∈ after, kindOf x.2 = .line) ∧
      ∃ name, plan.crates[k]? = some name ∧
        ((∃ g, f = .cargo g) ∨ (∃ g, f = .absent g) →
          ∃ report, ((publishAll plan policy).play partner s).outcome = .ok report ∧
            report.error = some (name ++ ": " ++ f.message) ∧ report.exitCode ≠ 0) ∧
        (¬((∃ g, f = .cargo g) ∨ ∃ g, f = .absent g) →
          ((publishAll plan policy).play partner s).outcome = .error f) := by
  have hmem : (k, e) ∈ placed plan policy partner s := by simp [hsplit]
  obtain ⟨turn, hturn, -⟩ := exists_turn_of_mem_placed hmem
  obtain ⟨name, hname, h⟩ := turn_of_getElem?_turns hturn
  -- the turn at this place is what happened there up to the failure, and the rest
  have hexchanges : turn.exchanges =
      eventsAt k (before ++ [(k, e)]) ++ eventsAt k after := by
    rw [← eventsAt_placed hturn, hsplit]
    simp [eventsAt]
  have hcalls := congrArg calls hexchanges
  rw [calls_append] at hcalls
  obtain ⟨hrest, hend⟩ := h.eq_nil_of_broken hcalls hbroken.calls
  obtain ⟨hlength, states, houtcome⟩ :=
    outcome_publishEach_of_error (pendingStates plan.crates) hturn hname hend
  refine ⟨by rw [exchanges_publishAll, map_snd_placed], fun x hx => ?_, name, hname, ?_, ?_⟩
  · -- no place comes behind the last turn
    have hplace : x.1 = k := by
      have hsorted : (placed plan policy partner s).Pairwise fun x y => x.1 ≤ y.1 :=
        pairwise_placed
      rw [hsplit, List.pairwise_append, List.pairwise_cons] at hsorted
      have hle : k ≤ x.1 := hsorted.2.1.1 x hx
      have hx' : (x.1, x.2) ∈ placed plan policy partner s := by simp [hsplit, hx]
      obtain ⟨turn', hturn', -⟩ := exists_turn_of_mem_placed hx'
      have hlt : x.1 < (turnsOf plan policy partner s).length :=
        (List.getElem?_eq_some_iff.mp hturn').1
      rw [turnsOf, hlength] at hlt
      omega
    by_contra hline
    have hcall : x.2 ∈ calls (eventsAt k after) :=
      mem_calls.mpr ⟨List.mem_map_of_mem (List.mem_filter.mpr ⟨hx, by simp [hplace]⟩), hline⟩
    rw [hrest] at hcall
    cases hcall
  · intro hreported
    refine ⟨_, houtcome.trans (if_pos (Failure.isReported_iff.mpr hreported)), rfl, ?_⟩
    exact f.exitCode_ne_zero
  · intro hother
    exact houtcome.trans (if_neg fun hreported => hother (Failure.isReported_iff.mp hreported))

/-- A registry in which nothing ever turns up. -/
def emptyRegistry : Partner steps Unit
  | .say _, s | .pause _, s => ((), s)
  | .localVersion _, s => (.ok "1.0.0", s)
  | .publishedAt _ _, s => (.ok .null, s)
  | .publish _ _ _ _, s => (.ok (), s)

/-- The first of two crates does not turn up: the fifth look behind its publication is
the last call of the release. -/
theorem stops_at_failure_of_core :
    ∃ before after f, placed twoCrates .standard emptyRegistry () =
        before ++ (0, looked "core" "1.0.0" (.ok .null)) :: after ∧
      Broken .standard (eventsAt 0 (before ++ [(0, looked "core" "1.0.0" (.ok .null))])) f ∧
      (∀ x ∈ after, kindOf x.2 = .line) ∧
      ∃ report, ((publishAll twoCrates .standard).play emptyRegistry ()).outcome = .ok report ∧
        report.error = some ("core: " ++ f.message) ∧ report.exitCode ≠ 0 := by
  have hsplit : placed twoCrates .standard emptyRegistry () =
      (placed twoCrates .standard emptyRegistry ()).dropLast ++
        (0, looked "core" "1.0.0" (.ok .null)) :: [] := rfl
  have hlast : eventsAt 0 ((placed twoCrates .standard emptyRegistry ()).dropLast ++
        [(0, looked "core" "1.0.0" (.ok .null))]) =
      ((placed twoCrates .standard emptyRegistry ()).dropLast).map (·.2) ++
        [looked "core" "1.0.0" (.ok .null)] := rfl
  have hbroken : Broken .standard _ _ := .exhausted hlast rfl rfl
  obtain ⟨-, hafter, name, hname, hreport, -⟩ :=
    stops_at_failure twoCrates .standard emptyRegistry () _ _ 0 _ _ hsplit hbroken
  cases hname
  exact ⟨_, _, _, hsplit, hbroken, hafter, hreport (.inr ⟨_, rfl⟩)⟩

end Publication

end ReleaseTrain
