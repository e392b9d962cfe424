import ReleaseTrain.Proofs.Dialogue.Unfolding
import ReleaseTrain.Publication.Run

/-!
# The turn of one crate

What one crate can bring about, said once: `Search`, `Wait` and `Turn` list the
calls that a search in the registry, the wait for a crate and the whole turn of a
crate can consist of, each together with how it ends.  Everything that is claimed
of a release, crate by crate, is a case analysis over `Turn`.

* `Step.Kind`: the kinds of steps; `calls`: the exchanges of a record that are
  more than lines on the console.
* `search_of_unfolds`, `wait_of_unfolds`, `turn_of_unfolds`: every unfolding of
  `poll`, of `waitUntilVisible` and of `publishCrate` is in the list.

## Why lines are left out

A line is shown whatever happens, and no later step depends on it.  The lists
below therefore speak of calls alone, and a change in the wording of a line
leaves them as they are.
-/

namespace ReleaseTrain.Publication

open Dialogue

/-! ## Kinds of steps -/

/-- What a step is about. -/
inductive Step.Kind where
  | line
  | pause
  | version
  | look
  | publication
deriving DecidableEq, Repr

/-- What a step is about. -/
def Step.kind : Step → Step.Kind
  | .say _ => .line
  | .pause _ => .pause
  | .localVersion _ => .version
  | .publishedAt _ _ => .look
  | .publish _ _ _ _ => .publication

/-- What an exchange is about. -/
def kindOf (e : Exchange steps) : Step.Kind := e.question.kind

/-- The exchanges of a record without the lines on the console. -/
def calls (es : List (Exchange steps)) : List (Exchange steps) :=
  es.filter fun e => kindOf e ≠ .line

/-- A pause. -/
abbrev paused (seconds : Number) : Exchange steps := ⟨.pause seconds, ()⟩

/-- The question for the version of a crate, with its answer. -/
abbrev told (name : String) (answer : Except Failure String) : Exchange steps :=
  ⟨.localVersion name, answer⟩

/-- A look at the registry, with its answer. -/
abbrev looked (name version : String) (answer : Except Failure Value) : Exchange steps :=
  ⟨.publishedAt name version, answer⟩

/-- The publication of a crate as a plan wants it, with its answer. -/
abbrev tried (plan : Plan) (name : String) (answer : Except Failure Unit) : Exchange steps :=
  ⟨.publish name plan.token plan.flags plan.dryRun, answer⟩

@[simp] theorem kindOf_say (line : String) (answer : Unit) :
    kindOf ⟨.say line, answer⟩ = .line := rfl

@[simp] theorem kindOf_paused (seconds : Number) : kindOf (paused seconds) = .pause := rfl

@[simp] theorem kindOf_told (name : String) (answer : Except Failure String) :
    kindOf (told name answer) = .version := rfl

@[simp] theorem kindOf_looked (name version : String) (answer : Except Failure Value) :
    kindOf (looked name version answer) = .look := rfl

@[simp] theorem kindOf_tried (plan : Plan) (name : String) (answer : Except Failure Unit) :
    kindOf (tried plan name answer) = .publication := rfl

@[simp] theorem calls_nil : calls [] = [] := rfl

@[simp] theorem calls_append (es es' : List (Exchange steps)) :
    calls (es ++ es') = calls es ++ calls es' := List.filter_append ..

@[simp] theorem calls_cons_say (line : String) (answer : Unit) (es : List (Exchange steps)) :
    calls (⟨.say line, answer⟩ :: es) = calls es := by
  simp [calls]

@[simp] theorem calls_cons_paused (seconds : Number) (es : List (Exchange steps)) :
    calls (paused seconds :: es) = paused seconds :: calls es := by
  simp [calls]

@[simp] theorem calls_cons_told (name : String) (answer : Except Failure String)
    (es : List (Exchange steps)) :
    calls (told name answer :: es) = told name answer :: calls es := by
  simp [calls]

@[simp] theorem calls_cons_looked (name version : String) (answer : Except Failure Value)
    (es : List (Exchange steps)) :
    calls (looked name version answer :: es) = looked name version answer :: calls es := by
  simp [calls]

@[simp] theorem calls_cons_tried (plan : Plan) (name : String) (answer : Except Failure Unit)
    (es : List (Exchange steps)) :
    calls (tried plan name answer :: es) = tried plan name answer :: calls es := by
  simp [calls]

theorem mem_calls {e : Exchange steps} {es : List (Exchange steps)} :
    e ∈ calls es ↔ e ∈ es ∧ kindOf e ≠ .line := by
  simp [calls]

/-- What only calls give is given by the calls of a record. -/
theorem filterMap_calls {β : Type} {given : Step → Option β}
    (hline : ∀ line, given (.say line) = none) (es : List (Exchange steps)) :
    (calls es).filterMap (fun e => given e.question) = es.filterMap fun e => given e.question := by
  rw [calls, List.filterMap_filter]
  congr 1
  funext ⟨question, answer⟩
  cases question with
  | say line => simp [hline]
  | _ => rfl

/-! ## What a crate can bring about -/

/-- The calls of a search that may look a number of times, and how it ends. -/
inductive Search (policy : Policy) (name version : String) :
    Nat → List (Exchange steps) → Except Failure Value → Prop
  | exhausted :
      Search policy name version 0 [] (.error (.absent (.neverSeen name version policy.attempts)))
  | seen (left : Nat) {date : Value} (there : date.isTruthy = true) :
      Search policy name version (left + 1)
        [paused policy.beforeLook, looked name version (.ok date)] (.ok date)
  | broken (left : Nat) (f : Failure) :
      Search policy name version (left + 1)
        [paused policy.beforeLook, looked name version (.error f)] (.error f)
  | again {left : Nat} {date : Value} {cs : List (Exchange steps)} {o : Except Failure Value}
      (absent : date.isTruthy = false) (rest : Search policy name version left cs o) :
      Search policy name version (left + 1)
        (paused policy.beforeLook :: looked name version (.ok date) :: cs) o

/-- The calls of the wait for a crate, and how it ends. -/
inductive Wait (policy : Policy) (name version : String) :
    List (Exchange steps) → Except Failure Value → Prop
  | lost {cs : List (Exchange steps)} {f : Failure}
      (search : Search policy name version policy.attempts cs (.error f)) :
      Wait policy name version cs (.error f)
  /-- The crate is there, but the pause after it is too long to be told. -/
  | untold {cs : List (Exchange steps)} {date : Value}
      (search : Search policy name version policy.attempts cs (.ok date))
      (long : policy.settling.brief? = none) : Wait policy name version cs (.error .tooLarge)
  | visible {cs : List (Exchange steps)} {date : Value}
      (search : Search policy name version policy.attempts cs (.ok date)) :
      Wait policy name version (cs ++ [paused policy.settling]) (.ok date)

/-- What follows the publication of a crate, given its answer: calls and an end. -/
inductive Aftermath (plan : Plan) (policy : Policy) (name version : String) :
    Except Failure Unit → List (Exchange steps) → Except Failure CrateState → Prop
  | refused (f : Failure) : Aftermath plan policy name version (.error f) [] (.error f)
  | rehearsed (dry : plan.dryRun = true) :
      Aftermath plan policy name version (.ok ()) [] (.ok .published)
  | lost (real : plan.dryRun = false) {cs : List (Exchange steps)} {f : Failure}
      (wait : Wait policy name version cs (.error f)) :
      Aftermath plan policy name version (.ok ()) cs (.error f)
  | visible (real : plan.dryRun = false) {cs : List (Exchange steps)} {date : Value}
      (wait : Wait policy name version cs (.ok date)) :
      Aftermath plan policy name version (.ok ()) cs (.ok .published)

/-- The calls of the turn of a crate, and how it ends. -/
inductive Turn (plan : Plan) (policy : Policy) (name : String) :
    List (Exchange steps) → Except Failure CrateState → Prop
  | unknown (f : Failure) : Turn plan policy name [told name (.error f)] (.error f)
  | unchecked (version : String) (f : Failure) :
      Turn plan policy name [told name (.ok version), looked name version (.error f)] (.error f)
  | passedOver (version : String) {date : Value} (there : date.isTruthy = true) :
      Turn plan policy name [told name (.ok version), looked name version (.ok date)]
        (.ok .alreadyPublished)
  | entrusted {version : String} {date : Value} (absent : date.isTruthy = false)
      {answer : Except Failure Unit} {cs : List (Exchange steps)} {o : Except Failure CrateState}
      (after : Aftermath plan policy name version answer cs o) :
      Turn plan policy name
        (told name (.ok version) :: looked name version (.ok date) ::
          tried plan name answer :: cs) o

/-! ## What the lists have in common -/

section Lists

variable {plan : Plan} {policy : Policy} {name version : String} {cs : List (Exchange steps)}

/-- A search pauses and looks and does nothing else. -/
theorem Search.eq_of_mem {left : Nat} {o : Except Failure Value}
    (h : Search policy name version left cs o) {e : Exchange steps} (he : e ∈ cs) :
    e = paused policy.beforeLook ∨ ∃ answer, e = looked name version answer := by
  induction h with
  | exhausted => cases he
  | seen left there =>
    rw [List.mem_cons, List.mem_singleton] at he
    rcases he with rfl | rfl
    · exact .inl rfl
    · exact .inr ⟨_, rfl⟩
  | broken left f =>
    rw [List.mem_cons, List.mem_singleton] at he
    rcases he with rfl | rfl
    · exact .inl rfl
    · exact .inr ⟨_, rfl⟩
  | again absent _ ih =>
    rcases List.mem_cons.mp he with rfl | he
    · exact .inl rfl
    · rcases List.mem_cons.mp he with rfl | he
      · exact .inr ⟨_, rfl⟩
      · exact ih he

/-- A search that ends well ends with the look that found the crate. -/
theorem Search.exists_eq_append {left : Nat} {date : Value}
    (h : Search policy name version left cs (.ok date)) :
    date.isTruthy = true ∧ ∃ front, cs = front ++ [looked name version (.ok date)] := by
  generalize ho : Except.ok date = o at h
  induction h with
  | exhausted => cases ho
  | seen left there =>
    cases ho
    exact ⟨there, [_], rfl⟩
  | broken left f => cases ho
  | again absent _ ih =>
    obtain ⟨hdate, front, rfl⟩ := ih ho
    exact ⟨hdate, _ :: _ :: front, rfl⟩

/-- A wait pauses and looks and does nothing else. -/
theorem Wait.eq_of_mem {o : Except Failure Value} (h : Wait policy name version cs o)
    {e : Exchange steps} (he : e ∈ cs) :
    (∃ seconds, e = paused seconds) ∨ ∃ answer, e = looked name version answer := by
  cases h with
  | lost search => exact (search.eq_of_mem he).imp_left fun h => ⟨_, h⟩
  | untold search long => exact (search.eq_of_mem he).imp_left fun h => ⟨_, h⟩
  | visible search =>
    rcases List.mem_append.mp he with he | he
    · exact (search.eq_of_mem he).imp_left fun h => ⟨_, h⟩
    · exact .inl ⟨_, List.mem_singleton.mp he⟩

/-- A wait that ends well ends with the look that found the crate and the pause
after it. -/
theorem Wait.exists_eq_append {date : Value} (h : Wait policy name version cs (.ok date)) :
    date.isTruthy = true ∧
      ∃ front, cs = front ++ [looked name version (.ok date), paused policy.settling] := by
  cases h with
  | visible search =>
    obtain ⟨hdate, front, rfl⟩ := search.exists_eq_append
    exact ⟨hdate, front, by simp⟩

/-- After a publication there are pauses and looks and nothing else. -/
theorem Aftermath.eq_of_mem {answer : Except Failure Unit} {o : Except Failure CrateState}
    (h : Aftermath plan policy name version answer cs o) {e : Exchange steps} (he : e ∈ cs) :
    (∃ seconds, e = paused seconds) ∨ ∃ answer, e = looked name version answer := by
  cases h with
  | refused f => cases he
  | rehearsed dry => cases he
  | lost real wait => exact wait.eq_of_mem he
  | visible real wait => exact wait.eq_of_mem he

/-- What can be called in the turn of a crate: its version is asked for, its
publication is tried, there are pauses, and looks for the version that was told. -/
theorem Turn.eq_of_mem {o : Except Failure CrateState} (h : Turn plan policy name cs o)
    {e : Exchange steps} (he : e ∈ cs) :
    (∃ answer, e = told name answer) ∨ (∃ answer, e = tried plan name answer) ∨
      (∃ seconds, e = paused seconds) ∨
        ∃ version answer, told name (.ok version) ∈ cs ∧ e = looked name version answer := by
  cases h with
  | unknown f => exact .inl ⟨_, List.mem_singleton.mp he⟩
  | unchecked version f =>
    rw [List.mem_cons, List.mem_singleton] at he
    rcases he with rfl | rfl
    · exact .inl ⟨_, rfl⟩
    · exact .inr (.inr (.inr ⟨version, _, List.mem_cons_self .., rfl⟩))
  | passedOver version there =>
    rw [List.mem_cons, List.mem_singleton] at he
    rcases he with rfl | rfl
    · exact .inl ⟨_, rfl⟩
    · exact .inr (.inr (.inr ⟨version, _, List.mem_cons_self .., rfl⟩))
  | @entrusted version _ _ _ _ _ after =>
    rw [List.mem_cons, List.mem_cons, List.mem_cons] at he
    rcases he with rfl | rfl | rfl | he
    · exact .inl ⟨_, rfl⟩
    · exact .inr (.inr (.inr ⟨version, _, List.mem_cons_self .., rfl⟩))
    · exact .inr (.inl ⟨_, rfl⟩)
    · rcases after.eq_of_mem he with hpaused | ⟨answer, hlooked⟩
      · exact .inr (.inr (.inl hpaused))
      · exact .inr (.inr (.inr ⟨version, answer, List.mem_cons_self .., hlooked⟩))

/-- A publication in a turn is that of its crate, as the plan wants it. -/
theorem Turn.eq_tried_of_mem {o : Except Failure CrateState} (h : Turn plan policy name cs o)
    {e : Exchange steps} (he : e ∈ cs) (hkind : kindOf e = .publication) :
    ∃ answer, e = tried plan name answer := by
  rcases h.eq_of_mem he with ⟨answer, rfl⟩ | htried | ⟨seconds, rfl⟩ | ⟨version, answer, -, rfl⟩
  · cases hkind
  · exact htried
  · cases hkind
  · cases hkind

end Lists

/-! ## Every unfolding is in the list -/

variable {β : Type} {es : List (Exchange steps)}

theorem unfolds_say_bind_iff {line : String} {next : Unit → Dialogue steps β}
    {o : Except Failure β} :
    (say line >>= next).Unfolds es o ↔
      ∃ rest, es = ⟨.say line, ()⟩ :: rest ∧ (next ()).Unfolds rest o :=
  unfolds_order_bind_iff (T := steps) (q := Step.say line) () fun _ => rfl

theorem unfolds_pause_bind_iff {seconds : Number} {next : Unit → Dialogue steps β}
    {o : Except Failure β} :
    (pause seconds >>= next).Unfolds es o ↔
      ∃ rest, es = paused seconds :: rest ∧ (next ()).Unfolds rest o :=
  unfolds_order_bind_iff (T := steps) (q := Step.pause seconds) () fun _ => rfl

theorem unfolds_localVersion_bind_iff {name : String} {next : String → Dialogue steps β}
    {o : Except Failure β} :
    (localVersion name >>= next).Unfolds es o ↔
      (∃ f, es = [told name (.error f)] ∧ o = .error f) ∨
        ∃ version rest, es = told name (.ok version) :: rest ∧ (next version).Unfolds rest o :=
  unfolds_call_bind_iff (T := steps) (q := Step.localVersion name) (fun e => e) (fun e => e)
    (fun _ => rfl) (fun _ => rfl)

theorem unfolds_publishedAt_bind_iff {name version : String} {next : Value → Dialogue steps β}
    {o : Except Failure β} :
    (publishedAt name version >>= next).Unfolds es o ↔
      (∃ f, es = [looked name version (.error f)] ∧ o = .error f) ∨
        ∃ date rest, es = looked name version (.ok date) :: rest ∧
          (next date).Unfolds rest o :=
  unfolds_call_bind_iff (T := steps) (q := Step.publishedAt name version) (fun e => e)
    (fun e => e) (fun _ => rfl) (fun _ => rfl)

theorem unfolds_publish_bind_iff {plan : Plan} {name : String} {next : Unit → Dialogue steps β}
    {o : Except Failure β} :
    (publish name plan.token plan.flags plan.dryRun >>= next).Unfolds es o ↔
      (∃ f, es = [tried plan name (.error f)] ∧ o = .error f) ∨
        ∃ answer rest, es = tried plan name (.ok answer) :: rest ∧ (next answer).Unfolds rest o :=
  unfolds_call_bind_iff (T := steps)
    (q := Step.publish name plan.token plan.flags plan.dryRun) (fun e => e) (fun e => e)
    (fun _ => rfl) (fun _ => rfl)

variable {plan : Plan} {policy : Policy} {name version : String}

theorem search_of_unfolds {left : Nat} {o : Except Failure Value}
    (h : (poll policy name version left).Unfolds es o) :
    Search policy name version left (calls es) o := by
  induction left generalizing es with
  | zero =>
    rw [poll, unfolds_fail_iff] at h
    obtain ⟨rfl, rfl⟩ := h
    exact .exhausted
  | succ left ih =>
    rw [poll, unfolds_pause_bind_iff] at h
    obtain ⟨_, rfl, h⟩ := h
    rw [unfolds_publishedAt_bind_iff] at h
    rcases h with ⟨f, rfl, rfl⟩ | ⟨date, _, rfl, h⟩
    · exact .broken left f
    cases hdate : date.isTruthy with
    | true =>
      rw [if_pos hdate, unfolds_say_bind_iff] at h
      obtain ⟨_, rfl, h⟩ := h
      rw [unfolds_pure_iff] at h
      obtain ⟨rfl, rfl⟩ := h
      exact .seen left hdate
    | false =>
      rw [if_neg (by simp [hdate])] at h
      -- no line follows the last look
      split at h
      · exact .again hdate (ih h)
      · rw [unfolds_say_bind_iff] at h
        obtain ⟨_, rfl, h⟩ := h
        have hrest := ih h
        exact .again hdate hrest

theorem wait_of_unfolds {o : Except Failure Value}
    (h : (waitUntilVisible policy name version).Unfolds es o) :
    Wait policy name version (calls es) o := by
  rw [waitUntilVisible, unfolds_say_bind_iff] at h
  obtain ⟨_, rfl, h⟩ := h
  rw [calls_cons_say]
  rw [unfolds_bind_iff] at h
  rcases h with ⟨f, h, rfl⟩ | ⟨date, es₁, es₂, h₁, h₂, rfl⟩
  · exact .lost (search_of_unfolds h)
  have hsearch := search_of_unfolds h₁
  split at h₂
  next hbrief =>
    rw [unfolds_fail_iff] at h₂
    obtain ⟨rfl, rfl⟩ := h₂
    simpa using Wait.untold hsearch hbrief
  next =>
    rw [unfolds_say_bind_iff] at h₂
    obtain ⟨_, rfl, h₂⟩ := h₂
    rw [unfolds_pause_bind_iff] at h₂
    obtain ⟨_, rfl, h₂⟩ := h₂
    rw [unfolds_pure_iff] at h₂
    obtain ⟨rfl, rfl⟩ := h₂
    simpa using Wait.visible hsearch

theorem turn_of_unfolds {o : Except Failure CrateState}
    (h : (publishCrate plan policy name).Unfolds es o) : Turn plan policy name (calls es) o := by
  rw [publishCrate, unfolds_localVersion_bind_iff] at h
  rcases h with ⟨f, rfl, rfl⟩ | ⟨version, _, rfl, h⟩
  · exact .unknown f
  rw [unfolds_publishedAt_bind_iff] at h
  rcases h with ⟨f, rfl, rfl⟩ | ⟨date, _, rfl, h⟩
  · exact .unchecked version f
  rw [unfolds_say_bind_iff] at h
  obtain ⟨_, rfl, h⟩ := h
  cases hdate : date.isTruthy with
  | true =>
    rw [if_pos hdate, unfolds_say_bind_iff] at h
    obtain ⟨_, rfl, h⟩ := h
    rw [unfolds_pure_iff] at h
    obtain ⟨rfl, rfl⟩ := h
    exact .passedOver version hdate
  | false =>
    rw [if_neg (by simp [hdate]), unfolds_say_bind_iff] at h
    obtain ⟨_, rfl, h⟩ := h
    rw [unfolds_publish_bind_iff] at h
    rcases h with ⟨f, rfl, rfl⟩ | ⟨⟨⟩, _, rfl, h⟩
    · exact .entrusted hdate (.refused f)
    cases hdry : plan.dryRun with
    | true =>
      rw [if_pos hdry, unfolds_pure_iff] at h
      obtain ⟨rfl, rfl⟩ := h
      exact .entrusted hdate (.rehearsed hdry)
    | false =>
      rw [if_neg (by simp [hdry]), unfolds_bind_iff] at h
      rcases h with ⟨f, h, rfl⟩ | ⟨date', es₁, es₂, h₁, h₂, rfl⟩
      · have hwait := wait_of_unfolds h
        exact .entrusted hdate (.lost hdry hwait)
      · rw [unfolds_say_bind_iff] at h₂
        obtain ⟨_, rfl, h₂⟩ := h₂
        rw [unfolds_pure_iff] at h₂
        obtain ⟨rfl, rfl⟩ := h₂
        have hwait := wait_of_unfolds h₁
        simpa using Turn.entrusted hdate (.visible hdry hwait)

end ReleaseTrain.Publication
