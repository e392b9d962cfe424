import ReleaseTrain.Proofs.Publication.Turn

/-!
# What a wait consists of, line by line

A wait goes by the first look that tells something: the look that finds the crate, or the one
that fails.  Every look before it finds nothing and is answered with a line that counts it, and
the last look that the policy allows is the last one whatever it finds.

* `reciting`: a registry that answers looks one after another.
* `Vain`: an answer that tells nothing; `vainRounds`: what a number of them leave behind.
* `play_poll_of_there`, `play_poll_of_error`, `play_poll_of_last`, `play_poll_of_vain`: one look.
* `play_poll_of_forall_vain`: any number of looks that tell nothing.
* `first_telling_look_decides`: the whole wait.

## Why the lines are kept here

The lists of calls in `Search` and `Wait` leave the lines out, because nothing depends on them.
Here they are the point: a reader of the console goes by their numbers.
-/

namespace ReleaseTrain

/-- A course with exchanges in front. -/
def Course.after {T : Topic} {σ α : Type} (front : List (Exchange T)) (course : Course T σ α) :
    Course T σ α :=
  { course with exchanges := front ++ course.exchanges }

theorem Course.after_after {T : Topic} {σ α : Type} (front back : List (Exchange T))
    (course : Course T σ α) : (course.after back).after front = course.after (front ++ back) := by
  rw [after, after, after, List.append_assoc]

namespace Publication

open Dialogue

/-! ## Answers and lines -/

/-- A registry that answers looks one after another, the state being how many it has answered.
Nothing else that it is asked matters to a wait. -/
def reciting (answers : Nat → Except Failure Value) : Partner steps Nat
  | .say _, n | .pause _, n => ((), n)
  | .localVersion _, n => (.ok "", n)
  | .publishedAt _ _, n => (answers n, n + 1)
  | .publish _ _ _ _, n => (.ok (), n)

/-- An answer that is there but tells nothing: no date, or one that counts as absent. -/
def Vain (answer : Except Failure Value) : Prop := ∃ date, answer = .ok date ∧ date.isTruthy = false

/-- The line with which a wait begins. -/
abbrev awaited (name version : String) : Exchange steps :=
  ⟨.say ("[poll] Ждём, пока крейт " ++ name ++ " " ++ version ++
    " станет доступен в реестре..."), ()⟩

/-- The line behind a look that found nothing, with the number of the look. -/
abbrev notYet (policy : Policy) (number : Nat) : Exchange steps :=
  ⟨.say ("[poll]   пока недоступен (" ++ toString number ++ "/" ++ toString policy.attempts ++
    "), ждём ещё несколько секунд..."), ()⟩

/-- The line behind a look that found the crate. -/
abbrev turnedUp (name : String) (date : Value) : Exchange steps :=
  ⟨.say ("[poll]   ✅ крейт " ++ name ++ " доступен (опубликован " ++ date.sentence ++ ")"), ()⟩

/-- The line that announces the pause for a crate to spread. -/
abbrev spreading (seconds : String) : Exchange steps :=
  ⟨.say ("[poll]   ждём ещё " ++ seconds ++ " с, пока версия разойдётся по CDN..."), ()⟩

/-- What the first looks leave behind, if none of them tells anything and another one follows:
each has its pause before it and its line behind it. -/
def vainRounds (policy : Policy) (name version : String) (answers : Nat → Except Failure Value)
    (count : Nat) : List (Exchange steps) :=
  (List.range count).flatMap fun n =>
    [paused policy.beforeLook, looked name version (answers n), notYet policy (n + 1)]

variable {policy : Policy} {name version : String} {answers : Nat → Except Failure Value}

theorem vainRounds_succ (count : Nat) :
    vainRounds policy name version answers (count + 1) =
      vainRounds policy name version answers count ++
        [paused policy.beforeLook, looked name version (answers count),
          notYet policy (count + 1)] := by
  rw [vainRounds, List.range_succ, List.flatMap_append, List.flatMap_singleton]
  rfl

/-! ## One look -/

variable {left n : Nat} {date : Value}

/-- A look that finds the crate is the last one. -/
theorem play_poll_of_there (h : answers n = .ok date) (there : date.isTruthy = true) :
    (poll policy name version (left + 1)).play (reciting answers) n =
      ⟨.ok date, [paused policy.beforeLook, looked name version (.ok date), turnedUp name date],
        n + 1⟩ := by
  simp [poll, pause, publishedAt, say, play, reciting, Course.behind, pure_eq, h, there]

/-- A look that fails is the last one, and no line follows it. -/
theorem play_poll_of_error {f : Failure} (h : answers n = .error f) :
    (poll policy name version (left + 1)).play (reciting answers) n =
      ⟨.error f, [paused policy.beforeLook, looked name version (.error f)], n + 1⟩ := by
  simp [poll, pause, publishedAt, play, reciting, Course.behind, h]

/-- The last look that is allowed ends the search if it finds nothing, and no line follows it. -/
theorem play_poll_of_last (h : Vain (answers n)) :
    (poll policy name version 1).play (reciting answers) n =
      ⟨.error (.absent (.neverSeen name version policy.attempts)),
        [paused policy.beforeLook, looked name version (answers n)], n + 1⟩ := by
  obtain ⟨date, hdate, absent⟩ := h
  simp [poll, pause, publishedAt, play, reciting, Course.behind, hdate, absent]

/-- Any other look that finds nothing is counted, and the search goes on. -/
theorem play_poll_of_vain (h : Vain (answers n)) (hleft : policy.attempts = n + (left + 1) + 1) :
    (poll policy name version (left + 2)).play (reciting answers) n =
      ((poll policy name version (left + 1)).play (reciting answers) (n + 1)).after
        [paused policy.beforeLook, looked name version (answers n), notYet policy (n + 1)] := by
  obtain ⟨date, hdate, absent⟩ := h
  have hnumber : policy.attempts - (left + 1) = n + 1 := by omega
  rw [poll]
  simp [pause, publishedAt, say, play, reciting, Course.behind, Course.after, hdate, absent,
    hnumber]

/-! ## One look after another -/

/-- The search goes on behind any number of looks that tell nothing, if more are allowed. -/
theorem play_poll_of_forall_vain {count : Nat} (hleft : policy.attempts = count + left + 1)
    (hvain : ∀ n < count, Vain (answers n)) :
    (poll policy name version policy.attempts).play (reciting answers) 0 =
      ((poll policy name version (left + 1)).play (reciting answers) count).after
        (vainRounds policy name version answers count) := by
  induction count generalizing left with
  | zero =>
    rw [hleft, Nat.zero_add]
    rfl
  | succ count ih =>
    -- before the last of these looks, one more was left
    have hmore : policy.attempts = count + (left + 1) + 1 := by omega
    have hbefore := ih hmore fun n hn => hvain n (by omega)
    have hlast : Vain (answers count) := hvain count (by omega)
    rw [hbefore, play_poll_of_vain hlast hmore, Course.after_after, vainRounds_succ]

/-- A search that finds the crate at the look that comes behind a number of vain ones. -/
theorem play_poll_of_first_there {count : Nat} (hcount : count < policy.attempts)
    (hvain : ∀ n < count, Vain (answers n)) (h : answers count = .ok date)
    (there : date.isTruthy = true) :
    (poll policy name version policy.attempts).play (reciting answers) 0 =
      ⟨.ok date, vainRounds policy name version answers count ++
        [paused policy.beforeLook, looked name version (.ok date), turnedUp name date],
        count + 1⟩ := by
  obtain ⟨left, hleft⟩ := Nat.exists_eq_add_of_lt hcount
  rw [play_poll_of_forall_vain hleft hvain, play_poll_of_there h there]
  rfl

/-- A search that fails at the look that comes behind a number of vain ones. -/
theorem play_poll_of_first_error {count : Nat} {f : Failure} (hcount : count < policy.attempts)
    (hvain : ∀ n < count, Vain (answers n)) (h : answers count = .error f) :
    (poll policy name version policy.attempts).play (reciting answers) 0 =
      ⟨.error f, vainRounds policy name version answers count ++
        [paused policy.beforeLook, looked name version (.error f)], count + 1⟩ := by
  obtain ⟨left, hleft⟩ := Nat.exists_eq_add_of_lt hcount
  rw [play_poll_of_forall_vain hleft hvain, play_poll_of_error h]
  rfl

/-- A search in which every look is vain. -/
theorem play_poll_of_all_vain (hvain : ∀ n < policy.attempts, Vain (answers n)) :
    (poll policy name version policy.attempts).play (reciting answers) 0 =
      ⟨.error (.absent (.neverSeen name version policy.attempts)),
        vainRounds policy name version answers (policy.attempts - 1) ++
          [paused policy.beforeLook, looked name version (answers (policy.attempts - 1))],
        policy.attempts⟩ := by
  have hpos := policy.attempts_pos
  have hend : policy.attempts - 1 + 1 = policy.attempts := by omega
  have hbefore : ∀ n < policy.attempts - 1, Vain (answers n) := fun n hn => hvain n (by omega)
  have hlast : Vain (answers (policy.attempts - 1)) := hvain _ (by omega)
  have hrounds : (poll policy name version policy.attempts).play (reciting answers) 0 =
      ((poll policy name version 1).play (reciting answers) (policy.attempts - 1)).after
        (vainRounds policy name version answers (policy.attempts - 1)) :=
    play_poll_of_forall_vain (by omega) hbefore
  rw [hrounds, play_poll_of_last hlast, hend]
  rfl

/-! ## The whole wait -/

variable {es : List (Exchange steps)}

/-- A wait whose search ends well ends with the pause for the crate to spread. -/
theorem play_waitUntilVisible_of_ok {seconds : String}
    (hsettling : policy.settling.brief? = some seconds)
    (h : (poll policy name version policy.attempts).play (reciting answers) 0 =
      ⟨.ok date, es, n⟩) :
    (waitUntilVisible policy name version).play (reciting answers) 0 =
      ⟨.ok date, awaited name version :: es ++ [spreading seconds, paused policy.settling], n⟩ := by
  rw [waitUntilVisible, say, ask_bind]
  simp only [done_bind, play, reciting]
  rw [play_bind, h]
  simp [Course.andThen, Course.behind, hsettling, say, pause, play, reciting, pure_eq]

/-- A wait whose search fails ends with the search. -/
theorem play_waitUntilVisible_of_error {f : Failure}
    (h : (poll policy name version policy.attempts).play (reciting answers) 0 =
      ⟨.error f, es, n⟩) :
    (waitUntilVisible policy name version).play (reciting answers) 0 =
      ⟨.error f, awaited name version :: es, n⟩ := by
  rw [waitUntilVisible, say, ask_bind]
  simp only [done_bind, play, reciting]
  rw [play_bind, h]
  rfl

/-- **The first look that tells something decides.**  Let a registry answer the looks of a wait by
any sequence of answers, and let the pause behind the wait be one that can be told, as every
binary number can.

* If all looks before one are vain and this one finds the crate, the wait ends with its date.  It
  has gone through the vain looks, each with a pause before it and a line behind it that counts
  it, then through this look, and then through the one pause for the crate to spread.
* If all looks before one are vain and this one fails, the wait ends with the failure, right
  behind this look.
* If every look that the policy allows is vain, the crate does not turn up.  All looks have been
  used, the last one has no line behind it, and there is no pause for the crate to spread. -/
theorem first_telling_look_decides (policy : Policy) (name version : String) {seconds : String}
    (hsettling : policy.settling.brief? = some seconds) (answers : Nat → Except Failure Value) :
    let wait := (waitUntilVisible policy name version).play (reciting answers) 0
    let before (count : Nat) := awaited name version :: vainRounds policy name version answers count
    (∀ count < policy.attempts, (∀ n < count, Vain (answers n)) →
      (∀ date, answers count = .ok date → date.isTruthy = true →
        wait = ⟨.ok date, before count ++
          [paused policy.beforeLook, looked name version (.ok date), turnedUp name date,
            spreading seconds, paused policy.settling], count + 1⟩) ∧
      ∀ f, answers count = .error f →
        wait = ⟨.error f, before count ++
          [paused policy.beforeLook, looked name version (.error f)], count + 1⟩) ∧
    ((∀ n < policy.attempts, Vain (answers n)) →
      wait = ⟨.error (.absent (.neverSeen name version policy.attempts)),
        before (policy.attempts - 1) ++
          [paused policy.beforeLook, looked name version (answers (policy.attempts - 1))],
        policy.attempts⟩) := by
  intro wait before
  refine ⟨fun count hcount hvain => ⟨?_, ?_⟩, ?_⟩
  · intro date h there
    have hwait : wait = _ :=
      play_waitUntilVisible_of_ok hsettling (play_poll_of_first_there hcount hvain h there)
    rwa [← List.cons_append, List.append_assoc] at hwait
  · intro f h
    exact play_waitUntilVisible_of_error (play_poll_of_first_error hcount hvain h)
  · intro hvain
    exact play_waitUntilVisible_of_error (play_poll_of_all_vain hvain)

/-- Answers that count as absent, each in a way of its own, and then a date. -/
def lateAnswers : Nat → Except Failure Value
  | 0 => .ok .null
  | 1 => .ok (.text "")
  | 2 => .ok (.bool false)
  | 3 => .ok (.list [])
  | _ => .ok (.text "2024-05-06")

/-- The standard policy allows five looks, and the fifth one finds the crate. -/
theorem first_telling_look_decides_at_last :
    Policy.standard.settling.brief? = some "10" ∧ 4 < Policy.standard.attempts ∧
      (∀ n < 4, Vain (lateAnswers n)) ∧
      (waitUntilVisible .standard "app" "1.0").play (reciting lateAnswers) 0 =
        ⟨.ok (.text "2024-05-06"),
          awaited "app" "1.0" :: vainRounds .standard "app" "1.0" lateAnswers 4 ++
            [paused (Policy.seconds 5), looked "app" "1.0" (.ok (.text "2024-05-06")),
              turnedUp "app" (.text "2024-05-06"), spreading "10", paused (Policy.seconds 10)],
          5⟩ := by
  have hsettling : Policy.standard.settling.brief? = some "10" := by decide +kernel
  have hvain : ∀ n < 4, Vain (lateAnswers n) := by
    intro n hn
    match n with
    | 0 => exact ⟨.null, rfl, rfl⟩
    | 1 => exact ⟨.text "", rfl, rfl⟩
    | 2 => exact ⟨.bool false, rfl, rfl⟩
    | 3 => exact ⟨.list [], rfl, rfl⟩
    | n + 4 => omega
  obtain ⟨hlooks, -⟩ := first_telling_look_decides .standard "app" "1.0" hsettling lateAnswers
  refine ⟨hsettling, by decide, hvain, ?_⟩
  exact (hlooks 4 (by decide) hvain).1 (.text "2024-05-06") rfl rfl

end Publication

end ReleaseTrain
