import ReleaseTrain.Failure

/-!
# Dialogues

A release depends on others at every turn: on cargo, on a registry, on the clock.  A program part
that does is a `Dialogue`: it ends, it fails, or it asks a question and goes on with whatever is
answered.  Nothing else can happen in it, so what a part does to the world is exactly the list of
its questions.

* `Topic`: what may be asked, and what an answer looks like.
* `Dialogue`: a program part; `Dialogue.bind`, `Dialogue.attempt`: one after another, and catching
  a failure.
* `Dialogue.via`: the same part, its questions answered by parts on another topic.
* `Dialogue.play`: the course of a dialogue with someone who answers.

The main statement is `Dialogue.play_bind`: the course of two parts in a row is the course of the
first and, if it ended well, that of the second behind it.

## Why whoever answers has a state

Answers may change from one question to the next, even for the same question.  `Partner` therefore
answers from a state of any type and moves to another one, and what holds for all partners holds
whatever the others do.  Since a dialogue is finite along every course, playing it always ends.
-/

namespace ReleaseTrain

/-- What may be asked, and of which type the answer to a question is. -/
structure Topic where
  Question : Type
  Answer : Question → Type

/-- A program part that asks questions. -/
inductive Dialogue (T : Topic) (α : Type) where
  /-- It ends with a result. -/
  | done (a : α)
  /-- It fails. -/
  | fail (f : Failure)
  /-- It asks and goes on with the answer. -/
  | ask (question : T.Question) (next : T.Answer question → Dialogue T α)

namespace Dialogue

variable {T U : Topic} {α β γ : Type}

/-- One part after another. -/
def bind : Dialogue T α → (α → Dialogue T β) → Dialogue T β
  | done a, next => next a
  | fail f, _ => fail f
  | ask question continuation, next => ask question fun answer => (continuation answer).bind next

instance : Monad (Dialogue T) where
  pure := done
  bind := bind

theorem pure_eq (a : α) : (pure a : Dialogue T α) = done a := rfl

@[simp] theorem done_bind (a : α) (next : α → Dialogue T β) : (done a >>= next) = next a := rfl

@[simp] theorem fail_bind (f : Failure) (next : α → Dialogue T β) :
    ((fail f : Dialogue T α) >>= next) = fail f := rfl

@[simp] theorem ask_bind (q : T.Question) (continuation : T.Answer q → Dialogue T α)
    (next : α → Dialogue T β) :
    (ask q continuation >>= next) = ask q fun answer => continuation answer >>= next := rfl

theorem bind_done (d : Dialogue T α) : (d >>= done) = d := by
  induction d with
  | done a => rfl
  | fail f => rfl
  | ask q next ih => simp only [ask_bind, ih]

theorem bind_assoc (d : Dialogue T α) (next : α → Dialogue T β) (last : β → Dialogue T γ) :
    (d >>= next >>= last) = (d >>= fun a => next a >>= last) := by
  induction d with
  | done a => rfl
  | fail f => rfl
  | ask q continuation ih => simp only [ask_bind, ih]

instance : LawfulMonad (Dialogue T) :=
  LawfulMonad.mk' (m := Dialogue T) bind_done (fun _ _ => rfl) bind_assoc

/-- A single question. -/
def question (q : T.Question) : Dialogue T (T.Answer q) := ask q done

/-- What is already known. -/
def ofExcept : Except Failure α → Dialogue T α
  | .ok a => done a
  | .error f => fail f

/-- A part that does not fail but tells how the given part ended. -/
def attempt : Dialogue T α → Dialogue T (Except Failure α)
  | done a => done (.ok a)
  | fail f => done (.error f)
  | ask question next => ask question fun answer => (next answer).attempt

/-- The same part on another topic: each question is answered by a part of that topic. -/
def via (reply : (q : T.Question) → Dialogue U (T.Answer q)) : Dialogue T α → Dialogue U α
  | done a => done a
  | fail f => fail f
  | ask question next => (reply question).bind fun answer => (next answer).via reply

end Dialogue

/-- A question with its answer. -/
structure Exchange (T : Topic) where
  question : T.Question
  answer : T.Answer question

/-- Someone who answers from a state. -/
abbrev Partner (T : Topic) (σ : Type) := (q : T.Question) → σ → T.Answer q × σ

/-- The course of a dialogue: how it ended, what was asked and answered, and the state in which it
left the partner. -/
structure Course (T : Topic) (σ α : Type) where
  outcome : Except Failure α
  exchanges : List (Exchange T)
  state : σ

namespace Course

variable {T : Topic} {σ α β : Type}

/-- A course with an exchange in front. -/
def behind (e : Exchange T) (course : Course T σ α) : Course T σ α :=
  { course with exchanges := e :: course.exchanges }

/-- A course, and another one after it if it ended well. -/
def andThen (course : Course T σ α) (next : α → σ → Course T σ β) : Course T σ β :=
  match course with
  | ⟨.ok a, exchanges, s⟩ =>
    let rest := next a s
    { rest with exchanges := exchanges ++ rest.exchanges }
  | ⟨.error f, exchanges, s⟩ => ⟨.error f, exchanges, s⟩

theorem behind_andThen (e : Exchange T) (course : Course T σ α) (next : α → σ → Course T σ β) :
    (course.behind e).andThen next = (course.andThen next).behind e := by
  obtain ⟨outcome, exchanges, s⟩ := course
  cases outcome <;> rfl

end Course

namespace Dialogue

variable {T : Topic} {σ α β : Type}

/-- The course of a dialogue with a partner. -/
def play (partner : Partner T σ) : Dialogue T α → σ → Course T σ α
  | done a, s => ⟨.ok a, [], s⟩
  | fail f, s => ⟨.error f, [], s⟩
  | ask question next, s =>
    let (answer, s) := partner question s
    ((next answer).play partner s).behind ⟨question, answer⟩

/-- Two parts in a row take the course of the one and then that of the other. -/
theorem play_bind (partner : Partner T σ) (d : Dialogue T α) (next : α → Dialogue T β) (s : σ) :
    (d >>= next).play partner s =
      (d.play partner s).andThen fun a s => (next a).play partner s := by
  induction d generalizing s with
  | done a => rfl
  | fail f => rfl
  | ask q continuation ih => simp only [ask_bind, play, ih, Course.behind_andThen]

/-- Catching a failure changes nothing in what is asked. -/
theorem play_attempt (partner : Partner T σ) (d : Dialogue T α) (s : σ) :
    d.attempt.play partner s =
      ⟨.ok (d.play partner s).outcome, (d.play partner s).exchanges,
        (d.play partner s).state⟩ := by
  induction d generalizing s with
  | done a => rfl
  | fail f => rfl
  | ask q continuation ih => simp only [attempt, play, ih, Course.behind]

end Dialogue

end ReleaseTrain
