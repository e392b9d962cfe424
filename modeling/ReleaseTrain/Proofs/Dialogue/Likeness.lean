import Mathlib.Data.List.Forall2
import ReleaseTrain.Proofs.Dialogue.Unfolding

/-!
# Dialogues that are alike

Two dialogues are alike up to a relation between exchanges if they ask in step with each
other, each question of the one being related to that of the other whatever is answered,
and end in the same way.

* `Alike`, with `Alike.bind` and `Alike.attempt`: dialogues that are put together from
  parts that are alike are alike.
* `Respects`: a partner who makes no difference between what is related.
* `Alike.play`: with such a partner, dialogues that are alike end in the same way, and
  their exchanges are related one by one.
-/

namespace ReleaseTrain.Dialogue

variable {T : Topic} {α β σ : Type} {R : Exchange T → Exchange T → Prop}

/-- Two dialogues that ask in step with each other, up to a relation between exchanges.
An answer to the one is turned into an answer to the other. -/
inductive Alike (R : Exchange T → Exchange T → Prop) : Dialogue T α → Dialogue T α → Prop
  | done (a : α) : Alike R (done a) (done a)
  | fail (f : Failure) : Alike R (fail f) (fail f)
  | ask {q q' : T.Question} {next : T.Answer q → Dialogue T α} {next' : T.Answer q' → Dialogue T α}
      (turn : T.Answer q → T.Answer q') (related : ∀ answer, R ⟨q, answer⟩ ⟨q', turn answer⟩)
      (rest : ∀ answer, Alike R (next answer) (next' (turn answer))) :
      Alike R (ask q next) (ask q' next')

theorem Alike.ofExcept (e : Except Failure α) :
    Alike R (Dialogue.ofExcept e) (Dialogue.ofExcept e) := by
  cases e with
  | ok a => exact .done a
  | error f => exact .fail f

theorem Alike.bind {d d' : Dialogue T α} {next next' : α → Dialogue T β} (h : Alike R d d')
    (hnext : ∀ a, Alike R (next a) (next' a)) : Alike R (d >>= next) (d' >>= next') := by
  induction h with
  | done a => exact hnext a
  | fail f => exact .fail f
  | ask turn related _ ih => exact .ask turn related ih

theorem Alike.attempt {d d' : Dialogue T α} (h : Alike R d d') : Alike R d.attempt d'.attempt := by
  induction h with
  | done a => exact .done (Except.ok a)
  | fail f => exact .done (Except.error f)
  | ask turn related _ ih => exact .ask turn related ih

/-- A partner who makes no difference between exchanges that are related: what leads to
the one in a state leads to the other, and to the same state. -/
def Respects (R : Exchange T → Exchange T → Prop) (partner : Partner T σ) : Prop :=
  ∀ e e' s s', R e e' → partner e.question s = (e.answer, s') →
    partner e'.question s = (e'.answer, s')

/-- With a partner who makes no difference, dialogues that are alike end in the same way
and in the same state, and their exchanges are related one by one. -/
theorem Alike.play {d d' : Dialogue T α} (h : Alike R d d') {partner : Partner T σ}
    (hpartner : Respects R partner) (s : σ) :
    (d'.play partner s).outcome = (d.play partner s).outcome ∧
      (d'.play partner s).state = (d.play partner s).state ∧
      List.Forall₂ R (d.play partner s).exchanges (d'.play partner s).exchanges := by
  induction h generalizing s with
  | done a => exact ⟨rfl, rfl, .nil⟩
  | fail f => exact ⟨rfl, rfl, .nil⟩
  | @ask q q' next next' turn related rest ih =>
    have hanswer := hpartner _ _ s (partner q s).2 (related (partner q s).1) rfl
    obtain ⟨houtcome, hstate, hexchanges⟩ := ih (partner q s).1 (partner q s).2
    rw [Dialogue.play, Dialogue.play, hanswer]
    exact ⟨houtcome, hstate, .cons (related _) hexchanges⟩

end ReleaseTrain.Dialogue
