import ReleaseTrain.Proofs.Dialogue.Unfolding

/-!
# Laws of carrying out

`Dialogue.via` carries a dialogue out on another topic.  It goes along with the ways in
which dialogues are put together, so what is carried out can be read part by part.

* `via_bind`: two parts in a row are carried out in a row.
* `attempt_bind`, `attempt_bind_ofExcept`: what catching a failure does to two parts in a
  row, and that it is undone by failing again.
* `via_attempt`: a failure that is caught is caught in what is carried out, if spelling
  out a question never fails.
-/

namespace ReleaseTrain.Dialogue

variable {T U : Topic} {α β : Type} {reply : (q : T.Question) → Dialogue U (T.Answer q)}

@[simp] theorem via_done (a : α) : (done a : Dialogue T α).via reply = done a := rfl

@[simp] theorem via_fail (f : Failure) : (fail f : Dialogue T α).via reply = fail f := rfl

theorem via_ask (q : T.Question) (next : T.Answer q → Dialogue T α) :
    (ask q next).via reply = reply q >>= fun answer => (next answer).via reply := rfl

@[simp] theorem via_ofExcept (e : Except Failure α) :
    (ofExcept e : Dialogue T α).via reply = ofExcept e := by
  cases e with
  | ok a => rfl
  | error f => rfl

/-- Two parts in a row are carried out in a row. -/
theorem via_bind (d : Dialogue T α) (next : α → Dialogue T β) :
    (d >>= next).via reply = d.via reply >>= fun a => (next a).via reply := by
  induction d with
  | done a => rfl
  | fail f => rfl
  | ask q continuation ih => simp only [ask_bind, via_ask, ih, bind_assoc]

/-- To catch the failure of two parts in a row is to catch that of the first one and, if
there is none, that of the second one. -/
theorem attempt_bind (d : Dialogue T α) (next : α → Dialogue T β) :
    (d >>= next).attempt = d.attempt >>= fun o =>
      match o with
      | .ok a => (next a).attempt
      | .error f => done (.error f) := by
  induction d with
  | done a => rfl
  | fail f => rfl
  | ask q continuation ih => simp only [ask_bind, attempt, ih]

/-- To catch a failure and to fail with it is to do nothing about it. -/
theorem attempt_bind_ofExcept (d : Dialogue T α) : d.attempt >>= ofExcept = d := by
  induction d with
  | done a => rfl
  | fail f => rfl
  | ask q next ih => simp only [attempt, ask_bind, ih]

/-- A dialogue in which a failure was caught does not fail. -/
theorem attempt_attempt (d : Dialogue T α) :
    d.attempt.attempt = d.attempt >>= fun o => done (.ok o) := by
  induction d with
  | done a => rfl
  | fail f => rfl
  | ask q next ih => simp only [attempt, ask_bind, ih]

/-- A failure that is caught is caught in what is carried out. -/
theorem via_attempt (hreply : ∀ q, (reply q).attempt = reply q >>= fun answer => done (.ok answer))
    (d : Dialogue T α) : d.attempt.via reply = (d.via reply).attempt := by
  induction d with
  | done a => rfl
  | fail f => rfl
  | ask q next ih => simp only [attempt, via_ask, ih, attempt_bind, hreply, bind_assoc, done_bind]

end ReleaseTrain.Dialogue
