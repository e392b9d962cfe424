import ReleaseTrain.Dialogue

/-!
# The unfoldings of a dialogue

What a dialogue does depends on the answers that it gets and on nothing else.
`Dialogue.Unfolds d es o` says that some answers make `d` go through the
exchanges `es` and end as `o`.  Whatever holds of all unfoldings of a dialogue
therefore holds whoever answers, and no state of a partner has to be carried
through the proof.

* `unfolds_bind_iff`, `unfolds_attempt_iff`: the unfoldings of two parts in a row
  and of a part whose failure is caught.
* `unfolds_play`: the course of a dialogue with a partner is an unfolding, and
  `exists_play_of_unfolds`: every unfolding is the course with some partner, so
  the two ways to say "whatever the others do" agree.
* `Expansion`: exchanges on one topic, each spelled out as exchanges on another,
  and `exists_expansion_of_unfolds_via`: what is carried out on another topic is
  an unfolding, spelled out.
-/

namespace ReleaseTrain

namespace Dialogue

variable {T U : Topic} {α β : Type}

/-- Some answers lead a dialogue through these exchanges to this end. -/
inductive Unfolds : Dialogue T α → List (Exchange T) → Except Failure α → Prop
  | done (a : α) : Unfolds (done a) [] (.ok a)
  | fail (f : Failure) : Unfolds (fail f) [] (.error f)
  | ask {question : T.Question} {next : T.Answer question → Dialogue T α}
      (answer : T.Answer question) {es : List (Exchange T)} {o : Except Failure α}
      (rest : Unfolds (next answer) es o) :
      Unfolds (ask question next) (⟨question, answer⟩ :: es) o

variable {es : List (Exchange T)}

/-! ## One lemma for each way to build a dialogue -/

@[simp] theorem ofExcept_ok (a : α) : (ofExcept (.ok a) : Dialogue T α) = done a := rfl

@[simp] theorem ofExcept_error (f : Failure) : (ofExcept (.error f) : Dialogue T α) = fail f := rfl

/-- What holds of whatever result there is holds of a result. -/
theorem exists_of_any_toOption {e : Except Failure α} {p : α → Bool}
    (h : e.toOption.any p = true) : ∃ a, e = .ok a ∧ p a = true := by
  cases e with
  | error f => cases h
  | ok a => exact ⟨a, rfl, h⟩

theorem ofExcept_bind (e : Except Failure α) (next : α → Except Failure β) :
    (ofExcept (e >>= next) : Dialogue T β) = ofExcept e >>= fun a => ofExcept (next a) := by
  cases e with
  | error f => rfl
  | ok a => rfl

theorem unfolds_done_iff {a : α} {o : Except Failure α} :
    (done a : Dialogue T α).Unfolds es o ↔ es = [] ∧ o = .ok a := by
  constructor
  · rintro ⟨⟩
    exact ⟨rfl, rfl⟩
  · rintro ⟨rfl, rfl⟩
    exact .done a

theorem unfolds_fail_iff {f : Failure} {o : Except Failure α} :
    (fail f : Dialogue T α).Unfolds es o ↔ es = [] ∧ o = .error f := by
  constructor
  · rintro ⟨⟩
    exact ⟨rfl, rfl⟩
  · rintro ⟨rfl, rfl⟩
    exact .fail f

theorem unfolds_ask_iff {q : T.Question} {next : T.Answer q → Dialogue T α}
    {o : Except Failure α} :
    (ask q next).Unfolds es o ↔
      ∃ answer rest, es = ⟨q, answer⟩ :: rest ∧ (next answer).Unfolds rest o := by
  constructor
  · rintro ⟨⟩
    exact ⟨_, _, rfl, by assumption⟩
  · rintro ⟨answer, rest, rfl, h⟩
    exact .ask answer h

theorem unfolds_pure_iff {a : α} {o : Except Failure α} :
    (pure a : Dialogue T α).Unfolds es o ↔ es = [] ∧ o = .ok a := unfolds_done_iff

theorem unfolds_ask_bind_iff {q : T.Question} {continuation : T.Answer q → Dialogue T α}
    {next : α → Dialogue T β} {o : Except Failure β} :
    (ask q continuation >>= next).Unfolds es o ↔
      ∃ answer rest, es = ⟨q, answer⟩ :: rest ∧ (continuation answer >>= next).Unfolds rest o :=
  unfolds_ask_iff

/-- A question that has one answer only. -/
theorem unfolds_order_bind_iff {q : T.Question} (answer : T.Answer q)
    (only : ∀ answer', answer' = answer) {next : T.Answer q → Dialogue T β}
    {o : Except Failure β} :
    (ask q done >>= next).Unfolds es o ↔
      ∃ rest, es = ⟨q, answer⟩ :: rest ∧ (next answer).Unfolds rest o := by
  rw [unfolds_ask_bind_iff]
  constructor
  · rintro ⟨answer', rest, rfl, h⟩
    obtain rfl := only answer'
    exact ⟨rest, rfl, h⟩
  · rintro ⟨rest, rfl, h⟩
    exact ⟨answer, rest, rfl, h⟩

theorem unfolds_ofExcept_iff {e o : Except Failure α} :
    (ofExcept e : Dialogue T α).Unfolds es o ↔ es = [] ∧ o = e := by
  cases e with
  | error f => exact unfolds_fail_iff
  | ok a => exact unfolds_done_iff

theorem unfolds_ofExcept_bind_iff {e : Except Failure α} {next : α → Dialogue T β}
    {o : Except Failure β} :
    (ofExcept e >>= next).Unfolds es o ↔
      (∃ f, e = .error f ∧ es = [] ∧ o = .error f) ∨ ∃ a, e = .ok a ∧ (next a).Unfolds es o := by
  cases e with
  | error f => simp [unfolds_fail_iff]
  | ok a => simp

/-- A call that may fail: it fails and nothing follows, or the next part goes on
with what it gave.  `make` and `read` say that the answer is a failure or a result. -/
theorem unfolds_call_bind_iff {q : T.Question} (make : Except Failure α → T.Answer q)
    (read : T.Answer q → Except Failure α) (hmake : ∀ answer, make (read answer) = answer)
    (hread : ∀ e, read (make e) = e)
    {next : α → Dialogue T β} {o : Except Failure β} :
    ((ask q fun answer => ofExcept (read answer)) >>= next).Unfolds es o ↔
      (∃ f, es = [⟨q, make (.error f)⟩] ∧ o = .error f) ∨
        ∃ a rest, es = ⟨q, make (.ok a)⟩ :: rest ∧ (next a).Unfolds rest o := by
  rw [unfolds_ask_bind_iff]
  constructor
  · rintro ⟨answer, rest, rfl, h⟩
    rw [unfolds_ofExcept_bind_iff] at h
    rcases h with ⟨f, hf, rfl, rfl⟩ | ⟨a, ha, h⟩
    · exact .inl ⟨f, by rw [← hf, hmake], rfl⟩
    · exact .inr ⟨a, rest, by rw [← ha, hmake], h⟩
  · rintro (⟨f, rfl, rfl⟩ | ⟨a, rest, rfl, h⟩)
    · exact ⟨_, [], rfl, unfolds_ofExcept_bind_iff.mpr (.inl ⟨f, hread _, rfl, rfl⟩)⟩
    · exact ⟨_, rest, rfl, unfolds_ofExcept_bind_iff.mpr (.inr ⟨a, hread _, h⟩)⟩

/-- Two parts in a row: the first one fails, or it ends well and the second one
goes on behind it. -/
theorem unfolds_bind_iff {d : Dialogue T α} {next : α → Dialogue T β} {o : Except Failure β} :
    (d >>= next).Unfolds es o ↔
      (∃ f, d.Unfolds es (.error f) ∧ o = .error f) ∨
        ∃ a es₁ es₂, d.Unfolds es₁ (.ok a) ∧ (next a).Unfolds es₂ o ∧ es = es₁ ++ es₂ := by
  constructor
  · intro h
    induction d generalizing es with
    | done a => exact .inr ⟨a, [], es, .done a, h, rfl⟩
    | fail f =>
      obtain ⟨rfl, rfl⟩ := unfolds_fail_iff.mp h
      exact .inl ⟨f, .fail f, rfl⟩
    | ask q continuation ih =>
      obtain ⟨answer, rest, rfl, hrest⟩ := unfolds_ask_iff.mp h
      rcases ih answer hrest with ⟨f, hf, rfl⟩ | ⟨a, es₁, es₂, h₁, h₂, rfl⟩
      · exact .inl ⟨f, .ask answer hf, rfl⟩
      · exact .inr ⟨a, _, es₂, .ask answer h₁, h₂, rfl⟩
  · rintro (⟨f, h, rfl⟩ | ⟨a, es₁, es₂, h₁, h₂, rfl⟩)
    · generalize ho : Except.error f = o at h
      induction h with
      | done a => cases ho
      | fail g =>
        cases ho
        exact .fail f
      | ask answer _ ih => exact .ask answer (ih ho)
    · generalize ho : Except.ok a = o' at h₁
      induction h₁ with
      | done b =>
        cases ho
        exact h₂
      | fail g => cases ho
      | ask answer _ ih => exact .ask answer (ih ho)

/-- Catching a failure changes nothing in what is asked. -/
theorem unfolds_attempt_iff {d : Dialogue T α} {o : Except Failure (Except Failure α)} :
    d.attempt.Unfolds es o ↔ ∃ o', o = .ok o' ∧ d.Unfolds es o' := by
  constructor
  · intro h
    induction d generalizing es with
    | done a =>
      obtain ⟨rfl, rfl⟩ := unfolds_done_iff.mp h
      exact ⟨.ok a, rfl, .done a⟩
    | fail f =>
      obtain ⟨rfl, rfl⟩ := unfolds_done_iff.mp h
      exact ⟨.error f, rfl, .fail f⟩
    | ask q next ih =>
      obtain ⟨answer, rest, rfl, hrest⟩ := unfolds_ask_iff.mp h
      obtain ⟨o', rfl, h'⟩ := ih answer hrest
      exact ⟨o', rfl, .ask answer h'⟩
  · rintro ⟨o', rfl, h⟩
    induction h with
    | done a => exact .done (Except.ok a)
    | fail f => exact .done (Except.error f)
    | ask answer _ ih => exact .ask answer ih

/-! ## Unfoldings and courses -/

variable {σ : Type}

/-- The course of a dialogue with a partner is one of its unfoldings. -/
theorem unfolds_play (partner : Partner T σ) (d : Dialogue T α) (s : σ) :
    d.Unfolds (d.play partner s).exchanges (d.play partner s).outcome := by
  induction d generalizing s with
  | done a => exact .done a
  | fail f => exact .fail f
  | ask q next ih => exact .ask _ (ih _ _)

/-- Whatever is answered in a course is what the partner answers in some state. -/
theorem exists_state_of_mem_exchanges {partner : Partner T σ} {d : Dialogue T α} {s : σ}
    {e : Exchange T} (he : e ∈ (d.play partner s).exchanges) :
    ∃ s', e.answer = (partner e.question s').1 := by
  induction d generalizing s with
  | done a => cases he
  | fail f => cases he
  | ask q next ih =>
    rcases List.mem_cons.mp he with rfl | he
    · exact ⟨s, rfl⟩
    · exact ih _ he

open Classical in
/-- The partner who reads the answers off a list of exchanges. -/
noncomputable def reader (any : (q : T.Question) → T.Answer q) : Partner T (List (Exchange T))
  | q, [] => (any q, [])
  | q, e :: rest => if h : e.question = q then (h ▸ e.answer, rest) else (any q, rest)

/-- Every unfolding is the course with some partner, if every question has an
answer at all. -/
theorem exists_play_of_unfolds (any : (q : T.Question) → T.Answer q) {d : Dialogue T α}
    {o : Except Failure α} (h : d.Unfolds es o) : d.play (reader any) es = ⟨o, es, []⟩ := by
  induction h with
  | done a => rfl
  | fail f => rfl
  | ask answer _ ih => simp [play, reader, ih, Course.behind]

/-! ## Carrying a dialogue out on another topic -/

/-- The exchanges on one topic, each spelled out by a part on another topic that
ends with the same answer. -/
inductive Expansion (reply : (q : T.Question) → Dialogue U (T.Answer q)) :
    List (Exchange T) → List (Exchange U) → Prop
  | nil : Expansion reply [] []
  | cons {q : T.Question} {answer : T.Answer q} {piece : List (Exchange U)}
      {es : List (Exchange T)} {ws : List (Exchange U)}
      (first : (reply q).Unfolds piece (.ok answer)) (rest : Expansion reply es ws) :
      Expansion reply (⟨q, answer⟩ :: es) (piece ++ ws)

variable {reply : (q : T.Question) → Dialogue U (T.Answer q)} {ws : List (Exchange U)}

/-- What is carried out on another topic is an unfolding, spelled out, as long as
no part that spells out a question fails. -/
theorem exists_expansion_of_unfolds_via
    (hreply : ∀ q piece f, ¬(reply q).Unfolds piece (.error f)) {d : Dialogue T α}
    {o : Except Failure α} (h : (d.via reply).Unfolds ws o) :
    ∃ es, d.Unfolds es o ∧ Expansion reply es ws := by
  induction d generalizing ws with
  | done a =>
    obtain ⟨rfl, rfl⟩ := unfolds_done_iff.mp h
    exact ⟨[], .done a, .nil⟩
  | fail f =>
    obtain ⟨rfl, rfl⟩ := unfolds_fail_iff.mp h
    exact ⟨[], .fail f, .nil⟩
  | ask q next ih =>
    rcases unfolds_bind_iff.mp h with ⟨f, hf, -⟩ | ⟨answer, piece, ws', hpiece, hrest, rfl⟩
    · exact absurd hf (hreply q ws f)
    · obtain ⟨es, hes, hexp⟩ := ih answer hrest
      exact ⟨_, .ask answer hes, .cons hpiece hexp⟩

/-- Exchanges in a row are spelled out in a row. -/
theorem Expansion.exists_append {es es' : List (Exchange T)}
    (h : Expansion reply (es ++ es') ws) :
    ∃ ws₁ ws₂, Expansion reply es ws₁ ∧ Expansion reply es' ws₂ ∧ ws = ws₁ ++ ws₂ := by
  induction es generalizing ws with
  | nil => exact ⟨[], ws, .nil, h, rfl⟩
  | cons e es ih =>
    cases h with
    | cons first rest =>
      obtain ⟨ws₁, ws₂, h₁, h₂, rfl⟩ := ih rest
      exact ⟨_, ws₂, .cons first h₁, h₂, (List.append_assoc ..).symm⟩

/-- Some of the exchanges, in their order, are spelled out by some of what spells
out all of them, in the same order. -/
theorem Expansion.exists_sublist {es es' : List (Exchange T)} (h : Expansion reply es ws)
    (hsub : es'.Sublist es) : ∃ ws', Expansion reply es' ws' ∧ ws'.Sublist ws := by
  induction hsub generalizing ws with
  | slnil =>
    cases h
    exact ⟨[], .nil, .slnil⟩
  | cons e _ ih =>
    cases h with
    | cons first rest =>
      obtain ⟨ws', h', hws⟩ := ih rest
      exact ⟨ws', h', hws.trans (List.sublist_append_right _ _)⟩
  | cons_cons e _ ih =>
    cases h with
    | cons first rest =>
      obtain ⟨ws', h', hws⟩ := ih rest
      exact ⟨_, .cons first h', hws.append_left _⟩

end Dialogue

end ReleaseTrain
