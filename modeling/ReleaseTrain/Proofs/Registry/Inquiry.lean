import ReleaseTrain.Proofs.Dialogue.Unfolding
import ReleaseTrain.Proofs.Entries
import ReleaseTrain.Registry

/-!
# Asking a registry

* `Inquiry`: what asking a registry for a version can consist of, and how it ends;
  `inquiry_of_unfolds`: there is nothing else.
* `judged`: what is made of an answer; `Inquiry.exists_judged`: the first answer decides.
* `dateAmong_eq`: the date of a version is that of the first entry of the version.
* `Response.Confirms`: what a registry has answered when a date was found, and
  `confirms_of_read`.
-/

namespace ReleaseTrain

/-- A registry has answered with an entry for a version that has a date.  An entry of
the version that stands before it would count in its place. -/
def Response.Confirms (response : Response) (version : String) (date : Value) : Prop :=
  response.status ≠ 404 ∧ ¬(400 ≤ response.status ∧ response.status < 600) ∧
    ∃ data versions entry,
      Json.parse response.body = .ok (.table data) ∧
      Entries.get? (.whole "versions") data = some (.list versions) ∧
      versions.find? (Value.hasText "num" version) = some (.table entry) ∧
      Entries.get? (.whole "updated_at") entry = some date ∧ date.isTruthy = true

namespace Registry

open Dialogue

/-- A request for what a registry has to say about a crate, with its answer. -/
abbrev fetched (client : Client) (name : String) (answer : Except Failure Response) :
    Exchange world :=
  ⟨.get (client.addressOf name) client.limit client.agent, answer⟩

/-- The warning that there is no usable answer. -/
abbrev warned (client : Client) (name reason : String) : Exchange world :=
  ⟨.warn ("[registry] ⚠️ запрос " ++ client.addressOf name ++ " не удался: " ++ reason), ()⟩

/-- What asking a registry can consist of, and how it ends. -/
inductive Inquiry (client : Client) (name version : String) :
    List (Exchange world) → Except Failure Value → Prop
  | lost {f : Failure} (usual : (f.isTransport || f.isUnusable) = true) :
      Inquiry client name version [fetched client name (.error f), warned client name f.message]
        (.ok .null)
  | broken {f : Failure} (unusual : (f.isTransport || f.isUnusable) = false) :
      Inquiry client name version [fetched client name (.error f)] (.error f)
  | unreadable {response : Response} {f : Failure}
      (h : read (client.addressOf name) version response = .error f) :
      Inquiry client name version [fetched client name (.ok response)] (.error f)
  | useless {response : Response} {reason : String}
      (h : read (client.addressOf name) version response = .ok (.error reason)) :
      Inquiry client name version
        [fetched client name (.ok response), warned client name reason] (.ok .null)
  | answered {response : Response} {date : Value}
      (h : read (client.addressOf name) version response = .ok (.ok date)) :
      Inquiry client name version [fetched client name (.ok response)] (.ok date)

variable {client : Client} {name version : String} {es : List (Exchange world)}

theorem unfolds_noAnswer_iff {reason : String} {o : Except Failure Value} :
    (Client.noAnswer (client.addressOf name) reason).Unfolds es o ↔
      es = [warned client name reason] ∧ o = .ok .null := by
  rw [Client.noAnswer, World.warn, unfolds_order_bind_iff () fun _ => rfl]
  constructor
  · rintro ⟨rest, rfl, h⟩
    rw [unfolds_pure_iff] at h
    obtain ⟨rfl, rfl⟩ := h
    exact ⟨rfl, rfl⟩
  · rintro ⟨rfl, rfl⟩
    exact ⟨[], rfl, unfolds_pure_iff.mpr ⟨rfl, rfl⟩⟩

/-- Whatever is asked of a registry is an inquiry. -/
theorem inquiry_of_unfolds {o : Except Failure Value}
    (h : (client.publishedAt name version).Unfolds es o) : Inquiry client name version es o := by
  rw [Client.publishedAt, World.get, unfolds_ask_bind_iff] at h
  obtain ⟨answer, rest, rfl, h⟩ := h
  rw [done_bind] at h
  cases answer with
  | error f =>
    dsimp only at h
    cases husual : f.isTransport || f.isUnusable with
    | true =>
      rw [if_pos husual, unfolds_noAnswer_iff] at h
      obtain ⟨rfl, rfl⟩ := h
      exact .lost husual
    | false =>
      rw [if_neg (by simp [husual]), unfolds_fail_iff] at h
      obtain ⟨rfl, rfl⟩ := h
      exact .broken husual
  | ok response =>
    dsimp only at h
    split at h
    next f hread =>
      rw [unfolds_fail_iff] at h
      obtain ⟨rfl, rfl⟩ := h
      exact .unreadable hread
    next reason hread =>
      rw [unfolds_noAnswer_iff] at h
      obtain ⟨rfl, rfl⟩ := h
      exact .useless hread
    next date hread =>
      rw [unfolds_pure_iff] at h
      obtain ⟨rfl, rfl⟩ := h
      exact .answered hread

/-- What is made of the answer of a registry. -/
def judged (client : Client) (name version : String) :
    Except Failure Response → Except Failure Value
  | .error f => if f.isTransport || f.isUnusable then .ok .null else .error f
  | .ok response =>
    match read (client.addressOf name) version response with
    | .error f => .error f
    | .ok (.error _) => .ok .null
    | .ok (.ok date) => .ok date

/-- An inquiry is one request and, perhaps, a warning, and its answer decides how it ends. -/
theorem Inquiry.exists_judged {o : Except Failure Value} (h : Inquiry client name version es o) :
    ∃ answer, o = judged client name version answer ∧
      (es = [fetched client name answer] ∨
        ∃ reason, es = [fetched client name answer, warned client name reason]) := by
  cases h with
  | @lost f usual => exact ⟨.error f, (if_pos usual).symm, .inr ⟨_, rfl⟩⟩
  | @broken f unusual => exact ⟨.error f, (if_neg (by simp [unusual])).symm, .inl rfl⟩
  | @unreadable response f h => exact ⟨.ok response, by rw [judged, h], .inl rfl⟩
  | @useless response reason h => exact ⟨.ok response, by rw [judged, h], .inr ⟨_, rfl⟩⟩
  | @answered response date h => exact ⟨.ok response, by rw [judged, h], .inl rfl⟩

/-! ## What an answer says -/

/-- The date in an entry; one that counts as absent is none. -/
def dateOf (entry : Entries Text Value) : Value :=
  let date := (Entries.get? (.whole "updated_at") entry).getD .null
  if date.isTruthy then date else .null

/-- The first entry of a version decides on its date. -/
theorem dateAmong_eq (items : List Value) :
    dateAmong version items =
      match items.find? (Value.hasText "num" version) with
      | some (.table entry) => dateOf entry
      | _ => .null := by
  induction items with
  | nil => rfl
  | cons v rest ih =>
    cases v with
    | table entry =>
      by_cases hnum : Value.hasText "num" version (.table entry) = true
      · rw [List.find?_cons_of_pos hnum, dateAmong, Value.hasText_table.mp hnum]
        dsimp only
        rw [if_pos rfl, dateOf]
      · rw [List.find?_cons_of_neg hnum, ← ih, dateAmong]
        rw [Value.hasText_table] at hnum
        split
        next t ht =>
          rw [ht, Option.some_inj, Value.text.injEq] at hnum
          rw [if_neg hnum]
        next => rfl
    | _ => exact ih

theorem eq_of_isTruthy_dateOf {entry : Entries Text Value} {date : Value}
    (h : dateOf entry = date) (there : date.isTruthy = true) :
    Entries.get? (.whole "updated_at") entry = some date := by
  unfold dateOf at h
  cases hdate : Entries.get? (.whole "updated_at") entry with
  | none =>
    rw [hdate] at h
    subst h
    cases there
  | some found =>
    rw [hdate] at h
    by_cases hfound : found.isTruthy = true
    · simp only [Option.getD_some, hfound, if_true] at h
      rw [h]
    · simp only [Option.getD_some, hfound] at h
      subst h
      cases there

/-- A date that was found in what a registry says is that of the first entry of the
version. -/
theorem first_of_dateIn {data date : Value} (h : dateIn version data = .ok date)
    (there : date.isTruthy = true) :
    ∃ entries versions entry, data = .table entries ∧
      Entries.get? (.whole "versions") entries = some (.list versions) ∧
      versions.find? (Value.hasText "num" version) = some (.table entry) ∧
      Entries.get? (.whole "updated_at") entry = some date := by
  cases data with
  | table entries =>
    rw [dateIn] at h
    split at h
    next hversions =>
      split at h
      next members hmembers =>
        have hdate := Except.ok.inj h
        rw [dateAmong_eq] at hdate
        split at hdate
        next entry hfirst =>
          have hlist := Value.exists_list_of_find?_members hmembers hfirst
          cases hget : Entries.get? (.whole "versions") entries with
          | none =>
            rw [hget] at hversions
            cases hversions
          | some versions =>
            rw [hget] at hlist
            exact ⟨entries, members, entry, rfl, hget.trans (congrArg some hlist), hfirst,
              eq_of_isTruthy_dateOf hdate there⟩
        next =>
          subst hdate
          cases there
      next => cases h
    next =>
      cases h
      cases there
  | _ =>
    cases h
    cases there

theorem refusal?_eq_none_iff {address : String} {response : Response} :
    refusal? address response = none ↔ ¬(400 ≤ response.status ∧ response.status < 600) := by
  unfold refusal?
  by_cases hclient : 400 ≤ response.status ∧ response.status < 500
  · rw [if_pos hclient]
    have hrange : 400 ≤ response.status ∧ response.status < 600 := by omega
    simp [hrange]
  · rw [if_neg hclient]
    by_cases hserver : 500 ≤ response.status ∧ response.status < 600
    · rw [if_pos hserver]
      have hrange : 400 ≤ response.status ∧ response.status < 600 := by omega
      simp [hrange]
    · rw [if_neg hserver]
      have hrange : ¬(400 ≤ response.status ∧ response.status < 600) := by omega
      simp [hrange]

/-- A date that counts comes from an answer that confirms the version. -/
theorem confirms_of_read {address : String} {response : Response} {date : Value}
    (h : read address version response = .ok (.ok date)) (there : date.isTruthy = true) :
    response.Confirms version date := by
  unfold read at h
  split at h
  next =>
    cases h
    cases there
  next hfound =>
    split at h
    next => cases h
    next hnone =>
      split at h
      next data hparse =>
        cases hdate : dateIn version data with
        | error f =>
          rw [hdate] at h
          cases h
        | ok date' =>
          rw [hdate] at h
          cases h
          obtain ⟨entries, versions, entry, rfl, hversions, hfirst, hentry⟩ :=
            first_of_dateIn hdate there
          exact ⟨hfound, refusal?_eq_none_iff.mp hnone, entries, versions, entry, hparse,
            hversions, hfirst, hentry, there⟩
      next error hparse =>
        dsimp only at h
        split at h
        · cases h
        · cases h

/-- An inquiry that ends with a date that counts has got an answer that confirms the
version. -/
theorem Inquiry.exists_confirms {date : Value} (h : Inquiry client name version es (.ok date))
    (there : date.isTruthy = true) :
    ∃ response, es = [fetched client name (.ok response)] ∧ response.Confirms version date := by
  cases h with
  | lost usual => cases there
  | useless h => cases there
  | @answered response _ h => exact ⟨response, rfl, confirms_of_read h there⟩

end Registry

end ReleaseTrain
