import Mathlib.Data.List.TakeWhile
import ReleaseTrain.Proofs.Registry.Inquiry

/-!
# What the answer of a registry comes to

Asking a registry takes one request, and its answer decides on everything else: whether there is a
warning, whether there is a date, and whether the inquiry fails.

* `complaint?`: the reason for a warning; `play_publishedAt`: together with `judged` it says all
  that an inquiry leaves behind.
* `readAs`: what is made of a response, by its status and its body; `dateIn_eq_error_iff`: the
  documents that cannot be looked through.
* `Upsets`: the answers that an inquiry fails with; `judged_eq_ok_iff`: the ones that it gets a date
  from.
* `Troubled`: the answers that are worth a warning; `Interpreted`: what an inquiry owes to its
  answer.
* `answer_is_interpreted`: inquiries give what they owe; `inquiry_fails_exactly`: what they fail
  with, and what they do not.

## Why a document can end an inquiry

A body that is no document is worth a warning and no more.  But a body that is one can be nested
too deeply to be taken in, and its versions can be something that has no members, such as a number.
Neither is counted among the answers that cannot be used, so both end the inquiry.
-/

namespace ReleaseTrain

/-- Whether a registry has turned a request down.  To say that it does not know the crate is one
way to do so. -/
abbrev Response.IsRefused (response : Response) : Prop :=
  400 ≤ response.status ∧ response.status < 600

namespace Registry

open Dialogue

variable {σ : Type} {client : Client} {name version address : String} {response : Response}
  {answer : Except Failure Response} {date : Value} {f : Failure}

/-! ## One request and its answer -/

/-- The reason for a warning, if the answer of a registry is worth one. -/
def complaint? (client : Client) (name version : String) :
    Except Failure Response → Option String
  | .error f => if f.isTransport || f.isUnusable then some f.message else none
  | .ok response =>
    match read (client.addressOf name) version response with
    | .ok (.error reason) => some reason
    | _ => none

/-- An inquiry is one request and, if there is a reason, a warning, and it ends with what is made
of the answer. -/
theorem play_publishedAt (client : Client) (name version : String) (partner : Partner world σ)
    (s : σ) :
    let answer := (partner (.get (client.addressOf name) client.limit client.agent) s).1
    let course := (client.publishedAt name version).play partner s
    course.exchanges = fetched client name answer ::
        ((complaint? client name version answer).map (warned client name)).toList ∧
      course.outcome = judged client name version answer := by
  intro answer course
  have hinquiry : Inquiry client name version course.exchanges course.outcome :=
    inquiry_of_unfolds (unfolds_play partner _ s)
  obtain ⟨rest, hrest⟩ : ∃ rest, course.exchanges = fetched client name answer :: rest := ⟨_, rfl⟩
  rw [hrest] at hinquiry ⊢
  generalize course.outcome = o at hinquiry
  generalize answer = answer at hinquiry
  cases hinquiry with
  | lost usual => simp [complaint?, judged, usual]
  | broken unusual => simp [complaint?, judged, unusual]
  | unreadable h => simp [complaint?, judged, h]
  | useless h => simp [complaint?, judged, h]
  | answered h => simp [complaint?, judged, h]

/-! ## What is made of a response -/

/-- A document in a response that is no refusal is looked through. -/
theorem read_of_ok {data : Value} (heard : ¬response.IsRefused)
    (h : Json.parse response.body = .ok data) :
    read address version response = (dateIn version data).map .ok := by
  have known : response.status ≠ 404 := by omega
  rw [read, if_neg known, refusal?_eq_none_iff.mpr heard, h]

/-- A body that is no document is worth a warning, but for one that is nested too deeply. -/
theorem read_of_error {error : Json.Error} (heard : ¬response.IsRefused)
    (h : Json.parse response.body = .error error) :
    read address version response =
      if error = .tooDeep then .error .tooDeep else .ok (.error error.message) := by
  have known : response.status ≠ 404 := by omega
  rw [read, if_neg known, refusal?_eq_none_iff.mpr heard, h]
  cases error with
  | tooDeep => rfl
  | broken => rfl
  | tooManyDigits => rfl

/-- What a response is read as, by its status and its body. -/
inductive ReadAs (version : String) (response : Response) :
    Except Failure (Except String Value) → Prop
  | unknown (h : response.status = 404) : ReadAs version response (.ok (.ok .null))
  | refused (h : response.IsRefused) (known : response.status ≠ 404) (reason : String) :
      ReadAs version response (.ok (.error reason))
  | garbled (heard : ¬response.IsRefused) {error : Json.Error}
      (h : Json.parse response.body = .error error) (shallow : error ≠ .tooDeep) :
      ReadAs version response (.ok (.error error.message))
  | tooDeep (heard : ¬response.IsRefused) (h : Json.parse response.body = .error .tooDeep) :
      ReadAs version response (.error .tooDeep)
  | unlisted (heard : ¬response.IsRefused) {data : Value} {f : Failure}
      (h : Json.parse response.body = .ok data) (hf : dateIn version data = .error f) :
      ReadAs version response (.error f)
  | taken (heard : ¬response.IsRefused) {data date : Value}
      (h : Json.parse response.body = .ok data) (hdate : dateIn version data = .ok date) :
      ReadAs version response (.ok (.ok date))

theorem readAs (address version : String) (response : Response) :
    ReadAs version response (read address version response) := by
  by_cases hrefused : response.IsRefused
  · by_cases known : response.status = 404
    · rw [read, if_pos known]
      exact .unknown known
    · cases hrefusal : refusal? address response with
      | none => exact absurd hrefused (refusal?_eq_none_iff.mp hrefusal)
      | some reason =>
        rw [read, if_neg known, hrefusal]
        exact .refused hrefused known reason
  · cases hparse : Json.parse response.body with
    | ok data =>
      rw [read_of_ok hrefused hparse]
      cases hdate : dateIn version data with
      | ok date => exact .taken hrefused hparse hdate
      | error f => exact .unlisted hrefused hparse hdate
    | error error =>
      rw [read_of_error hrefused hparse]
      split
      next hdeep => exact .tooDeep hrefused (hdeep ▸ hparse)
      next shallow => exact .garbled hrefused hparse shallow

/-! ## What is made of a document -/

/-- What counts when it takes the place of nothing was there. -/
theorem eq_some_of_getD_null {found : Option Value} (h : (found.getD .null).isTruthy = true) :
    found = some (found.getD .null) := by
  cases found with
  | none => cases h
  | some v => rfl

/-- A date among versions counts, or it is none at all. -/
theorem isTruthy_or_eq_null_of_dateAmong (items : List Value) :
    (dateAmong version items).isTruthy = true ∨ dateAmong version items = .null := by
  rw [dateAmong_eq]
  split
  next entry _ =>
    rw [dateOf]
    split
    next there => exact .inl there
    next => exact .inr rfl
  next => exact .inr rfl

/-- A date in a document counts, or it is none at all. -/
theorem isTruthy_or_eq_null_of_dateIn {data : Value} (h : dateIn version data = .ok date) :
    date.isTruthy = true ∨ date = .null := by
  cases data with
  | table entries =>
    rw [dateIn] at h
    split at h
    next =>
      split at h
      next items _ =>
        obtain rfl := Except.ok.inj h
        exact isTruthy_or_eq_null_of_dateAmong items
      next => cases h
    next => exact .inr (Except.ok.inj h).symm
  | _ => exact .inr (Except.ok.inj h).symm

/-- What is no table has no date. -/
theorem dateIn_of_entries?_eq_none {data : Value} (h : data.entries? = none) :
    dateIn version data = .ok .null := by
  cases data with
  | table entries => cases h
  | _ => rfl

/-- Versions that are there but have no members end the reading of a document, and nothing else
does. -/
theorem dateIn_eq_error_iff {data : Value} :
    dateIn version data = .error f ↔
      ∃ entries versions, data = .table entries ∧
        Entries.get? (.whole "versions") entries = some versions ∧ versions.isTruthy = true ∧
        versions.members? = none ∧ f = .wrongKind .members versions := by
  constructor
  · intro h
    cases data with
    | table entries =>
      rw [dateIn] at h
      split at h
      next there =>
        split at h
        next => cases h
        next hmembers =>
          exact ⟨entries, _, rfl, eq_some_of_getD_null there, there, hmembers,
            (Except.error.inj h).symm⟩
      next => cases h
    | _ => cases h
  · rintro ⟨entries, versions, rfl, hget, there, hmembers, rfl⟩
    rw [dateIn, hget]
    simp [there, hmembers]

/-- A response that confirms a version is read as its date. -/
theorem read_of_confirms (h : response.Confirms version date) :
    read address version response = .ok (.ok date) := by
  obtain ⟨-, hread, data, items, entry, hdata, hitems, hentry, hdate, there⟩ := h
  have hsome : (Value.list items).isTruthy = true := by
    cases items with
    | nil => cases hentry
    | cons _ _ => rfl
  have hdated : dateOf entry = date := by
    rw [dateOf, hdate]
    exact if_pos there
  rw [read_of_ok hread hdata, dateIn, hitems]
  simp [hsome, Value.members?, dateAmong_eq, hentry, hdated, Except.map]

/-! ## How an inquiry ends -/

/-- The answers that an inquiry fails with: a failure that is neither of the way to the registry
nor one of use, and two kinds of documents. -/
inductive Upsets : Except Failure Response → Failure → Prop
  | foreign {f : Failure} (unusual : (f.isTransport || f.isUnusable) = false) : Upsets (.error f) f
  | tooDeep {response : Response} (heard : ¬response.IsRefused)
      (h : Json.parse response.body = .error .tooDeep) : Upsets (.ok response) .tooDeep
  | unlisted {response : Response} {data : Entries Text Value} {versions : Value}
      (heard : ¬response.IsRefused) (h : Json.parse response.body = .ok (.table data))
      (hversions : Entries.get? (.whole "versions") data = some versions)
      (there : versions.isTruthy = true) (memberless : versions.members? = none) :
      Upsets (.ok response) (.wrongKind .members versions)

theorem judged_eq_error_iff :
    judged client name version answer = .error f ↔ Upsets answer f := by
  constructor
  · intro h
    cases answer with
    | error g =>
      rw [judged] at h
      split at h
      next => cases h
      next unusual =>
        obtain rfl := Except.error.inj h
        exact .foreign (by simpa using unusual)
    | ok response =>
      have hread := readAs (client.addressOf name) version response
      rw [judged] at h
      generalize read (client.addressOf name) version response = result at h hread
      cases hread with
      | unknown => cases h
      | refused => cases h
      | garbled => cases h
      | tooDeep heard hparse =>
        cases h
        exact .tooDeep heard hparse
      | unlisted heard hparse hf =>
        cases h
        obtain ⟨data, versions, rfl, hversions, there, memberless, rfl⟩ :=
          dateIn_eq_error_iff.mp hf
        exact .unlisted heard hparse hversions there memberless
      | taken => cases h
  · intro h
    cases h with
    | foreign unusual => simp [judged, unusual]
    | tooDeep heard hparse =>
      rw [judged, read_of_error heard hparse]
      rfl
    | @unlisted _ data versions heard hparse hversions there memberless =>
      have hdate : dateIn version (.table data) = .error (.wrongKind .members versions) :=
        dateIn_eq_error_iff.mpr ⟨data, versions, rfl, hversions, there, memberless, rfl⟩
      rw [judged, read_of_ok heard hparse, hdate]
      rfl

/-- An inquiry ends with a date that counts exactly if the answer confirms the version. -/
theorem judged_eq_ok_iff (there : date.isTruthy = true) :
    judged client name version answer = .ok date ↔
      ∃ response, answer = .ok response ∧ response.Confirms version date := by
  constructor
  · intro h
    cases answer with
    | error f =>
      rw [judged] at h
      split at h
      · cases h
        cases there
      · cases h
    | ok response =>
      rw [judged] at h
      split at h
      next => cases h
      next =>
        cases h
        cases there
      next date' hread =>
        cases h
        exact ⟨response, rfl, confirms_of_read hread there⟩
  · rintro ⟨response, rfl, hconfirms⟩
    rw [judged, read_of_confirms hconfirms]

/-- The end of an inquiry is a date that counts, or none at all, or a failure. -/
theorem isTruthy_or_eq_null_of_judged (h : judged client name version answer = .ok date) :
    date.isTruthy = true ∨ date = .null := by
  cases answer with
  | error f =>
    rw [judged] at h
    split at h
    · exact .inr (Except.ok.inj h).symm
    · cases h
  | ok response =>
    have hread := readAs (client.addressOf name) version response
    rw [judged] at h
    generalize read (client.addressOf name) version response = result at h hread
    cases hread with
    | unknown => exact .inr (Except.ok.inj h).symm
    | refused => exact .inr (Except.ok.inj h).symm
    | garbled => exact .inr (Except.ok.inj h).symm
    | tooDeep => cases h
    | unlisted => cases h
    | taken heard hparse hdate =>
      cases h
      exact isTruthy_or_eq_null_of_dateIn hdate

/-- An answer that neither upsets an inquiry nor confirms the version is as good as none. -/
theorem judged_eq_null (hupset : ∀ f, ¬Upsets answer f)
    (hunconfirmed : ∀ response date, answer = .ok response → ¬response.Confirms version date) :
    judged client name version answer = .ok .null := by
  cases h : judged client name version answer with
  | error f => exact absurd (judged_eq_error_iff.mp h) (hupset f)
  | ok date =>
    rcases isTruthy_or_eq_null_of_judged h with there | rfl
    · obtain ⟨response, hanswer, hconfirms⟩ := (judged_eq_ok_iff there).mp h
      exact absurd hconfirms (hunconfirmed response date hanswer)
    · rfl

/-! ## Warnings -/

/-- The answers that are worth a warning: the request was lost on its way or could not be used, it
was refused although the crate is known, or what came back is no document. -/
inductive Troubled : Except Failure Response → Prop
  | lost {f : Failure} (usual : (f.isTransport || f.isUnusable) = true) : Troubled (.error f)
  | refused {response : Response} (h : response.IsRefused) (known : response.status ≠ 404) :
      Troubled (.ok response)
  | garbled {response : Response} (heard : ¬response.IsRefused) {error : Json.Error}
      (h : Json.parse response.body = .error error) (shallow : error ≠ .tooDeep) :
      Troubled (.ok response)

theorem not_troubled_of_parse {data : Value} (heard : ¬response.IsRefused)
    (h : Json.parse response.body = .ok data) : ¬Troubled (.ok response) := by
  intro htroubled
  cases htroubled with
  | refused hrefused => exact heard hrefused
  | garbled _ h' => cases h'.symm.trans h

theorem not_troubled_of_notFound (h : response.status = 404) : ¬Troubled (.ok response) := by
  intro htroubled
  cases htroubled with
  | refused _ known => exact known h
  | garbled heard => exact heard (by omega)

theorem exists_complaint?_iff :
    (∃ reason, complaint? client name version answer = some reason) ↔ Troubled answer := by
  cases answer with
  | error f =>
    rw [complaint?]
    constructor
    · rintro ⟨reason, h⟩
      split at h
      next usual => exact .lost usual
      next => cases h
    · rintro ⟨usual⟩
      exact ⟨_, if_pos usual⟩
  | ok response =>
    have hread := readAs (client.addressOf name) version response
    rw [complaint?]
    generalize read (client.addressOf name) version response = result at hread
    cases hread with
    | unknown h => exact iff_of_false nofun (not_troubled_of_notFound h)
    | refused h known reason => exact iff_of_true ⟨reason, rfl⟩ (.refused h known)
    | garbled heard h shallow => exact iff_of_true ⟨_, rfl⟩ (.garbled heard h shallow)
    | tooDeep heard h =>
      refine iff_of_false nofun fun htroubled => ?_
      cases htroubled with
      | refused hrefused => exact heard hrefused
      | garbled _ h' shallow => exact shallow (Except.error.inj (h'.symm.trans h))
    | unlisted heard h => exact iff_of_false nofun (not_troubled_of_parse heard h)
    | taken heard h => exact iff_of_false nofun (not_troubled_of_parse heard h)

/-! ## The address -/

/-- The slashes at the end of an address are left out, and no others. -/
theorem withoutSlashes_spec (url : String) :
    (∃ slashes : Nat,
        url.toList = (withoutSlashes url).toList ++ List.replicate slashes '/') ∧
      (withoutSlashes url).toList.getLast? ≠ some '/' := by
  have hsplit : (url.toList.reverse.dropWhile (· = '/')).reverse ++
      (url.toList.reverse.takeWhile (· = '/')).reverse = url.toList := by
    rw [← List.reverse_append, List.takeWhile_append_dropWhile, List.reverse_reverse]
  have hslashes : ∀ c ∈ (url.toList.reverse.takeWhile (· = '/')).reverse, c = '/' := fun c hc => by
    simpa using List.mem_takeWhile_imp (List.mem_reverse.mp hc)
  rw [withoutSlashes, String.toList_ofList]
  refine ⟨⟨(url.toList.reverse.takeWhile (· = '/')).reverse.length, ?_⟩, fun hlast => ?_⟩
  · rw [← List.eq_replicate_of_mem hslashes, hsplit]
  · rw [List.getLast?_reverse] at hlast
    have hnot := List.head?_dropWhile_not (· = '/') url.toList.reverse
    rw [hlast] at hnot
    simp at hnot

/-! ## What an inquiry owes to its answer -/

/-- What an inquiry leaves behind and how it ends, to judge by the answer of the registry. -/
structure Interpreted (client : Client) (name version : String)
    (answer : Except Failure Response) (es : List (Exchange world)) (o : Except Failure Value) :
    Prop where
  /-- An answer that is worth a warning gets one, behind the one request that there is, and then
  there is no date. -/
  warned : Troubled answer →
    (∃ reason, es = [fetched client name answer, warned client name reason]) ∧ o = .ok .null
  /-- Any other answer gets none, and there is still one request. -/
  silent : ¬Troubled answer → es = [fetched client name answer]
  /-- A registry that does not know the crate has no date, whatever the body says. -/
  unknown : ∀ response, answer = .ok response → response.status = 404 →
    ¬Troubled answer ∧ o = .ok .null
  /-- A document that is no table has none. -/
  untabled : ∀ response data, answer = .ok response → ¬response.IsRefused →
    Json.parse response.body = .ok data → data.entries? = none → ¬Troubled answer ∧ o = .ok .null
  /-- The first entry of the version decides: if its date counts, it is the date, ... -/
  dated : ∀ response date, answer = .ok response → response.Confirms version date →
    ¬Troubled answer ∧ o = .ok date
  /-- ... and otherwise there is none, as long as the versions are a list or count as absent. -/
  undated : ∀ response data, answer = .ok response → ¬response.IsRefused →
    Json.parse response.body = .ok (.table data) →
    (∀ versions, Entries.get? (.whole "versions") data = some versions →
      versions.isTruthy = true → ∃ items, versions = .list items) →
    (∀ date, ¬response.Confirms version date) → ¬Troubled answer ∧ o = .ok .null

/-- A warning goes with an answer that gives no date. -/
theorem judged_of_complaint? {reason : String}
    (h : complaint? client name version answer = some reason) :
    judged client name version answer = .ok .null := by
  cases answer with
  | error f =>
    rw [complaint?] at h
    split at h
    next usual => rw [judged, if_pos usual]
    next => cases h
  | ok response =>
    rw [complaint?] at h
    split at h
    next reason' hread => rw [judged, hread]
    next => cases h

theorem interpreted_play (partner : Partner world σ) (s : σ) :
    Interpreted client name version
      (partner (.get (client.addressOf name) client.limit client.agent) s).1
      ((client.publishedAt name version).play partner s).exchanges
      ((client.publishedAt name version).play partner s).outcome := by
  obtain ⟨hexchanges, houtcome⟩ := play_publishedAt client name version partner s
  rw [hexchanges, houtcome]
  generalize (partner (.get (client.addressOf name) client.limit client.agent) s).1 = answer
  refine ⟨?_, ?_, ?_, ?_, ?_, ?_⟩
  · intro htroubled
    obtain ⟨reason, hreason⟩ := exists_complaint?_iff.mpr htroubled
    exact ⟨⟨reason, by rw [hreason]; rfl⟩, judged_of_complaint? hreason⟩
  · intro hquiet
    cases hreason : complaint? client name version answer with
    | none => rfl
    | some reason => exact absurd (exists_complaint?_iff.mp ⟨reason, hreason⟩) hquiet
  · rintro response rfl hstatus
    refine ⟨not_troubled_of_notFound hstatus, ?_⟩
    rw [judged, read, if_pos hstatus]
  · rintro response data rfl heard hdata hplain
    refine ⟨not_troubled_of_parse heard hdata, ?_⟩
    rw [judged, read_of_ok heard hdata, dateIn_of_entries?_eq_none hplain]
    rfl
  · rintro response date rfl hconfirms
    obtain ⟨-, heard, data, items, entry, hdata, -⟩ := id hconfirms
    refine ⟨not_troubled_of_parse heard hdata, ?_⟩
    rw [judged, read_of_confirms hconfirms]
  · rintro response data rfl heard hdata hlisted hunconfirmed
    refine ⟨not_troubled_of_parse heard hdata, judged_eq_null (fun f hupset => ?_) ?_⟩
    · cases hupset with
      | tooDeep _ hdeep => cases hdeep.symm.trans hdata
      | unlisted _ hdata' hversions there memberless =>
        cases hdata'.symm.trans hdata
        obtain ⟨items, rfl⟩ := hlisted _ hversions there
        cases memberless
    · rintro response' date hanswer
      cases hanswer
      exact hunconfirmed date

/-- **What an answer of a registry comes to.**  For every address there is a client of the registry
there.  Its address is the given one without the slashes at its end, and whatever is asked about a
crate is asked below it, in one request with the time limit of the client.  The answer decides on
the rest: there is a warning exactly if the answer is worth one, and the date is the one that the
first entry of the version has, if that counts. -/
theorem answer_is_interpreted (url : Text) (limit agent : Value) :
    ∃ client, Client.ofValues (.text url) limit agent = .ok client ∧ client.limit = limit ∧
      (∃ slashes : Nat,
        url.shown.toList = client.address.toList ++ List.replicate slashes '/') ∧
      client.address.toList.getLast? ≠ some '/' ∧
      ∀ (name version : String) (partner : Partner world σ) (s : σ),
        let request : Request := .get (client.address ++ "/" ++ name) limit client.agent
        let course := (client.publishedAt name version).play partner s
        Interpreted client name version (partner request s).1 course.exchanges course.outcome := by
  obtain ⟨hslashes, hlast⟩ := withoutSlashes_spec url.shown
  refine ⟨_, rfl, rfl, hslashes, hlast, fun name version partner s => ?_⟩
  exact interpreted_play partner s

/-- Whoever answers every request to a registry in one way.  Cargo is of no concern. -/
def answering (answer : Except Failure Response) : Partner world Unit
  | .say _, s | .warn _, s | .pause _, s => ((), s)
  | .cargo _ _ _, s => (.ok ⟨0, "", none⟩, s)
  | .get _ _ _, s => (answer, s)

theorem outcome_answering :
    ((client.publishedAt name version).play (answering answer) ()).outcome =
      judged client name version answer :=
  (play_publishedAt client name version (answering answer) ()).2

/-- An answer with four entries: one is no table, one is of another version, and of the other two
the first one decides. -/
def fourEntries : Response where
  status := 200
  reason := "OK"
  body := "\x7b\"versions\":[null,\x7b\"num\":\"0.9\",\"updated_at\":\"2022\"\x7d," ++
    "\x7b\"num\":\"1.0\",\"updated_at\":\"2023\"\x7d," ++
    "\x7b\"num\":\"1.0\",\"updated_at\":\"2024\"\x7d]\x7d"

set_option maxRecDepth 10000 in
/-- The address has two slashes at its end, and neither is asked for.  The first entry of the
version gives the date, without a warning. -/
theorem answer_is_interpreted_of_four :
    ∃ client,
      Client.ofValues (.text "https://registry.test/api/v1/crates//") (.whole 30) .null =
        .ok client ∧
      client.address = "https://registry.test/api/v1/crates" ∧
      fourEntries.Confirms "1.0" (.text "2023") ∧
      ((client.publishedAt "app" "1.0").play (answering (.ok fourEntries)) ()).exchanges =
        [⟨.get "https://registry.test/api/v1/crates/app" (.whole 30) none, .ok fourEntries⟩] ∧
      ((client.publishedAt "app" "1.0").play (answering (.ok fourEntries)) ()).outcome =
        .ok (.text "2023") := by
  have hparse : Json.parse fourEntries.body = .ok (.table [("versions", .list [.null,
      .table [("num", .text "0.9"), ("updated_at", .text "2022")],
      .table [("num", .text "1.0"), ("updated_at", .text "2023")],
      .table [("num", .text "1.0"), ("updated_at", .text "2024")]])]) := rfl
  have hconfirms : fourEntries.Confirms "1.0" (.text "2023") :=
    ⟨by decide, by decide, _, _, _, hparse, rfl, rfl, rfl, rfl⟩
  obtain ⟨client, hclient, -, -, -, hinterpreted⟩ :=
    answer_is_interpreted (σ := Unit) "https://registry.test/api/v1/crates//" (.whole 30) .null
  cases hclient
  have h := hinterpreted "app" "1.0" (answering (.ok fourEntries)) ()
  obtain ⟨hquiet, houtcome⟩ := h.dated fourEntries _ rfl hconfirms
  exact ⟨_, rfl, rfl, hconfirms, h.silent hquiet, houtcome⟩

/-! ## What an inquiry fails with -/

/-- **What an inquiry fails with.**  An inquiry fails exactly if its answer upsets it, and then with
what upsets it.  It ends with a date that counts exactly if the answer confirms the version with
this date, and if neither is the case, it ends with no date. -/
theorem inquiry_fails_exactly (client : Client) (name version : String)
    (partner : Partner world σ) (s : σ) :
    let answer := (partner (.get (client.addressOf name) client.limit client.agent) s).1
    let outcome := ((client.publishedAt name version).play partner s).outcome
    (∀ f, outcome = .error f ↔ Upsets answer f) ∧
      (∀ date, date.isTruthy = true → (outcome = .ok date ↔
        ∃ response, answer = .ok response ∧ response.Confirms version date)) ∧
      ((∀ f, ¬Upsets answer f) →
        (∀ response date, answer = .ok response → ¬response.Confirms version date) →
          outcome = .ok .null) := by
  intro answer outcome
  have houtcome : outcome = judged client name version answer :=
    (play_publishedAt client name version partner s).2
  rw [houtcome]
  exact ⟨fun f => judged_eq_error_iff, fun date => judged_eq_ok_iff, judged_eq_null⟩

set_option maxRecDepth 10000 in
/-- The answer is a document, and a success at that, but where the versions are expected there is a
number.  The inquiry ends neither with a date nor without one, it fails. -/
theorem counted_versions_upset :
    let response : Response := ⟨200, "OK", "\x7b\"versions\":5\x7d"⟩
    let client : Client := ⟨standardAddress, .whole 30, none⟩
    let outcome := ((client.publishedAt "app" "1.0").play (answering (.ok response)) ()).outcome
    outcome = .error (.wrongKind .members (.whole 5)) ∧ ¬∃ date, outcome = .ok date := by
  intro response client outcome
  have hparse : Json.parse "\x7b\"versions\":5\x7d" = .ok (.table [("versions", .whole 5)]) := by
    with_unfolding_all rfl
  have hupset : Upsets (.ok response) (.wrongKind .members (.whole 5)) :=
    .unlisted (by decide) hparse rfl rfl rfl
  have houtcome : outcome = .error (.wrongKind .members (.whole 5)) :=
    outcome_answering.trans (judged_eq_error_iff.mpr hupset)
  refine ⟨houtcome, ?_⟩
  rintro ⟨date, hdate⟩
  cases houtcome.symm.trans hdate

end Registry

end ReleaseTrain
