import ReleaseTrain.Proofs.Entries
import ReleaseTrain.Proofs.Publication.Breakage
import ReleaseTrain.Proofs.Publication.Calls

/-!
# The report tells the truth

A report is read by people who were not there.  What it says of a crate, and of the
end of the release, is what the record shows.

* `standing`: names with the states in which turns leave them; `states_publishAll`:
  these are the states of the report.
* `Checked`, `Visible`: what the calls about a crate show.
* `Turn.verdict_eq_alreadyPublished_iff`, `Turn.verdict_eq_published_iff`,
  `Turn.broken_of_error`: the end of a turn against its calls.
* `Truthful`, `truthful_report`: the report of a release against its record.
-/

namespace ReleaseTrain.Publication

open Dialogue

variable {σ : Type} {plan : Plan} {policy : Policy} {partner : Partner steps σ} {s : σ}
  {name version : String} {cs : List (Exchange steps)} {o : Except Failure CrateState}
  {f : Failure} {report : Report}

/-! ## The states of a report -/

/-- The state in which the end of a turn leaves its crate. -/
def verdict : Except Failure CrateState → CrateState
  | .ok state => state
  | .error _ => .failed

/-- Names with the states in which the ends of turns leave them.  What has no turn is
pending. -/
def standing : List String → List (Except Failure CrateState) → Entries String CrateState
  | [], _ => []
  | name :: rest, [] => (name, .pending) :: standing rest []
  | name :: rest, o :: more => (name, verdict o) :: standing rest more

theorem map_fst_standing (names : List String) (os : List (Except Failure CrateState)) :
    (standing names os).map (·.1) = names := by
  induction names generalizing os with
  | nil => rfl
  | cons name rest ih => cases os <;> simp [standing, ih]

theorem getElem?_standing (names : List String) (os : List (Except Failure CrateState)) (k : Nat) :
    (standing names os)[k]? =
      names[k]?.map fun name => (name, (os[k]?.map verdict).getD .pending) := by
  induction names generalizing os k with
  | nil => rfl
  | cons name rest ih =>
    cases os with
    | nil =>
      cases k with
      | zero => rfl
      | succ k => simpa [standing] using ih [] k
    | cons o more =>
      cases k with
      | zero => rfl
      | succ k => exact ih more k

theorem map_snd_standing {names : List String} {os : List (Except Failure CrateState)}
    (h : os.length ≤ names.length) :
    (standing names os).map (·.2) =
      os.map verdict ++ List.replicate (names.length - os.length) .pending := by
  induction names generalizing os with
  | nil =>
    obtain rfl := List.eq_nil_of_length_eq_zero (Nat.le_zero.mp h)
    rfl
  | cons name rest ih =>
    cases os with
    | nil =>
      rw [standing, List.map_cons, ih (Nat.zero_le _)]
      rfl
    | cons o more =>
      rw [standing, List.map_cons, ih (Nat.le_of_succ_le_succ h), List.length_cons,
        List.length_cons, Nat.add_sub_add_right]
      rfl

theorem pendingStates_eq {names : List String} (h : names.Nodup) :
    pendingStates names = standing names [] := by
  have hmap : (names.map fun name => (name, CrateState.pending)) = standing names [] := by
    clear h
    induction names with
    | nil => rfl
    | cons name rest ih => rw [List.map_cons, ih, standing]
  rw [pendingStates, hmap, Entries.putAll_of_nodup (by simpa [map_fst_standing] using h),
    List.nil_append]

/-- What the books show behind the crates that are done is where their turns leave the
others. -/
theorem states_publishEach (front : Entries String CrateState) {names : List String}
    (hnodup : (front.map (·.1) ++ names).Nodup)
    (h : ((publishEach plan policy (front ++ standing names []) names).play partner s).outcome =
      .ok report) :
    report.states =
      front ++ standing names ((turns plan policy partner names s).map (·.outcome)) := by
  rw [outcome_publishEach] at h
  induction names generalizing front s with
  | nil =>
    cases h
    rfl
  | cons name rest ih =>
    have hname : name ∉ front.map (·.1) := by
      intro hmem
      exact (List.nodup_append.mp hnodup).2.2 name hmem name (List.mem_cons_self ..) rfl
    cases houtcome : ((publishCrate plan policy name).play partner s).outcome with
    | ok state =>
      rw [turns_cons_of_ok houtcome, ends, List.map_cons, List.zip_cons_cons, houtcome, reckon,
        standing, Entries.put_append_cons hname, ← List.singleton_append,
        ← List.append_assoc] at h
      rw [turns_cons_of_ok houtcome, List.map_cons, standing, houtcome, verdict,
        ih _ (by simpa using hnodup) h, List.append_assoc, List.singleton_append]
    | error f =>
      rw [turns_cons_of_error houtcome, ends, List.map_cons, List.zip_cons_cons, houtcome,
        reckon, standing, Entries.put_append_cons hname] at h
      rw [turns_cons_of_error houtcome, List.map_cons, standing, houtcome, verdict]
      split at h
      · cases h
        rfl
      · cases h

/-- The states of a report are where the turns leave the crates. -/
theorem states_publishAll (hnodup : plan.crates.Nodup)
    (h : ((publishAll plan policy).play partner s).outcome = .ok report) :
    report.states =
      standing plan.crates ((turnsOf plan policy partner s).map (·.outcome)) := by
  rw [publishAll, pendingStates_eq hnodup] at h
  exact states_publishEach [] hnodup h

/-! ## How a release with a report has ended -/

theorem error_of_reckon {states : Entries String CrateState}
    {accounts : List (String × Except Failure CrateState)}
    (hall : ∀ account ∈ accounts, ∃ state, account.2 = .ok state)
    (h : reckon states accounts = .ok report) : report.error = none ∧ report.exitCode = 0 := by
  induction accounts generalizing states with
  | nil =>
    cases h
    exact ⟨rfl, rfl⟩
  | cons account rest ih =>
    obtain ⟨name, outcome⟩ := account
    obtain ⟨state, rfl⟩ := hall _ (List.mem_cons_self ..)
    exact ih (fun account haccount => hall account (List.mem_cons_of_mem _ haccount)) h

/-- If a turn of a release with a report has failed, it is the last one, and the report
tells of its failure. -/
theorem report_of_outcome_error {k : Nat} {turn : Course steps σ CrateState}
    (h : ((publishAll plan policy).play partner s).outcome = .ok report)
    (hturn : (turnsOf plan policy partner s)[k]? = some turn) (hname : plan.crates[k]? = some name)
    (hf : turn.outcome = .error f) :
    (turnsOf plan policy partner s).length = k + 1 ∧ f.isReported = true ∧
      report.error = some (name ++ ": " ++ f.message) ∧ report.exitCode = f.exitCode := by
  obtain ⟨hlength, states, houtcome⟩ :=
    outcome_publishEach_of_error (pendingStates plan.crates) hturn hname hf
  have hend := h.symm.trans houtcome
  split at hend
  next hreported =>
    cases hend
    exact ⟨hlength, hreported, rfl, rfl⟩
  next => cases hend

/-- A release with a report has brought every turn to its end, or all but the last one,
of which the report tells. -/
theorem ends_of_outcome_ok (h : ((publishAll plan policy).play partner s).outcome = .ok report) :
    ((∀ turn ∈ turnsOf plan policy partner s, ∃ state, turn.outcome = .ok state) ∧
        report.error = none ∧ report.exitCode = 0) ∨
      ∃ front turn f, turnsOf plan policy partner s = front ++ [turn] ∧
        (∀ turn ∈ front, ∃ state, turn.outcome = .ok state) ∧ turn.outcome = .error f ∧
        report.error ≠ none ∧ report.exitCode ≠ 0 := by
  by_cases hall : ∀ turn ∈ turnsOf plan policy partner s, ∃ state, turn.outcome = .ok state
  · rw [outcome_publishAll] at h
    refine .inl ⟨hall, error_of_reckon (fun account haccount => ?_) h⟩
    obtain ⟨turn, hturn, heq⟩ := List.mem_map.mp (List.of_mem_zip haccount).2
    obtain ⟨state, hstate⟩ := hall turn hturn
    exact ⟨state, heq.symm.trans hstate⟩
  · right
    simp only [not_forall] at hall
    obtain ⟨turn, hturn, hfails⟩ := hall
    obtain ⟨k, hk, rfl⟩ := List.getElem_of_mem hturn
    obtain ⟨name, hname, -⟩ := turn_of_getElem?_turns (List.getElem?_eq_getElem hk)
    cases hf : (turnsOf plan policy partner s)[k].outcome with
    | ok state => exact absurd ⟨state, hf⟩ hfails
    | error f =>
      obtain ⟨hlength, -, herror, hcode⟩ :=
        report_of_outcome_error h (List.getElem?_eq_getElem hk) hname hf
      refine ⟨(turnsOf plan policy partner s).take k, _, f, ?_, fun turn hturn => ?_, hf,
        by simp [herror], by rw [hcode]; exact f.exitCode_ne_zero⟩
      · rw [List.take_append_getElem, ← hlength, List.take_length]
      · obtain ⟨j, hj, rfl⟩ := List.getElem_of_mem hturn
        rw [List.length_take] at hj
        obtain ⟨turn, state, hturn, hstate⟩ := (lt_length_turns_iff.mp hk).2 j (by omega)
        rw [List.getElem_take]
        have heq : (turnsOf plan policy partner s)[j] = turn :=
          Option.some.inj ((List.getElem?_eq_getElem (by omega)).symm.trans hturn)
        exact ⟨state, (congrArg Course.outcome heq).trans hstate⟩

/-! ## The end of a turn against its calls -/

/-- The first look among calls found a crate, or it did not. -/
def Checked (name : String) (there : Bool) (cs : List (Exchange steps)) : Prop :=
  ∃ version date, cs.find? (fun e => kindOf e = .look) = some (looked name version (.ok date)) ∧
    date.isTruthy = there

/-- The publication of a crate has ended well and, unless it was a rehearsal, a look
behind it found the crate. -/
def Visible (plan : Plan) (name : String) (cs : List (Exchange steps)) : Prop :=
  tried plan name (.ok ()) ∈ cs ∧
    (plan.dryRun = false → ∃ version date,
      [tried plan name (.ok ()), looked name version (.ok date)].Sublist cs ∧
        date.isTruthy = true)

/-- A search that fails has not found anything. -/
theorem Search.isTruthy_eq_false {left : Nat} (h : Search policy name version left cs (.error f))
    {other : String} {date : Value} (he : looked name other (.ok date) ∈ cs) :
    date.isTruthy = false := by
  generalize ho : (Except.error f : Except Failure Value) = o at h
  induction h with
  | exhausted => cases he
  | seen left there => cases ho
  | broken left g =>
    rw [List.mem_cons, List.mem_singleton] at he
    rcases he with he | he <;> cases he
  | again absent _ ih =>
    rw [List.mem_cons, List.mem_cons] at he
    rcases he with he | he | he
    · cases he
    · cases he
      exact absent
    · exact ih he ho

theorem countP_isVain_callsAbout (h : ∀ e ∈ cs, isVain e = true → e.question.crate? = some name) :
    (callsAbout name cs).countP isVain = cs.countP isVain := by
  rw [callsAbout, List.countP_filter]
  refine List.countP_congr fun e he => ?_
  simpa using h e he

theorem Turn.state_cases {state : CrateState} (h : Turn plan policy name cs (.ok state)) :
    state = .alreadyPublished ∨ state = .published := by
  cases h with
  | passedOver version there => exact .inl rfl
  | entrusted absent after =>
    cases after with
    | rehearsed dry => exact .inr rfl
    | visible real wait => exact .inr rfl

/-- A crate counts as published before exactly if the first look found it. -/
theorem Turn.verdict_eq_alreadyPublished_iff (h : Turn plan policy name cs o) :
    verdict o = .alreadyPublished ↔ Checked name true (callsAbout name cs) := by
  cases h with
  | unknown f => simp [verdict, Checked]
  | unchecked version f => simp [verdict, Checked]
  | @passedOver version date there =>
    rw [callsAbout_cons_told, callsAbout_cons_looked, callsAbout_nil]
    exact ⟨fun _ => ⟨version, date, rfl, there⟩, fun _ => rfl⟩
  | @entrusted version date absent answer cs o after =>
    have hfalse : verdict o ≠ .alreadyPublished := by
      cases after <;> simp [verdict]
    simp [hfalse, Checked, absent]

/-- A crate counts as published exactly if the first look did not find it, and its
publication ended well and was seen. -/
theorem Turn.verdict_eq_published_iff (h : Turn plan policy name cs o)
    (hreported : ∀ f, o = .error f → f.isReported = true) :
    verdict o = .published ↔
      Checked name false (callsAbout name cs) ∧ Visible plan name (callsAbout name cs) := by
  cases h with
  | unknown f => simp [verdict, Checked]
  | unchecked version f => simp [verdict, Checked]
  | passedOver version there => simp [verdict, Checked, there]
  | @entrusted version date absent answer cs o after =>
    have hcalls : callsAbout name (told name (.ok version) :: looked name version (.ok date) ::
        tried plan name answer :: cs) = told name (.ok version) ::
          looked name version (.ok date) :: tried plan name answer :: callsAbout name cs := by
      simp
    rw [hcalls, and_iff_right ⟨version, date, rfl, absent⟩]
    cases after with
    | refused f =>
      refine ⟨nofun, fun ⟨htried, _⟩ => ?_⟩
      simp at htried
    | rehearsed dry =>
      refine ⟨fun _ => ⟨by simp, fun real => ?_⟩, fun _ => rfl⟩
      rw [dry] at real
      cases real
    | lost real wait =>
      cases wait with
      | lost search =>
        refine ⟨nofun, fun ⟨_, hseen⟩ => ?_⟩
        obtain ⟨version', date', hsub, there⟩ := hseen real
        have hlooked := hsub.subset (List.mem_cons_of_mem _ (List.mem_cons_self ..))
        rw [List.mem_cons, List.mem_cons, List.mem_cons] at hlooked
        rcases hlooked with hlooked | hlooked | hlooked | hlooked
        · cases hlooked
        · cases hlooked
          rw [absent] at there
          cases there
        · cases hlooked
        · rw [search.isTruthy_eq_false (mem_callsAbout.mp hlooked).1] at there
          cases there
      | untold search long => exact absurd (hreported _ rfl) Bool.false_ne_true
    | @visible _ _ date' wait =>
      obtain ⟨there, front, rfl⟩ := wait.exists_eq_append
      refine ⟨fun _ => ⟨by simp, fun _ => ⟨version, date', ?_, there⟩⟩, fun _ => rfl⟩
      refine .cons _ (.cons _ (.cons_cons _ ?_))
      rw [List.singleton_sublist]
      simp

/-- A turn that failed in a way that is reported shows it in the calls about its crate. -/
theorem Turn.broken_of_error (h : Turn plan policy name cs (.error f))
    (hreported : f.isReported = true) : Broken policy (callsAbout name cs) f := by
  cases h with
  | unknown f =>
    have hlast : callsAbout name [told name (.error f)] = [] ++ [told name (.error f)] := by simp
    exact .refused hlast rfl
  | unchecked version f =>
    have hlast : callsAbout name [told name (.ok version), looked name version (.error f)] =
        [told name (.ok version)] ++ [looked name version (.error f)] := by simp
    exact .refused hlast rfl
  | @entrusted version date absent answer cs o after =>
    have hcalls : callsAbout name (told name (.ok version) :: looked name version (.ok date) ::
        tried plan name answer :: cs) = [told name (.ok version), looked name version (.ok date),
          tried plan name answer] ++ callsAbout name cs := by
      simp
    rw [hcalls]
    cases after with
    | refused f =>
      have hlast : [told name (.ok version), looked name version (.ok date),
          tried plan name (.error f)] ++ callsAbout name [] =
            [told name (.ok version), looked name version (.ok date)] ++
              [tried plan name (.error f)] := rfl
      exact .refused hlast rfl
    | lost real wait =>
      cases wait with
      | untold search long => exact absurd hreported Bool.false_ne_true
      | lost search =>
        rcases search.broken_of_error with ⟨front, rfl⟩ | ⟨rfl, hcount⟩
        · rw [callsAbout_append, callsAbout_cons_looked, callsAbout_nil, ← List.append_assoc]
          exact .refused rfl rfl
        · obtain ⟨-, hlast⟩ := search.countP_isVain.2 hcount
          obtain ⟨front, date', hfront, hdate'⟩ := hlast policy.attempts_pos
          have hvain : (callsAbout name cs).countP isVain = policy.attempts := by
            rw [countP_isVain_callsAbout, hcount]
            intro e he hvain
            rcases search.eq_of_mem he with rfl | ⟨answer, rfl⟩
            · cases hvain
            · rfl
          have hend : [told name (.ok version), looked name version (.ok date),
              tried plan name (.ok ())] ++ callsAbout name cs =
                [told name (.ok version), looked name version (.ok date),
                  tried plan name (.ok ())] ++ callsAbout name front ++
                    [looked name version (.ok date')] := by
            rw [hfront, callsAbout_append, callsAbout_cons_looked, callsAbout_nil,
              List.append_assoc]
          refine .exhausted hend hdate' ?_
          rw [List.countP_append, hvain]
          simp [absent, Nat.add_comm]

/-! ## The whole report -/

/-- The states of a report, the failure in it and its exit code are what the record
shows. -/
structure Truthful (plan : Plan) (policy : Policy) (record : List (Exchange steps))
    (report : Report) : Prop where
  /-- The crates are those of the plan, in its order. -/
  crates : report.states.map (·.1) = plan.crates
  /-- First come the crates that were dealt with, and behind one that failed, if there
  is one, those whose turn has not come. -/
  order : ∃ finished : List CrateState,
    (∀ state ∈ finished, state = .alreadyPublished ∨ state = .published) ∧
      (report.states.map (·.2) = finished ∨ ∃ waiting,
        report.states.map (·.2) = finished ++ .failed :: List.replicate waiting .pending)
  /-- Nothing was called about a crate whose turn has not come. -/
  untouched : ∀ name, report.states.get? name = some .pending →
    ∀ e ∈ record, e.question.crate? ≠ some name
  /-- A crate was published before exactly if the first look found it. -/
  alreadyPublished_iff : ∀ name ∈ plan.crates,
    report.states.get? name = some .alreadyPublished ↔ Checked name true (callsAbout name record)
  /-- It is published exactly if that look did not find it and its publication ended
  well and was seen. -/
  published_iff : ∀ name ∈ plan.crates,
    report.states.get? name = some .published ↔
      Checked name false (callsAbout name record) ∧ Visible plan name (callsAbout name record)
  /-- There is no error exactly if no crate failed, ... -/
  error_iff : report.error = none ↔ ∀ entry ∈ report.states, entry.2 ≠ .failed
  /-- ... and exactly if the exit code claims success. -/
  exitCode_iff : report.error = none ↔ report.exitCode = 0
  /-- If a crate failed, the error gives its name and the failure that its calls show,
  and the exit code is that of cargo if cargo failed with one that claims no success,
  or else one. -/
  failed : ∀ name, report.states.get? name = some .failed →
    ∃ f, Broken policy (callsAbout name record) f ∧
      report.error = some (name ++ ": " ++ f.message) ∧
      (∀ g, f = .cargo g → g.code ≠ 0 → report.exitCode = g.code) ∧
      ((∀ g, f = .cargo g → g.code = 0) → report.exitCode = 1)

/-- Where the turn of a crate leaves it, and what was called about it. -/
theorem standing_of_getElem? {k : Nat} (hnodup : plan.crates.Nodup)
    (h : ((publishAll plan policy).play partner s).outcome = .ok report)
    (hname : plan.crates[k]? = some name) :
    report.states.get? name =
        some (((turnsOf plan policy partner s)[k]?.map fun turn => verdict turn.outcome).getD
          .pending) ∧
      callsAbout name ((publishAll plan policy).play partner s).exchanges =
        ((turnsOf plan policy partner s)[k]?.map fun turn =>
          callsAbout name (calls turn.exchanges)).getD [] := by
  refine ⟨?_, callsAbout_publishAll hnodup hname⟩
  have hstates := states_publishAll hnodup h
  have hkeys : (report.states.map (·.1)).Nodup := by
    rw [hstates, map_fst_standing]
    exact hnodup
  refine (Entries.mem_iff_get? hkeys).mp (List.mem_of_getElem? (i := k) ?_)
  rw [hstates, getElem?_standing, hname, List.getElem?_map, Option.map_some, Option.map_map]
  rfl

/-- What a report says of a crate is what the calls about it show. -/
theorem states_agree (hnodup : plan.crates.Nodup)
    (h : ((publishAll plan policy).play partner s).outcome = .ok report)
    (hname : name ∈ plan.crates) :
    (report.states.get? name = some .pending →
        callsAbout name ((publishAll plan policy).play partner s).exchanges = []) ∧
      (report.states.get? name = some .alreadyPublished ↔
        Checked name true (callsAbout name ((publishAll plan policy).play partner s).exchanges)) ∧
      (report.states.get? name = some .published ↔
        Checked name false (callsAbout name ((publishAll plan policy).play partner s).exchanges) ∧
          Visible plan name
            (callsAbout name ((publishAll plan policy).play partner s).exchanges)) ∧
      (report.states.get? name = some .failed → ∃ f, f.isReported = true ∧
        Broken policy (callsAbout name ((publishAll plan policy).play partner s).exchanges) f ∧
        report.error = some (name ++ ": " ++ f.message) ∧ report.exitCode = f.exitCode) := by
  obtain ⟨k, hk, rfl⟩ := List.getElem_of_mem hname
  obtain ⟨hget, hcalls⟩ := standing_of_getElem? hnodup h (List.getElem?_eq_getElem hk)
  rw [hget, hcalls]
  cases hturn : (turnsOf plan policy partner s)[k]? with
  | none => simp [Checked]
  | some turn =>
    obtain ⟨name, hname, hlist⟩ := turn_of_getElem?_turns hturn
    obtain rfl : plan.crates[k] = name :=
      Option.some.inj ((List.getElem?_eq_getElem hk).symm.trans hname)
    simp only [Option.map_some, Option.getD_some, Option.some_inj]
    refine ⟨fun hpending => ?_, hlist.verdict_eq_alreadyPublished_iff,
      hlist.verdict_eq_published_iff fun f hf => ?_, fun hfailed => ?_⟩
    · cases hend : turn.outcome with
      | ok state =>
        rw [hend] at hpending hlist
        rcases hlist.state_cases with rfl | rfl <;> cases hpending
      | error f =>
        rw [hend] at hpending
        cases hpending
    · exact (report_of_outcome_error h hturn hname hf).2.1
    · cases hend : turn.outcome with
      | ok state =>
        rw [hend] at hfailed hlist
        rcases hlist.state_cases with rfl | rfl <;> cases hfailed
      | error f =>
        obtain ⟨-, hreported, herror, hcode⟩ := report_of_outcome_error h hturn hname hend
        rw [hend] at hlist
        exact ⟨f, hreported, hlist.broken_of_error hreported, herror, hcode⟩

/-- Where the turns that have ended well leave their crates. -/
theorem verdict_of_mem_turnsOf {turn : Course steps σ CrateState}
    (hturn : turn ∈ turnsOf plan policy partner s) (hend : ∃ state, turn.outcome = .ok state) :
    verdict turn.outcome = .alreadyPublished ∨ verdict turn.outcome = .published := by
  obtain ⟨k, hk, rfl⟩ := List.getElem_of_mem hturn
  obtain ⟨name, -, hlist⟩ := turn_of_getElem?_turns (List.getElem?_eq_getElem hk)
  obtain ⟨state, hstate⟩ := hend
  rw [hstate] at hlist ⊢
  exact hlist.state_cases

/-- The states of a report in their order. -/
theorem order_of_outcome_ok (hnodup : plan.crates.Nodup)
    (h : ((publishAll plan policy).play partner s).outcome = .ok report) :
    ∃ finished : List CrateState,
      (∀ state ∈ finished, state = .alreadyPublished ∨ state = .published) ∧
        (report.error = none ∧ report.exitCode = 0 ∧ report.states.map (·.2) = finished ∨
          report.error ≠ none ∧ report.exitCode ≠ 0 ∧ ∃ waiting,
            report.states.map (·.2) = finished ++ .failed :: List.replicate waiting .pending) := by
  have hlength : ((turnsOf plan policy partner s).map (·.outcome)).length ≤ plan.crates.length := by
    rw [List.length_map]
    by_contra hlt
    exact absurd (lt_length_turns_iff.mp (Nat.lt_of_not_le hlt)).1 (Nat.lt_irrefl _)
  rw [states_publishAll hnodup h, map_snd_standing hlength, List.map_map, List.length_map]
  rcases ends_of_outcome_ok h with ⟨hall, hend⟩ | ⟨front, turn, f, hturns, hfront, hf, hend⟩
  · have hnone : plan.crates.length - (turnsOf plan policy partner s).length = 0 := by
      rw [turnsOf, length_turns_of_forall_ok hall, Nat.sub_self]
    refine ⟨(turnsOf plan policy partner s).map fun turn => verdict turn.outcome,
      fun state hstate => ?_, .inl ⟨hend.1, hend.2, by rw [hnone]; exact List.append_nil _⟩⟩
    obtain ⟨turn, hturn, rfl⟩ := List.mem_map.mp hstate
    exact verdict_of_mem_turnsOf hturn (hall turn hturn)
  · refine ⟨front.map fun turn => verdict turn.outcome, fun state hstate => ?_,
      .inr ⟨hend.1, hend.2, plan.crates.length - (turnsOf plan policy partner s).length, ?_⟩⟩
    · obtain ⟨turn, hturn, rfl⟩ := List.mem_map.mp hstate
      exact verdict_of_mem_turnsOf (by rw [hturns]; exact List.mem_append_left _ hturn)
        (hfront turn hturn)
    · rw [hturns, List.map_append, List.append_assoc]
      simp [hf, verdict, Function.comp_def]

/-- **The report tells the truth.**  If a release of a plan without repeated names ends
with a report, what the report says is what the record of the release shows. -/
theorem truthful_report (plan : Plan) (policy : Policy) (partner : Partner steps σ) (s : σ)
    (report : Report) (hnodup : plan.crates.Nodup)
    (h : ((publishAll plan policy).play partner s).outcome = .ok report) :
    Truthful plan policy ((publishAll plan policy).play partner s).exchanges report := by
  have hkeys : report.states.map (·.1) = plan.crates := by
    rw [states_publishAll hnodup h, map_fst_standing]
  have hmem : ∀ name state, report.states.get? name = some state → name ∈ plan.crates := by
    intro name state hget
    have hentry := (Entries.mem_iff_get? (by rw [hkeys]; exact hnodup)).mpr hget
    rw [← hkeys]
    exact List.mem_map_of_mem (f := (·.1)) hentry
  obtain ⟨finished, hfinished, horder⟩ := order_of_outcome_ok hnodup h
  refine ⟨hkeys, ⟨finished, hfinished, horder.imp (·.2.2) (·.2.2)⟩, fun name hget e he hcrate => ?_,
    fun name hname => (states_agree hnodup h hname).2.1,
    fun name hname => (states_agree hnodup h hname).2.2.1, ?_, ?_, fun name hget => ?_⟩
  · have hnil := (states_agree hnodup h (hmem _ _ hget)).1 hget
    have hcall := mem_callsAbout.mpr ⟨he, hcrate⟩
    rw [hnil] at hcall
    cases hcall
  · rcases horder with ⟨herror, -, hstates⟩ | ⟨herror, -, waiting, hstates⟩
    · refine iff_of_true herror fun entry hentry hfailed => ?_
      have hstate := hfinished entry.2 (hstates ▸ List.mem_map_of_mem (f := (·.2)) hentry)
      rw [hfailed] at hstate
      rcases hstate with hstate | hstate <;> cases hstate
    · have hstate : CrateState.failed ∈ report.states.map (·.2) := by simp [hstates]
      obtain ⟨entry, hentry, hfailed⟩ := List.mem_map.mp hstate
      exact iff_of_false herror fun hall => hall entry hentry hfailed
  · rcases horder with ⟨herror, hcode, -⟩ | ⟨herror, hcode, -⟩
    · exact iff_of_true herror hcode
    · exact iff_of_false herror hcode
  · obtain ⟨f, -, hbroken, herror, hcode⟩ := (states_agree hnodup h (hmem _ _ hget)).2.2.2 hget
    refine ⟨f, hbroken, herror, fun g hg hne => ?_, fun hzero => ?_⟩
    · rw [hcode, hg, Failure.exitCode, if_neg hne]
    · rw [hcode]
      cases f with
      | cargo g => exact if_pos (hzero g rfl)
      | _ => rfl

/-- Three crates, the second of which is refused: the first one is published and the
third one stays pending. -/
theorem truthful_report_behind_app :
    let plan : Plan := ⟨["core", "app", "cli"], none, [], false⟩
    let report : Report :=
      ⟨[("core", .published), ("app", .failed), ("cli", .pending)],
        some "app: cargo publish для app завершился с кодом 101", 101⟩
    plan.crates.Nodup ∧
      ((publishAll plan .standard).play (slowRegistry ["app"]) ([], [])).outcome = .ok report ∧
      Truthful plan .standard
        ((publishAll plan .standard).play (slowRegistry ["app"]) ([], [])).exchanges report :=
  ⟨by decide, rfl, truthful_report _ _ _ _ _ (by decide) rfl⟩

end ReleaseTrain.Publication
