import ReleaseTrain.Proofs.Entries
import ReleaseTrain.Proofs.Publication.Books
import ReleaseTrain.Proofs.Publication.Places

/-!
# Starting a release again

A release that stopped is started again with the same plan.  What it had brought to
its end must not be done twice: the crates up to there are looked up and passed over.

* `Steady`: what has to be known of the others, read off the record of both
  releases and of whatever happened in between.
* `Turn.eq_passedOver`: a crate that was seen in a steady record is passed over.
* `later_release_resumes`: a later release passes over what an earlier one has
  brought to its end, and over everything if that one ended without an error.

## Why the record and not the partner

Versions stay the same and what is visible stays visible; whether that is so can be
told from what was asked and answered.  Nothing is assumed of answers that nobody
asked for, and the two releases need not even have the same partner.
-/

namespace ReleaseTrain.Publication

variable {σ τ : Type} {plan : Plan} {policy : Policy} {name : String}

/-- In a steady record every crate has one version, or one reason to have none, no
look at the registry fails, and what was visible once stays visible. -/
structure Steady (record : List (Exchange steps)) : Prop where
  versions : ∃ versionOf : String → Except Failure String,
    ∀ name answer, told name answer ∈ record → answer = versionOf name
  answered : ∀ name version answer, looked name version answer ∈ record →
    ∃ date, answer = .ok date
  lasting : record.Pairwise fun earlier later => ∀ name version date date',
    earlier = looked name version (.ok date) → later = looked name version (.ok date') →
      date.isTruthy = true → date'.isTruthy = true

/-! ## Steady partners -/

/-- A partner whose versions stay the same, whose registry never fails, and with whom
a crate that is visible in a state stays visible. -/
structure SteadyPartner (partner : Partner steps σ) (visible : String → String → σ → Prop) :
    Prop where
  versions : ∃ versionOf : String → Except Failure String,
    ∀ name s, (partner (.localVersion name) s).1 = versionOf name
  looks : ∀ name version s, ∃ date : Value, (partner (.publishedAt name version) s).1 = .ok date ∧
    (date.isTruthy = true ↔ visible name version s)
  lasting : ∀ name version q s, visible name version s → visible name version (partner q s).2

/-- A record that leads from one state to another, with what was visible before and
is visible after it. -/
structure Leads (versionOf : String → Except Failure String)
    (visible : String → String → σ → Prop) (s : σ) (record : List (Exchange steps)) (s' : σ) :
    Prop where
  versions : ∀ name answer, told name answer ∈ record → answer = versionOf name
  answered : ∀ name version answer, looked name version answer ∈ record →
    ∃ date, answer = .ok date
  lasting : record.Pairwise fun earlier later => ∀ name version date date',
    earlier = looked name version (.ok date) → later = looked name version (.ok date') →
      date.isTruthy = true → date'.isTruthy = true
  stays : ∀ name version, visible name version s → visible name version s'
  shown : ∀ name version date, looked name version (.ok date) ∈ record →
    visible name version s → date.isTruthy = true
  seen : ∀ name version date, looked name version (.ok date) ∈ record →
    date.isTruthy = true → visible name version s'

section Leads

variable {versionOf : String → Except Failure String} {visible : String → String → σ → Prop}
  {record record' : List (Exchange steps)} {s s' s'' : σ}

theorem Leads.steady (h : Leads versionOf visible s record s') : Steady record :=
  ⟨⟨versionOf, h.versions⟩, h.answered, h.lasting⟩

theorem Leads.nil : Leads versionOf visible s [] s where
  versions := nofun
  answered := nofun
  lasting := .nil
  stays _ _ := id
  shown := nofun
  seen := nofun

theorem Leads.append (h : Leads versionOf visible s record s')
    (h' : Leads versionOf visible s' record' s'') :
    Leads versionOf visible s (record ++ record') s'' where
  versions name answer he :=
    (List.mem_append.mp he).elim (h.versions name answer) (h'.versions name answer)
  answered name version answer he :=
    (List.mem_append.mp he).elim (h.answered name version answer) (h'.answered name version answer)
  lasting := by
    refine List.pairwise_append.mpr ⟨h.lasting, h'.lasting, ?_⟩
    rintro _ he _ he' name version date date' rfl rfl hdate
    exact h'.shown name version date' he' (h.seen name version date he hdate)
  stays name version hvisible := h'.stays name version (h.stays name version hvisible)
  shown name version date he hvisible := by
    rcases List.mem_append.mp he with he | he
    · exact h.shown name version date he hvisible
    · exact h'.shown name version date he (h.stays name version hvisible)
  seen name version date he hdate := by
    rcases List.mem_append.mp he with he | he
    · exact h'.stays name version (h.seen name version date he hdate)
    · exact h'.seen name version date he hdate

/-- What a steady partner answers to a look tells whether the crate is visible. -/
theorem SteadyPartner.visible_iff {partner : Partner steps σ} (h : SteadyPartner partner visible)
    {q : Step} {name version : String} {date : Value}
    (he : looked name version (.ok date) ∈ [(⟨q, (partner q s).1⟩ : Exchange steps)]) :
    q = .publishedAt name version ∧ (date.isTruthy = true ↔ visible name version s) := by
  have heq := List.mem_singleton.mp he
  have hq : Step.publishedAt name version = q := congrArg Exchange.question heq
  subst hq
  have hanswer := eq_of_heq (Exchange.mk.inj heq).2
  obtain ⟨date', hdate', hvisible⟩ := h.looks name version s
  rw [hdate', Except.ok.injEq] at hanswer
  exact ⟨rfl, hanswer ▸ hvisible⟩

/-- One answer of a steady partner. -/
theorem SteadyPartner.leads_single {partner : Partner steps σ}
    (h : SteadyPartner partner visible)
    (hversions : ∀ name s, (partner (.localVersion name) s).1 = versionOf name) (q : Step) :
    Leads versionOf visible s [⟨q, (partner q s).1⟩] (partner q s).2 where
  versions name answer he := by
    cases List.mem_singleton.mp he
    exact hversions name s
  answered name version answer he := by
    cases List.mem_singleton.mp he
    obtain ⟨date, hdate, -⟩ := h.looks name version s
    exact ⟨date, hdate⟩
  lasting := List.pairwise_singleton _ _
  stays name version hvisible := h.lasting name version q s hvisible
  shown name version date he hvisible := (h.visible_iff he).2.mpr hvisible
  seen name version date he hdate := h.lasting name version q s ((h.visible_iff he).2.mp hdate)

/-- Whatever is asked of a steady partner. -/
theorem SteadyPartner.leads_play {α : Type} {partner : Partner steps σ}
    (h : SteadyPartner partner visible)
    (hversions : ∀ name s, (partner (.localVersion name) s).1 = versionOf name)
    (d : Dialogue steps α) :
    Leads versionOf visible s (d.play partner s).exchanges (d.play partner s).state := by
  induction d generalizing s with
  | done a => exact .nil
  | fail f => exact .nil
  | ask q next ih => exact (h.leads_single hversions q).append (ih _)

/-- Two releases one after the other leave a steady record behind if their partner
is steady. -/
theorem SteadyPartner.steady {α β : Type} {partner : Partner steps σ}
    (h : SteadyPartner partner visible) (d : Dialogue steps α) (d' : Dialogue steps β) (s : σ) :
    Steady ((d.play partner s).exchanges ++
      ([] ++ (d'.play partner (d.play partner s).state).exchanges)) := by
  obtain ⟨versionOf, hversions⟩ := h.versions
  exact ((h.leads_play hversions d).append (h.leads_play hversions d')).steady

/-- A slow registry is a steady partner. -/
theorem steadyPartner_slowRegistry (refused : List String) :
    SteadyPartner (slowRegistry refused) fun name _ s => name ∈ s.1 where
  versions := ⟨fun _ => .ok "1.0.0", fun _ _ => rfl⟩
  looks name version s := by
    refine ⟨_, rfl, ?_⟩
    by_cases hname : name ∈ s.1
    · rw [if_pos hname]
      exact ⟨fun _ => hname, fun _ => rfl⟩
    · rw [if_neg hname]
      exact ⟨nofun, fun h => absurd h hname⟩
  lasting name version q s hname := by
    cases q with
    | say line => exact hname
    | pause seconds => exact hname
    | localVersion other => exact hname
    | publishedAt other _ => exact List.mem_append_right _ hname
    | publish other token flags dryRun =>
      rw [slowRegistry]
      split <;> exact hname

end Leads

/-! ## Crates that were seen -/

/-- A crate that was seen earlier in a steady record is passed over. -/
theorem Turn.eq_passedOver {first between later cs : List (Exchange steps)} {version : String}
    {o : Except Failure CrateState} (h : Turn plan policy name cs o) (hcs : cs ⊆ later)
    (hsteady : Steady (first ++ (between ++ later))) (hseen : Seen name version first) :
    o = .ok .alreadyPublished ∧
      ∃ date, cs = [told name (.ok version), looked name version (.ok date)] := by
  obtain ⟨versionOf, hversions⟩ := hsteady.versions
  obtain ⟨date, hsub, there⟩ := hseen
  have htold : told name (.ok version) ∈ first := hsub.subset (List.mem_cons_self ..)
  have hlooked : looked name version (.ok date) ∈ first :=
    hsub.subset (List.mem_cons_of_mem _ (List.mem_cons_self ..))
  have hlater {e : Exchange steps} (he : e ∈ cs) : e ∈ first ++ (between ++ later) :=
    List.mem_append_right _ (List.mem_append_right _ (hcs he))
  -- the version is told again, ...
  have hversion {answer : Except Failure String} (he : told name answer ∈ cs) :
      answer = .ok version := by
    rw [hversions name answer (hlater he), hversions name _ (List.mem_append_left _ htold)]
  -- ... and it is still visible
  have hvisible {date' : Value} (he : looked name version (.ok date') ∈ cs) :
      date'.isTruthy = true :=
    (List.pairwise_append.mp hsteady.lasting).2.2 _ hlooked _
      (List.mem_append_right _ (hcs he)) name version date date' rfl rfl there
  cases h with
  | unknown f => cases hversion (List.mem_cons_self ..)
  | unchecked version' f =>
    obtain ⟨date', hdate'⟩ := hsteady.answered name version' _
      (hlater (List.mem_cons_of_mem _ (List.mem_cons_self ..)))
    cases hdate'
  | @passedOver version' date' there' =>
    cases hversion (List.mem_cons_self ..)
    exact ⟨rfl, date', rfl⟩
  | @entrusted version' date' absent answer cs o after =>
    cases hversion (List.mem_cons_self ..)
    rw [hvisible (List.mem_cons_of_mem _ (List.mem_cons_self ..))] at absent
    cases absent

/-- A turn that passes a crate over neither publishes nor pauses. -/
theorem kindOf_ne_of_calls_eq {es : List (Exchange steps)} {version : String}
    {answer : Except Failure String} {check : Except Failure Value}
    (hcalls : calls es = [told name answer, looked name version check]) {e : Exchange steps}
    (he : e ∈ es) : kindOf e ≠ .publication ∧ kindOf e ≠ .pause := by
  by_cases hline : kindOf e = .line
  · simp [hline]
  · have hcall : e ∈ calls es := mem_calls.mpr ⟨he, hline⟩
    rw [hcalls, List.mem_cons, List.mem_singleton] at hcall
    rcases hcall with rfl | rfl <;> simp

/-! ## Two releases -/

section Later

variable {policy' : Policy} {partner : Partner steps σ} {partner' : Partner steps τ} {s : σ}
  {s' : τ} {between : List (Exchange steps)} (hreal : plan.dryRun = false)
  (hsteady : Steady (((publishAll plan policy).play partner s).exchanges ++
    (between ++ ((publishAll plan policy').play partner' s').exchanges)))

include hreal hsteady

/-- A later release passes over the crates that an earlier one has brought to their
end. -/
theorem exists_passedOver_of_lt_completed {i : Nat} (hi : i < completed plan policy partner s) :
    ∃ name version date turn, plan.crates[i]? = some name ∧
      (turnsOf plan policy' partner' s')[i]? = some turn ∧
      calls turn.exchanges = [told name (.ok version), looked name version (.ok date)] ∧
      turn.outcome = .ok .alreadyPublished := by
  induction i using Nat.strongRecOn with
  | ind i ih =>
    obtain ⟨name, version, hname, hseen⟩ := exists_seen_of_lt_completed hreal hi
    have hlength : i < (turnsOf plan policy' partner' s').length := by
      refine lt_length_turns_iff.mpr ⟨(List.getElem?_eq_some_iff.mp hname).1, fun j hj => ?_⟩
      obtain ⟨_, _, _, turn, _, hturn, _, hend⟩ := ih j hj (Nat.lt_trans hj hi)
      exact ⟨turn, _, hturn, hend⟩
    have hturn := List.getElem?_eq_getElem hlength
    obtain ⟨name', hname', h⟩ := turn_of_getElem?_turns hturn
    obtain rfl : name = name' := Option.some.inj (hname.symm.trans hname')
    have hsub : calls (turnsOf plan policy' partner' s')[i].exchanges ⊆
        ((publishAll plan policy').play partner' s').exchanges := by
      intro e he
      rw [exchanges_publishAll]
      exact List.mem_cons_of_mem _
        (List.mem_flatMap.mpr ⟨_, List.getElem_mem hlength, (mem_calls.mp he).1⟩)
    obtain ⟨hend, date, hcalls⟩ := h.eq_passedOver hsub hsteady hseen
    exact ⟨name, version, date, _, hname, hturn, hcalls, hend⟩

/-- A later release publishes nothing at the places that an earlier one has brought to
their end. -/
theorem completed_le_of_publication {x : Nat × Exchange steps}
    (hx : x ∈ placed plan policy' partner' s') (hkind : kindOf x.2 = .publication) :
    completed plan policy partner s ≤ x.1 := by
  obtain ⟨i, e⟩ := x
  by_contra hlt
  obtain ⟨name, version, date, turn, -, hturn, hcalls, -⟩ :=
    exists_passedOver_of_lt_completed hreal hsteady (Nat.lt_of_not_le hlt)
  obtain ⟨turn', hturn', he⟩ := exists_turn_of_mem_placed hx
  obtain rfl : turn = turn' := Option.some.inj (hturn.symm.trans hturn')
  exact (kindOf_ne_of_calls_eq hcalls he).1 hkind

/-- If an earlier release has brought every crate to its end, every turn of a later one
passes its crate over. -/
theorem passedOver_of_completed_eq (hall : completed plan policy partner s = plan.crates.length)
    {turn : Course steps τ CrateState} (hturn : turn ∈ turnsOf plan policy' partner' s') :
    ∃ name version date,
      calls turn.exchanges = [told name (.ok version), looked name version (.ok date)] ∧
        turn.outcome = .ok .alreadyPublished := by
  obtain ⟨i, hi, rfl⟩ := List.getElem_of_mem hturn
  have hlt : i < completed plan policy partner s := by
    rw [hall]
    exact (lt_length_turns_iff.mp hi).1
  obtain ⟨name, version, date, turn', -, hturn', hcalls, hend⟩ :=
    exists_passedOver_of_lt_completed hreal hsteady hlt
  obtain rfl := Option.some.inj ((List.getElem?_eq_getElem hi).symm.trans hturn')
  exact ⟨name, version, date, hcalls, hend⟩

end Later

/-- The report of a release that passed over every crate. -/
theorem exists_report_of_passedOver {partner : Partner steps σ} {s : σ}
    (h : ∀ turn ∈ turnsOf plan policy partner s, turn.outcome = .ok .alreadyPublished) :
    ∃ report, ((publishAll plan policy).play partner s).outcome = .ok report ∧
      report.isOk = true ∧ report.exitCode = 0 ∧
      (∀ name ∈ plan.crates, report.states.get? name = some .alreadyPublished) ∧
      ∀ entry ∈ report.states, entry.2 = .alreadyPublished := by
  have hends : ends plan.crates (turnsOf plan policy partner s) =
      (plan.crates.map fun name => (name, CrateState.alreadyPublished)).map
        fun account => (account.1, .ok account.2) := by
    have hlength : (turnsOf plan policy partner s).length = plan.crates.length :=
      length_turns_of_forall_ok fun turn hturn => ⟨_, h turn hturn⟩
    rw [ends_of_forall_eq hlength h, List.map_map]
    rfl
  have hget : ∀ name ∈ plan.crates, ((pendingStates plan.crates).putAll
      (plan.crates.map fun name => (name, CrateState.alreadyPublished))).get? name =
        some .alreadyPublished := fun name hname => Entries.get?_putAll_const _ hname
  refine ⟨_, by rw [outcome_publishAll, hends, reckon_of_ok], rfl, rfl, hget, ?_⟩
  rintro ⟨name, state⟩ hentry
  have hnodup : ((pendingStates plan.crates).map (·.1)).Nodup := Entries.nodup_putAll .nil
  have hname : name ∈ plan.crates := by
    have hkey := List.mem_map_of_mem (f := (·.1)) hentry
    simpa [pendingStates, Entries.mem_map_fst_putAll] using hkey
  have hstate := (Entries.mem_iff_get? (Entries.nodup_putAll hnodup)).mp hentry
  rw [hget name hname] at hstate
  exact (Option.some.inj hstate).symm

/-- **Starting again.**  After a release that ended with a report, and whatever
happened then, a later release of the plan that leaves a steady record passes over
the crates that the first one has brought to their end: their turns consist of the
question for the version and one look, so nothing is published before them.  If the
first release ended without an error, that was every crate, and the later one ends
well without a publication or a pause. -/
theorem later_release_resumes (plan : Plan) (policy policy' : Policy) (partner : Partner steps σ)
    (partner' : Partner steps τ) (s : σ) (s' : τ) (between : List (Exchange steps))
    (report : Report) (hreal : plan.dryRun = false)
    (hreport : ((publishAll plan policy).play partner s).outcome = .ok report)
    (hsteady : Steady (((publishAll plan policy).play partner s).exchanges ++
      (between ++ ((publishAll plan policy').play partner' s').exchanges))) :
    ((publishAll plan policy').play partner' s').exchanges =
        ⟨.say (openingLine plan), ()⟩ :: (placed plan policy' partner' s').map (·.2) ∧
      (∀ i < completed plan policy partner s, ∃ name version date turn,
        plan.crates[i]? = some name ∧ (turnsOf plan policy' partner' s')[i]? = some turn ∧
          calls turn.exchanges = [told name (.ok version), looked name version (.ok date)] ∧
          turn.outcome = .ok .alreadyPublished) ∧
      (∀ x ∈ placed plan policy' partner' s', kindOf x.2 = .publication →
        completed plan policy partner s ≤ x.1) ∧
      (report.isOk = true →
        completed plan policy partner s = plan.crates.length ∧
          ∃ later, ((publishAll plan policy').play partner' s').outcome = .ok later ∧
            later.isOk = true ∧ later.exitCode = 0 ∧
            (∀ name ∈ plan.crates, later.states.get? name = some .alreadyPublished) ∧
            (∀ entry ∈ later.states, entry.2 = .alreadyPublished) ∧
            ∀ e ∈ ((publishAll plan policy').play partner' s').exchanges,
              kindOf e ≠ .publication ∧ kindOf e ≠ .pause) := by
  refine ⟨by rw [exchanges_publishAll, map_snd_placed],
    fun i hi => exists_passedOver_of_lt_completed hreal hsteady hi,
    fun x hx hkind => completed_le_of_publication hreal hsteady hx hkind, fun hok => ?_⟩
  have hnone : report.error = none := Option.isNone_iff_eq_none.mp hok
  have hall : completed plan policy partner s = plan.crates.length :=
    completed_of_forall_endedWell (endedWell_of_outcome_ok hreport hnone)
  have hpassed := fun turn (hturn : turn ∈ turnsOf plan policy' partner' s') =>
    passedOver_of_completed_eq hreal hsteady hall hturn
  have hends : ∀ turn ∈ turnsOf plan policy' partner' s',
      turn.outcome = .ok .alreadyPublished := by
    intro turn hturn
    obtain ⟨name, version, date, -, hend⟩ := hpassed turn hturn
    exact hend
  obtain ⟨later, hlater, hisOk, hcode, hget, hstates⟩ := exists_report_of_passedOver hends
  refine ⟨hall, later, hlater, hisOk, hcode, hget, hstates, fun e he => ?_⟩
  rw [exchanges_publishAll, List.mem_cons, List.mem_flatMap] at he
  rcases he with rfl | ⟨turn, hturn, he⟩
  · simp
  · obtain ⟨name, version, date, hcalls, -⟩ := hpassed turn hturn
    exact kindOf_ne_of_calls_eq hcalls he

/-- A slow registry and a crate that is refused: the first release publishes `core`
and stops at `app`, and the second one passes `core` over. -/
theorem later_release_resumes_behind_core :
    twoCrates.dryRun = false ∧
      (∃ report, ((publishAll twoCrates .standard).play (slowRegistry ["app"]) ([], [])).outcome =
        .ok report) ∧
      completed twoCrates .standard (slowRegistry ["app"]) ([], []) = 1 ∧
      ∃ name version date turn, twoCrates.crates[0]? = some name ∧
        (turnsOf twoCrates .standard (slowRegistry ["app"])
          ((publishAll twoCrates .standard).play (slowRegistry ["app"]) ([], [])).state)[0]? =
            some turn ∧
        calls turn.exchanges = [told name (.ok version), looked name version (.ok date)] ∧
        turn.outcome = .ok .alreadyPublished := by
  have hcompleted : completed twoCrates .standard (slowRegistry ["app"]) ([], []) = 1 := rfl
  have hsteady := (steadyPartner_slowRegistry ["app"]).steady (publishAll twoCrates .standard)
    (publishAll twoCrates .standard) ([], [])
  obtain ⟨-, hpassed, -, -⟩ := later_release_resumes twoCrates .standard .standard
    (slowRegistry ["app"]) (slowRegistry ["app"]) ([], []) _ [] _ rfl rfl hsteady
  exact ⟨rfl, ⟨_, rfl⟩, hcompleted, hpassed 0 (hcompleted ▸ Nat.zero_lt_one)⟩

end ReleaseTrain.Publication
