import ReleaseTrain.Proofs.Entries
import ReleaseTrain.Proofs.Publication.Places

/-!
# A release can be split anywhere

A release of some crates and then of others, in one go, is a release of the former and, if
nothing stopped it, one of the latter.  Nothing is carried over from one crate to the next
but what the collaborators remember themselves.

* `Report.behind`, `Report.before`: a report with states in front of its own, and with states
  behind them.
* `publishEach_append`: the law, for the books alone; `play_publishAll`: a release is its
  opening line and its books.
* `deaf`: collaborators, who are not reached by what is shown on the console.
* `release_splits`: the law, for whole releases.

## Why the law is stated of dialogues first

The two sides of the law ask the same questions in the same order whatever is answered, so
they are not only alike in every course, they are the same dialogue.  Only the opening lines
differ, because each names all crates of its release, and they are what `release_splits` has
to set aside.
-/

namespace ReleaseTrain.Publication

open Dialogue

variable {σ : Type} {plan : Plan} {policy : Policy}

/-! ## Books that stand beside others -/

/-- A report with the states of other crates in front of its own. -/
def Report.behind (front : Entries String CrateState) (report : Report) : Report :=
  { report with states := front ++ report.states }

/-- A report with the states of other crates behind its own. -/
def Report.before (back : Entries String CrateState) (report : Report) : Report :=
  { report with states := report.states ++ back }

/-- What stands in the books about other crates stays there, and changes nothing. -/
theorem publishEach_append_left {front : Entries String CrateState} {names : List String}
    (hnames : ∀ name ∈ names, name ∉ front.map (·.1)) (states : Entries String CrateState) :
    publishEach plan policy (front ++ states) names =
      publishEach plan policy states names >>= fun report => done (report.behind front) := by
  induction names generalizing states with
  | nil => rfl
  | cons name rest ih =>
    obtain ⟨hname, hrest⟩ := List.forall_mem_cons.mp hnames
    rw [publishEach_cons, publishEach_cons, bind_assoc]
    refine congrArg _ (funext fun outcome => ?_)
    cases outcome with
    | ok state =>
      dsimp only
      rw [Entries.put_append_of_notMem hname, ih hrest]
    | error f =>
      dsimp only
      split
      · rw [Entries.put_append_of_notMem hname]
        rfl
      · rfl

/-- **The books of two lists of crates** are those of the first one and, if nothing stopped it,
those of the second one behind them. -/
theorem publishEach_append (plan : Plan) (policy : Policy) {first second : List String}
    {states : Entries String CrateState} (hfirst : ∀ name ∈ first, name ∈ states.map (·.1))
    (hsecond : ∀ name ∈ second, name ∉ states.map (·.1)) :
    publishEach plan policy (states ++ pendingStates second) (first ++ second) =
      publishEach plan policy states first >>= fun report =>
        if report.error = none then
          publishEach plan policy (pendingStates second) second >>= fun later =>
            done (later.behind report.states)
        else done (report.before (pendingStates second)) := by
  induction first generalizing states with
  | nil => exact publishEach_append_left hsecond _
  | cons name rest ih =>
    obtain ⟨hname, hrest⟩ := List.forall_mem_cons.mp hfirst
    have hkeys (state : CrateState) : (states.put name state).map (·.1) = states.map (·.1) := by
      rw [Entries.map_fst_put, if_pos hname]
    rw [List.cons_append, publishEach_cons, publishEach_cons, bind_assoc]
    refine congrArg _ (funext fun outcome => ?_)
    cases outcome with
    | ok state =>
      dsimp only
      rw [Entries.put_append_of_mem hname]
      exact ih (by rwa [hkeys]) (by rwa [hkeys])
    | error f =>
      dsimp only
      split
      · rw [Entries.put_append_of_mem hname]
        rfl
      · rfl

/-! ## Whole releases -/

theorem mem_map_fst_pendingStates {names : List String} {name : String} :
    name ∈ (pendingStates names).map (·.1) ↔ name ∈ names := by
  rw [pendingStates, Entries.mem_map_fst_putAll]
  simp

theorem pendingStates_append {first second : List String}
    (hdisjoint : ∀ name ∈ second, name ∉ first) :
    pendingStates (first ++ second) = pendingStates first ++ pendingStates second := by
  have hkeys : ∀ name ∈ (second.map fun name => (name, CrateState.pending)).map (·.1),
      name ∉ (pendingStates first).map (·.1) := by
    simpa [mem_map_fst_pendingStates] using hdisjoint
  have hputAll : (pendingStates first ++ []).putAll (second.map fun name => (name, .pending)) =
      pendingStates first ++ pendingStates second :=
    Entries.putAll_append_of_notMem hkeys
  rw [List.append_nil] at hputAll
  rw [pendingStates, List.map_append, Entries.putAll_append]
  exact hputAll

/-- The books with which releases begin, if their lists have no name in common. -/
theorem publishEach_pendingStates_append (plan : Plan) (policy : Policy)
    {first second : List String} (hdisjoint : ∀ name ∈ second, name ∉ first) :
    publishEach plan policy (pendingStates (first ++ second)) (first ++ second) =
      publishEach plan policy (pendingStates first) first >>= fun report =>
        if report.error = none then
          publishEach plan policy (pendingStates second) second >>= fun later =>
            done (later.behind report.states)
        else done (report.before (pendingStates second)) := by
  rw [pendingStates_append hdisjoint]
  apply publishEach_append
  · exact fun name hname => mem_map_fst_pendingStates.mpr hname
  · exact fun name hname hmem => hdisjoint name hname (mem_map_fst_pendingStates.mp hmem)

/-- The turn of a crate does not depend on which other crates the plan names. -/
theorem publishEach_withCrates (names : List String) (states : Entries String CrateState)
    (rest : List String) :
    publishEach { plan with crates := names } policy states rest =
      publishEach plan policy states rest := by
  induction rest generalizing states with
  | nil => rfl
  | cons name rest ih =>
    rw [publishEach_cons, publishEach_cons]
    refine congrArg _ (funext fun outcome => ?_)
    cases outcome with
    | ok state => exact ih _
    | error f => rfl

/-- Collaborators answer what concerns the workspace, the registry and the clock.  What is shown
on the console does not reach them. -/
def deaf (collaborators : Partner steps σ) : Partner steps σ
  | .say _, s => ((), s)
  | .pause seconds, s => collaborators (.pause seconds) s
  | .localVersion name, s => collaborators (.localVersion name) s
  | .publishedAt name version, s => collaborators (.publishedAt name version) s
  | .publish name token flags dryRun, s => collaborators (.publish name token flags dryRun) s

/-- The line with which a release begins, as an exchange. -/
abbrev opened (plan : Plan) : Exchange steps := ⟨.say (openingLine plan), ()⟩

/-- A release is its opening line and its books. -/
theorem play_publishAll (collaborators : Partner steps σ) (names : List String) (s : σ) :
    (publishAll { plan with crates := names } policy).play (deaf collaborators) s =
      ((publishEach plan policy (pendingStates names) names).play (deaf collaborators) s).behind
        (opened { plan with crates := names }) := by
  rw [← publishEach_withCrates names]
  rfl

/-- A release begins with its opening line. -/
theorem exchanges_release (collaborators : Partner steps σ) (names : List String) (s : σ) :
    let record := ((publishAll { plan with crates := names } policy).play (deaf collaborators)
      s).exchanges
    record = opened { plan with crates := names } :: record.tail := by
  rw [play_publishAll]
  rfl

/-- **A release can be split anywhere.**  Let two lists of crates have no name in common.  A
release of both, one behind the other, begins with its opening line and then takes the course
of a release of the first list.  If that one fails without a report, or ends with an error,
there is nothing more to it: the failure is the same, or the report is the same with the
crates of the second list pending.  Otherwise it goes on with the course of a release of the
second list, which meets the collaborators where the first one left them, and ends like that
one, with the states of both lists. -/
theorem release_splits (plan : Plan) (policy : Policy) (first second : List String)
    (collaborators : Partner steps σ) (s : σ) (hdisjoint : ∀ name ∈ second, name ∉ first) :
    let release (names : List String) (s : σ) :=
      (publishAll { plan with crates := names } policy).play (deaf collaborators) s
    let former := release first s
    let latter := release second former.state
    let whole := release (first ++ second) s
    (∀ names s, (release names s).exchanges =
        opened { plan with crates := names } :: (release names s).exchanges.tail) ∧
      (∀ f, former.outcome = .error f →
        whole.outcome = .error f ∧ whole.exchanges.tail = former.exchanges.tail ∧
          whole.state = former.state) ∧
      (∀ report, former.outcome = .ok report → report.error ≠ none →
        whole.outcome =
            .ok ⟨report.states ++ pendingStates second, report.error, report.exitCode⟩ ∧
          whole.exchanges.tail = former.exchanges.tail ∧ whole.state = former.state) ∧
      (∀ report, former.outcome = .ok report → report.error = none →
        whole.outcome = latter.outcome.map (fun later =>
            ⟨report.states ++ later.states, later.error, later.exitCode⟩) ∧
          whole.exchanges.tail = former.exchanges.tail ++ latter.exchanges.tail ∧
          whole.state = latter.state) := by
  refine ⟨fun names s => exchanges_release collaborators names s, ?_⟩
  have hbooks := publishEach_pendingStates_append plan policy hdisjoint
  simp only [play_publishAll, Course.behind, List.tail_cons, hbooks, play_bind]
  generalize (publishEach plan policy (pendingStates first) first).play (deaf collaborators) s =
    former
  obtain ⟨outcome, es, s'⟩ := former
  refine ⟨?_, ?_, ?_⟩
  · rintro f rfl
    exact ⟨rfl, rfl, rfl⟩
  · rintro report rfl herror
    simp [Course.andThen, herror, play, Report.before]
  · rintro report rfl herror
    simp only [Course.andThen, if_pos herror, play_bind]
    generalize (publishEach plan policy (pendingStates second) second).play
      (deaf collaborators) s' = latter
    obtain ⟨outcome, es', s''⟩ := latter
    cases outcome with
    | error f => simp [Except.map]
    | ok later => simp [Except.map, play, Report.behind]

/-- Two crates with a slow registry, the second of which is refused: the release of both is that
of the first one and then that of the second one. -/
theorem release_splits_behind_core :
    let release (names : List String) (s : List String × List String) :=
      (publishAll { twoCrates with crates := names } .standard).play
        (deaf (slowRegistry ["app"])) s
    let former := release ["core"] ([], [])
    let latter := release ["app"] former.state
    (∀ name ∈ ["app"], name ∉ ["core"]) ∧
      former.outcome = .ok ⟨[("core", .published)], none, 0⟩ ∧
      latter.outcome = .ok ⟨[("app", .failed)],
        some "app: cargo publish для app завершился с кодом 101", 101⟩ ∧
      (release ["core", "app"] ([], [])).outcome =
        .ok ⟨[("core", .published), ("app", .failed)],
          some "app: cargo publish для app завершился с кодом 101", 101⟩ ∧
      (release ["core", "app"] ([], [])).exchanges.tail =
        former.exchanges.tail ++ latter.exchanges.tail := by
  obtain ⟨-, -, -, hwhole⟩ := release_splits twoCrates .standard ["core"] ["app"]
    (slowRegistry ["app"]) ([], []) (by decide)
  obtain ⟨houtcome, hexchanges, -⟩ := hwhole ⟨[("core", .published)], none, 0⟩ rfl rfl
  exact ⟨by decide, rfl, rfl, houtcome, hexchanges⟩

end ReleaseTrain.Publication
