import Mathlib.Data.List.TakeWhile
import ReleaseTrain.Proofs.Publication.Turn

/-!
# The turns of a release

A release is nothing but the turns of its crates: `turns` lists the course of
each of them, up to the first one that fails, and the exchanges of the release
are those of its turns, one turn after another.

* `turnsOf`: the turns of a release; `exchanges_publishAll`: a release consists of
  its opening line and its turns.
* `turn_of_getElem?_turns`: a turn is the turn of the crate at its place, and
  `lt_length_turns_iff`: a place is reached exactly when all turns before it ended
  well.
* `completed`: how many crates a release has brought to their end.
* `Seen`: what a record has to show for a crate to be visible, and
  `exists_seen_of_lt_completed`: the crates that a release has brought to their end
  were seen.
-/

namespace ReleaseTrain.Publication

open Dialogue

variable {σ : Type} (plan : Plan) (policy : Policy) (partner : Partner steps σ)

/-- The courses of the turns of crates, one after another, up to the first one
that fails. -/
def turns : List String → σ → List (Course steps σ CrateState)
  | [], _ => []
  | name :: rest, s =>
    let turn := (publishCrate plan policy name).play partner s
    match turn.outcome with
    | .ok _ => turn :: turns rest turn.state
    | .error _ => [turn]

/-- The turns of a release. -/
def turnsOf (s : σ) : List (Course steps σ CrateState) :=
  turns plan policy partner plan.crates (partner (.say (openingLine plan)) s).2

/-- Whether a turn ended well. -/
def endedWell (turn : Course steps σ CrateState) : Bool := turn.outcome.isOk

/-- How many crates from the first one on a release has brought to their end. -/
def completed (s : σ) : Nat := ((turnsOf plan policy partner s).takeWhile endedWell).length

variable {plan policy partner}

theorem endedWell_iff {turn : Course steps σ CrateState} :
    endedWell turn = true ↔ ∃ state, turn.outcome = .ok state := by
  rw [endedWell]
  cases turn.outcome with
  | ok state => simp [Except.isOk, Except.toBool]
  | error f => simp [Except.isOk, Except.toBool]

theorem turns_cons_of_ok {name : String} {rest : List String} {s : σ} {state : CrateState}
    (h : ((publishCrate plan policy name).play partner s).outcome = .ok state) :
    turns plan policy partner (name :: rest) s =
      (publishCrate plan policy name).play partner s ::
        turns plan policy partner rest ((publishCrate plan policy name).play partner s).state := by
  rw [turns, h]

theorem turns_cons_of_error {name : String} {rest : List String} {s : σ} {f : Failure}
    (h : ((publishCrate plan policy name).play partner s).outcome = .error f) :
    turns plan policy partner (name :: rest) s =
      [(publishCrate plan policy name).play partner s] := by
  rw [turns, h]

/-! ## Which turns there are -/

/-- A turn is the turn of the crate at its place. -/
theorem turn_of_getElem?_turns {names : List String} {s : σ} {k : Nat}
    {turn : Course steps σ CrateState} (h : (turns plan policy partner names s)[k]? = some turn) :
    ∃ name, names[k]? = some name ∧ Turn plan policy name (calls turn.exchanges) turn.outcome := by
  induction names generalizing s k with
  | nil => simp [turns] at h
  | cons name rest ih =>
    have hfirst := turn_of_unfolds (unfolds_play partner (publishCrate plan policy name) s)
    cases houtcome : ((publishCrate plan policy name).play partner s).outcome with
    | ok state =>
      rw [turns_cons_of_ok houtcome] at h
      cases k with
      | zero =>
        rw [List.getElem?_cons_zero, Option.some_inj] at h
        exact ⟨name, rfl, h ▸ hfirst⟩
      | succ k => exact ih h
    | error f =>
      rw [turns_cons_of_error houtcome] at h
      cases k with
      | zero =>
        rw [List.getElem?_cons_zero, Option.some_inj] at h
        exact ⟨name, rfl, h ▸ hfirst⟩
      | succ k => simp at h

/-- A place is reached exactly when all turns before it have ended well. -/
theorem lt_length_turns_iff {names : List String} {s : σ} {k : Nat} :
    k < (turns plan policy partner names s).length ↔
      k < names.length ∧ ∀ j < k, ∃ turn state,
        (turns plan policy partner names s)[j]? = some turn ∧ turn.outcome = .ok state := by
  induction names generalizing s k with
  | nil => simp [turns]
  | cons name rest ih =>
    cases houtcome : ((publishCrate plan policy name).play partner s).outcome with
    | ok state =>
      rw [turns_cons_of_ok houtcome]
      cases k with
      | zero => simp
      | succ k =>
        rw [List.length_cons, List.length_cons, Nat.succ_lt_succ_iff, Nat.succ_lt_succ_iff, ih]
        refine and_congr_right fun _ => ⟨fun h j hj => ?_, fun h j hj => ?_⟩
        · cases j with
          | zero => exact ⟨_, state, rfl, houtcome⟩
          | succ j => exact h j (Nat.lt_of_succ_lt_succ hj)
        · exact h (j + 1) (Nat.succ_lt_succ hj)
    | error f =>
      rw [turns_cons_of_error houtcome]
      cases k with
      | zero => simp
      | succ k =>
        constructor
        · intro h
          simp at h
        · rintro ⟨-, h⟩
          obtain ⟨turn, state, hturn, hstate⟩ := h 0 (Nat.succ_pos k)
          rw [List.getElem?_cons_zero, Option.some_inj] at hturn
          rw [← hturn, houtcome] at hstate
          cases hstate

theorem length_turns_of_forall_ok {names : List String} {s : σ}
    (h : ∀ turn ∈ turns plan policy partner names s, ∃ state, turn.outcome = .ok state) :
    (turns plan policy partner names s).length = names.length := by
  rcases Nat.lt_trichotomy (turns plan policy partner names s).length names.length with
    hlt | heq | hgt
  · refine absurd (lt_length_turns_iff.mpr ⟨hlt, fun j hj => ?_⟩) (Nat.lt_irrefl _)
    obtain ⟨state, hstate⟩ := h _ (List.getElem_mem hj)
    exact ⟨_, state, List.getElem?_eq_getElem hj, hstate⟩
  · exact heq
  · exact absurd (lt_length_turns_iff.mp hgt).1 (Nat.lt_irrefl _)

/-- The crates that a release has brought to their end are the first ones. -/
theorem exists_turn_of_lt_completed {s : σ} {i : Nat} (hi : i < completed plan policy partner s) :
    ∃ name turn state, plan.crates[i]? = some name ∧
      (turnsOf plan policy partner s)[i]? = some turn ∧ turn.outcome = .ok state ∧
        Turn plan policy name (calls turn.exchanges) turn.outcome := by
  rw [completed] at hi
  have hturn := List.prefix_iff_getElem?.mp
    (List.takeWhile_prefix endedWell (l := turnsOf plan policy partner s)) i hi
  have hended := List.mem_takeWhile_imp (List.getElem_mem hi)
  obtain ⟨state, hstate⟩ := endedWell_iff.mp hended
  obtain ⟨name, hname, h⟩ := turn_of_getElem?_turns hturn
  exact ⟨name, _, state, hname, hturn, hstate, h⟩

/-- A release that brought every turn to its end brought every crate to its end. -/
theorem completed_of_forall_endedWell {s : σ}
    (h : ∀ turn ∈ turnsOf plan policy partner s, endedWell turn = true) :
    completed plan policy partner s = plan.crates.length := by
  rw [completed, List.takeWhile_eq_self_iff.mpr h]
  exact length_turns_of_forall_ok fun turn hturn => endedWell_iff.mp (h turn hturn)

/-! ## What a release consists of -/

theorem publishEach_cons (states : Entries String CrateState) (name : String)
    (rest : List String) :
    publishEach plan policy states (name :: rest) =
      (publishCrate plan policy name).attempt >>= fun outcome =>
        match outcome with
        | .ok state => publishEach plan policy (states.put name state) rest
        | .error f =>
          if f.isReported then
            done ⟨states.put name .failed, some (name ++ ": " ++ f.message), f.exitCode⟩
          else fail f := rfl

/-- The books of several crates: the turn of the first one ends well and the books of the others
follow, or it fails and closes the books. -/
theorem publishEach_cons_cases {states : Entries String CrateState} {name : String}
    {rest : List String} {es : List (Exchange steps)} {o : Except Failure Report}
    (h : (publishEach plan policy states (name :: rest)).Unfolds es o) :
    (∃ state es₁ es₂, (publishCrate plan policy name).Unfolds es₁ (.ok state) ∧
        (publishEach plan policy (states.put name state) rest).Unfolds es₂ o ∧
          es = es₁ ++ es₂) ∨
      ∃ f, (publishCrate plan policy name).Unfolds es (.error f) ∧
        o = if f.isReported then
            .ok ⟨states.put name .failed, some (name ++ ": " ++ f.message), f.exitCode⟩
          else .error f := by
  rw [publishEach_cons, unfolds_bind_iff] at h
  rcases h with ⟨f, h, -⟩ | ⟨outcome, es₁, es₂, h₁, h₂, rfl⟩
  · obtain ⟨_, ho, -⟩ := unfolds_attempt_iff.mp h
    cases ho
  obtain ⟨_, ho, hturn⟩ := unfolds_attempt_iff.mp h₁
  obtain rfl := Except.ok.inj ho
  cases outcome with
  | ok state => exact .inl ⟨state, es₁, es₂, hturn, h₂, rfl⟩
  | error f =>
    refine .inr ⟨f, ?_⟩
    dsimp only at h₂
    by_cases hreported : f.isReported = true
    · rw [if_pos hreported, unfolds_done_iff] at h₂
      obtain ⟨rfl, rfl⟩ := h₂
      rw [List.append_nil, if_pos hreported]
      exact ⟨hturn, rfl⟩
    · rw [if_neg hreported, unfolds_fail_iff] at h₂
      obtain ⟨rfl, rfl⟩ := h₂
      rw [List.append_nil, if_neg hreported]
      exact ⟨hturn, rfl⟩

theorem exchanges_publishEach {names : List String} {states : Entries String CrateState} {s : σ} :
    ((publishEach plan policy states names).play partner s).exchanges =
      (turns plan policy partner names s).flatMap (·.exchanges) := by
  induction names generalizing states s with
  | nil => rfl
  | cons name rest ih =>
    rw [publishEach, play_bind, play_attempt, Course.andThen]
    cases houtcome : ((publishCrate plan policy name).play partner s).outcome with
    | ok state =>
      rw [turns_cons_of_ok houtcome, List.flatMap_cons]
      simp only [ih]
    | error f =>
      rw [turns_cons_of_error houtcome]
      by_cases hreported : f.isReported = true
      · simp [hreported, play, pure_eq]
      · simp [hreported, play]

/-- A release is its opening line and its books. -/
theorem unfolds_publishAll_iff {es : List (Exchange steps)} {o : Except Failure Report} :
    (publishAll plan policy).Unfolds es o ↔
      ∃ rest, es = ⟨.say (openingLine plan), ()⟩ :: rest ∧
        (publishEach plan policy (pendingStates plan.crates) plan.crates).Unfolds rest o :=
  unfolds_say_bind_iff

/-- A release is its opening line and its turns, one after another. -/
theorem exchanges_publishAll {s : σ} :
    ((publishAll plan policy).play partner s).exchanges =
      ⟨.say (openingLine plan), ()⟩ :: (turnsOf plan policy partner s).flatMap (·.exchanges) := by
  rw [turnsOf, ← exchanges_publishEach]
  rfl

/-! ## Crates that were seen -/

/-- A crate whose version was told, and that was found in the registry later on. -/
def Seen (name version : String) (record : List (Exchange steps)) : Prop :=
  ∃ date : Value, [told name (.ok version), looked name version (.ok date)].Sublist record ∧
    date.isTruthy = true

theorem Seen.mono {name version : String} {es record : List (Exchange steps)}
    (h : Seen name version es) (hsub : es.Sublist record) : Seen name version record := by
  obtain ⟨date, hseen, there⟩ := h
  exact ⟨date, hseen.trans hsub, there⟩

/-- A turn that ends well has seen its crate. -/
theorem Turn.exists_seen {name : String} {cs : List (Exchange steps)} {state : CrateState}
    (h : Turn plan policy name cs (.ok state)) (hreal : plan.dryRun = false) :
    ∃ version, Seen name version cs := by
  cases h with
  | passedOver version there => exact ⟨version, _, .refl _, there⟩
  | @entrusted version date absent answer after _ haftermath =>
    cases haftermath with
    | rehearsed dry => exact absurd dry (by simp [hreal])
    | @visible _ _ date' wait =>
      obtain ⟨there, front, rfl⟩ := wait.exists_eq_append
      refine ⟨version, date', .cons_cons _ (.cons _ (.cons _ ?_)), there⟩
      rw [List.singleton_sublist]
      simp

/-- A crate that a release has brought to its end was seen. -/
theorem exists_seen_of_lt_completed (hreal : plan.dryRun = false) {s : σ} {i : Nat}
    (hi : i < completed plan policy partner s) :
    ∃ name version, plan.crates[i]? = some name ∧
      Seen name version ((publishAll plan policy).play partner s).exchanges := by
  obtain ⟨name, turn, state, hname, hturn, hstate, h⟩ := exists_turn_of_lt_completed hi
  rw [hstate] at h
  obtain ⟨version, hseen⟩ := h.exists_seen hreal
  refine ⟨name, version, hname, hseen.mono ?_⟩
  rw [exchanges_publishAll, List.flatMap_def]
  have hmem : turn.exchanges ∈ (turnsOf plan policy partner s).map (·.exchanges) :=
    List.mem_map_of_mem (List.mem_of_getElem? hturn)
  exact (List.filter_sublist.trans (List.sublist_flatten_of_mem hmem)).cons _

end ReleaseTrain.Publication
