import ReleaseTrain.Proofs.Publication.Turns

/-!
# The books of a release

A release keeps books about its crates, and its report is what stands in them at the
end.

* `reckon`: the books, kept from the ends of the turns alone, and
  `outcome_publishAll`: they are the report.
* `endedWell_of_outcome_ok`: a report without an error is one about turns that all
  ended well, and `exitCode_ne_zero_of_reckon`: one with an error claims no success.
-/

namespace ReleaseTrain

/-- No failure asks for the exit code that claims success. -/
theorem Failure.exitCode_ne_zero (f : Failure) : f.exitCode ≠ 0 := by
  cases f with
  | cargo f =>
    rw [exitCode]
    split
    next => exact Int.one_ne_zero
    next hcode => exact hcode
  | _ => exact Int.one_ne_zero

namespace Publication

open Dialogue

variable {σ : Type} {plan : Plan} {policy : Policy} {partner : Partner steps σ}

/-- The books of a release, kept from the ends of its turns: the crates that ended
well get their states one after another, and the first failure closes them. -/
def reckon (states : Entries String CrateState) :
    List (String × Except Failure CrateState) → Except Failure Report
  | [] => .ok ⟨states, none, 0⟩
  | (name, .ok state) :: rest => reckon (states.put name state) rest
  | (name, .error f) :: _ =>
    if f.isReported then
      .ok ⟨states.put name .failed, some (name ++ ": " ++ f.message), f.exitCode⟩
    else .error f

/-- The names of crates, each with the end of its turn. -/
def ends (names : List String) (turns : List (Course steps σ CrateState)) :
    List (String × Except Failure CrateState) :=
  names.zip (turns.map (·.outcome))

/-- A release ends as its books do. -/
theorem outcome_publishEach {names : List String} {states : Entries String CrateState} {s : σ} :
    ((publishEach plan policy states names).play partner s).outcome =
      reckon states (ends names (turns plan policy partner names s)) := by
  induction names generalizing states s with
  | nil => rfl
  | cons name rest ih =>
    rw [publishEach, play_bind, play_attempt, Course.andThen]
    cases houtcome : ((publishCrate plan policy name).play partner s).outcome with
    | ok state =>
      rw [turns_cons_of_ok houtcome, ends, List.map_cons, List.zip_cons_cons, houtcome, reckon]
      exact ih
    | error f =>
      rw [turns_cons_of_error houtcome, ends, List.map_cons, List.zip_cons_cons, houtcome, reckon]
      by_cases hreported : f.isReported = true
      · simp [hreported, play, pure_eq]
      · simp [hreported, play]

theorem outcome_publishAll {s : σ} :
    ((publishAll plan policy).play partner s).outcome =
      reckon (pendingStates plan.crates) (ends plan.crates (turnsOf plan policy partner s)) := by
  rw [turnsOf, ← outcome_publishEach]
  rfl

/-- If all turns end well, the books show how. -/
theorem reckon_of_ok (states accounts : Entries String CrateState) :
    reckon states (accounts.map fun account => (account.1, .ok account.2)) =
      .ok ⟨states.putAll accounts, none, 0⟩ := by
  induction accounts generalizing states with
  | nil => rfl
  | cons account rest ih =>
    rw [List.map_cons, reckon, ih]
    rfl

/-- If all turns end in one way, so do the books. -/
theorem ends_of_forall_eq {names : List String} {turns : List (Course steps σ CrateState)}
    {o : Except Failure CrateState} (hlength : turns.length = names.length)
    (h : ∀ turn ∈ turns, turn.outcome = o) :
    ends names turns = names.map fun name => (name, o) := by
  rw [ends]
  apply List.ext_getElem
  · simp [hlength]
  · intro i h₁ h₂
    rw [List.getElem_zip, List.getElem_map, List.getElem_map, h _ (List.getElem_mem _)]

/-- Books without an error are the books of turns that all ended well. -/
theorem ok_of_reckon {states : Entries String CrateState}
    {accounts : List (String × Except Failure CrateState)} {report : Report}
    (h : reckon states accounts = .ok report) (hok : report.error = none) :
    ∀ account ∈ accounts, ∃ state, account.2 = .ok state := by
  induction accounts generalizing states with
  | nil => simp
  | cons account rest ih =>
    obtain ⟨name, outcome⟩ := account
    cases outcome with
    | ok state =>
      rw [reckon] at h
      intro account haccount
      rcases List.mem_cons.mp haccount with rfl | hrest
      · exact ⟨state, rfl⟩
      · exact ih h account hrest
    | error f =>
      rw [reckon] at h
      split at h
      · rw [← Except.ok.inj h] at hok
        cases hok
      · cases h

/-- Books with an error ask for an exit code that does not claim success. -/
theorem exitCode_ne_zero_of_reckon {states : Entries String CrateState}
    {accounts : List (String × Except Failure CrateState)} {report : Report} {error : String}
    (h : reckon states accounts = .ok report) (herror : report.error = some error) :
    report.exitCode ≠ 0 := by
  induction accounts generalizing states with
  | nil =>
    cases h
    cases herror
  | cons account rest ih =>
    obtain ⟨name, outcome⟩ := account
    cases outcome with
    | ok state => exact ih h
    | error f =>
      rw [reckon] at h
      split at h
      · cases h
        exact f.exitCode_ne_zero
      · cases h

/-- A release that ends without an error has brought every crate to its end. -/
theorem endedWell_of_outcome_ok {s : σ} {report : Report}
    (h : ((publishAll plan policy).play partner s).outcome = .ok report)
    (hok : report.error = none) :
    ∀ turn ∈ turnsOf plan policy partner s, endedWell turn = true := by
  rw [outcome_publishAll] at h
  intro turn hturn
  obtain ⟨k, hk, rfl⟩ := List.getElem_of_mem hturn
  have hlt : k < plan.crates.length := (lt_length_turns_iff.mp hk).1
  obtain ⟨state, hstate⟩ := ok_of_reckon h hok
    (plan.crates[k], (turnsOf plan policy partner s)[k].outcome) (by
      rw [ends, List.mem_iff_getElem]
      exact ⟨k, by simpa using Nat.lt_min.mpr ⟨hlt, hk⟩, by simp⟩)
  exact endedWell_iff.mpr ⟨state, hstate⟩

end Publication

end ReleaseTrain
