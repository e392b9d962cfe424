import ReleaseTrain.Proofs.Publication.Turns

/-!
# Places in a plan

* `placed`: the exchanges of a release, each with the place in the plan at which it
  happened.
* `eventsAt`: what happened at a place; `eventsAt_placed`: it is what the turn of the
  crate at this place consists of.
* `pairwise_placed`: a release never goes back to an earlier place.

## Why places and not names

A plan may name a crate twice, so the name of a crate does not say to which of
its turns a call belongs.  The place in the plan does.
-/

namespace ReleaseTrain.Publication

variable {σ : Type} {plan : Plan} {policy : Policy} {partner : Partner steps σ}

/-- Records, one after another, each exchange with the number of its record. -/
def numbered : Nat → List (List (Exchange steps)) → List (Nat × Exchange steps)
  | _, [] => []
  | n, es :: rest => es.map (n, ·) ++ numbered (n + 1) rest

/-- The exchanges of a release behind its opening line, each with the place in the
plan at which it happened. -/
def placed (plan : Plan) (policy : Policy) (partner : Partner steps σ) (s : σ) :
    List (Nat × Exchange steps) :=
  numbered 0 ((turnsOf plan policy partner s).map (·.exchanges))

/-- The exchanges that happened at a place. -/
def eventsAt (k : Nat) (record : List (Nat × Exchange steps)) : List (Exchange steps) :=
  (record.filter fun x => x.1 = k).map (·.2)

theorem map_snd_numbered (n : Nat) (records : List (List (Exchange steps))) :
    (numbered n records).map (·.2) = records.flatten := by
  induction records generalizing n with
  | nil => rfl
  | cons es rest ih =>
    rw [numbered, List.map_append, List.map_map, ih, List.flatten_cons]
    simp [Function.comp_def]

theorem le_of_mem_numbered {n : Nat} {records : List (List (Exchange steps))}
    {x : Nat × Exchange steps} (h : x ∈ numbered n records) : n ≤ x.1 := by
  induction records generalizing n with
  | nil => cases h
  | cons es rest ih =>
    rw [numbered, List.mem_append] at h
    rcases h with h | h
    · obtain ⟨e, -, rfl⟩ := List.mem_map.mp h
      exact Nat.le_refl n
    · exact Nat.le_of_succ_le (ih h)

/-- Numbers never go down. -/
theorem pairwise_numbered (n : Nat) (records : List (List (Exchange steps))) :
    (numbered n records).Pairwise fun x y => x.1 ≤ y.1 := by
  induction records generalizing n with
  | nil => exact .nil
  | cons es rest ih =>
    rw [numbered, List.pairwise_append]
    refine ⟨?_, ih (n + 1), fun x hx y hy => ?_⟩
    · rw [List.pairwise_map]
      exact List.pairwise_iff_forall_sublist.mpr fun _ => Nat.le_refl n
    · obtain ⟨e, -, rfl⟩ := List.mem_map.mp hx
      exact Nat.le_of_succ_le (le_of_mem_numbered hy)

theorem eventsAt_numbered {n i : Nat} {records : List (List (Exchange steps))}
    {es : List (Exchange steps)} (h : records[i]? = some es) :
    eventsAt (n + i) (numbered n records) = es := by
  induction records generalizing n i with
  | nil => simp at h
  | cons first rest ih =>
    rw [numbered, eventsAt, List.filter_append, List.map_append]
    cases i with
    | zero =>
      rw [List.getElem?_cons_zero, Option.some_inj] at h
      have hrest : (numbered (n + 1) rest).filter (fun x => x.1 = n + 0) = [] := by
        rw [List.filter_eq_nil_iff]
        intro x hx
        have := le_of_mem_numbered hx
        simp
        omega
      rw [hrest, ← h]
      simp [List.filter_map, Function.comp_def]
    | succ i =>
      have hfirst : (first.map ((n, ·) : Exchange steps → Nat × Exchange steps)).filter
          (fun x => x.1 = n + (i + 1)) = [] := by
        simp [List.filter_map, Function.comp_def]
      rw [hfirst, List.map_nil, List.nil_append, show n + (i + 1) = n + 1 + i by omega]
      exact ih h

theorem exists_getElem?_of_mem_numbered {n k : Nat} {e : Exchange steps}
    {records : List (List (Exchange steps))} (h : (k, e) ∈ numbered n records) :
    ∃ i es, k = n + i ∧ records[i]? = some es ∧ e ∈ es := by
  induction records generalizing n with
  | nil => cases h
  | cons first rest ih =>
    rw [numbered, List.mem_append] at h
    rcases h with h | h
    · obtain ⟨e', he, heq⟩ := List.mem_map.mp h
      obtain ⟨rfl, rfl⟩ := Prod.mk.inj heq
      exact ⟨0, first, rfl, rfl, he⟩
    · obtain ⟨i, es, rfl, hes, he⟩ := ih h
      exact ⟨i + 1, es, by omega, hes, he⟩

/-- What happened at an earlier place stands in the part of a sorted record before. -/
theorem eventsAt_of_lt {before after record : List (Nat × Exchange steps)}
    {x : Nat × Exchange steps} (hsorted : record.Pairwise fun x y => x.1 ≤ y.1)
    (hsplit : record = before ++ x :: after) {j : Nat} (hj : j < x.1) :
    eventsAt j before = eventsAt j record := by
  have hafter : (x :: after).filter (fun y => y.1 = j) = [] := by
    rw [List.filter_eq_nil_iff]
    intro y hy
    rw [hsplit, List.pairwise_append, List.pairwise_cons] at hsorted
    have hle : x.1 ≤ y.1 := by
      rcases List.mem_cons.mp hy with rfl | hy
      · exact Nat.le_refl _
      · exact hsorted.2.1.1 y hy
    rw [decide_eq_true_iff]
    omega
  rw [hsplit, eventsAt, eventsAt, List.filter_append, hafter, List.append_nil]

section Placed

variable {s : σ} {k : Nat} {turn : Course steps σ CrateState}

/-- The record of a release, without the places. -/
theorem map_snd_placed :
    (placed plan policy partner s).map (·.2) =
      (turnsOf plan policy partner s).flatMap (·.exchanges) := by
  rw [placed, map_snd_numbered, List.flatMap_def]

/-- Places never go down in the record of a release. -/
theorem pairwise_placed : (placed plan policy partner s).Pairwise fun x y => x.1 ≤ y.1 :=
  pairwise_numbered _ _

/-- What happened at a place is what its turn consists of. -/
theorem eventsAt_placed (h : (turnsOf plan policy partner s)[k]? = some turn) :
    eventsAt k (placed plan policy partner s) = turn.exchanges := by
  have hexchanges : ((turnsOf plan policy partner s).map (·.exchanges))[k]? =
      some turn.exchanges := by
    rw [List.getElem?_map, h, Option.map_some]
  have hevents := eventsAt_numbered (n := 0) hexchanges
  rwa [Nat.zero_add] at hevents

/-- An exchange in the record of a release belongs to the turn at its place. -/
theorem exists_turn_of_mem_placed {e : Exchange steps}
    (h : (k, e) ∈ placed plan policy partner s) :
    ∃ turn, (turnsOf plan policy partner s)[k]? = some turn ∧ e ∈ turn.exchanges := by
  obtain ⟨i, es, rfl, hes, he⟩ := exists_getElem?_of_mem_numbered h
  rw [List.getElem?_map] at hes
  obtain ⟨turn, hturn, rfl⟩ := Option.map_eq_some_iff.mp hes
  rw [Nat.zero_add]
  exact ⟨turn, hturn, he⟩

end Placed

/-! ## An example -/

/-- A partner with a registry that shows a crate from the second look after its
publication on, and with some crates whose publication fails.  The state holds the
crates that the registry shows and those that it will show next. -/
def slowRegistry (refused : List String) : Partner steps (List String × List String)
  | .say _, s => ((), s)
  | .pause _, s => ((), s)
  | .localVersion _, s => (.ok "1.0.0", s)
  | .publishedAt name _, (shown, coming) =>
    (.ok (if name ∈ shown then .text (.whole "2024-05-06T07:08:09Z") else .null),
      (coming ++ shown, []))
  | .publish name _ _ _, (shown, coming) =>
    if name ∈ refused then (.error (.cargo (.unpublished name 101)), (shown, coming))
    else (.ok (), (shown, name :: coming))

/-- Two crates, the second of which needs the first. -/
def twoCrates : Plan := ⟨["core", "app"], none, [], false⟩

end ReleaseTrain.Publication
