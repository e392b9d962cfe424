import ReleaseTrain.Proofs.Publication.Places

/-!
# Dependencies first

A crate may only be published when the crates before it in the plan can be
downloaded.  `Confirmed` says what a turn has to show for that, and
`confirmed_before_publication` that a release never publishes a crate before every
earlier turn has shown it, in the part of the record before that call.
-/

namespace ReleaseTrain.Publication

variable {σ : Type} {plan : Plan} {policy : Policy} {partner : Partner steps σ}

/-- The calls of a turn that show that the crate is visible in the registry. -/
inductive Confirmed (plan : Plan) (policy : Policy) (name : String)
    (cs : List (Exchange steps)) : Prop
  /-- The first look at the registry found the crate. -/
  | found {version : String} {date : Value}
      (first : cs.find? (fun e => kindOf e = .look) = some (looked name version (.ok date)))
      (known : told name (.ok version) ∈ cs) (there : date.isTruthy = true)
  /-- The crate was published once and without a failure, a later look found it, and
  it was left time to spread. -/
  | published {version : String} {date : Value} {before between : List (Exchange steps)}
      (split : cs = before ++ tried plan name (.ok ()) ::
        (between ++ [looked name version (.ok date), paused policy.settling]))
      (once : cs.countP (fun e => kindOf e = .publication) = 1)
      (known : told name (.ok version) ∈ before) (there : date.isTruthy = true)

/-- A turn that ends well leaves a visible crate behind. -/
theorem Turn.confirmed {name : String} {cs : List (Exchange steps)} {state : CrateState}
    (h : Turn plan policy name cs (.ok state)) (hreal : plan.dryRun = false) :
    Confirmed plan policy name cs := by
  cases h with
  | passedOver version there => exact .found rfl (List.mem_cons_self ..) there
  | @entrusted version date absent answer after _ haftermath =>
    cases haftermath with
    | rehearsed dry => exact absurd dry (by simp [hreal])
    | @visible _ _ date' wait =>
      obtain ⟨there, front, hfront⟩ := wait.exists_eq_append
      have hnone : after.countP (fun e => kindOf e = .publication) = 0 := by
        rw [List.countP_eq_zero]
        intro e he
        rcases wait.eq_of_mem he with ⟨seconds, rfl⟩ | ⟨answer, rfl⟩ <;> simp
      have hsplit : told name (.ok version) :: looked name version (.ok date) ::
            tried plan name (.ok ()) :: after =
          [told name (.ok version), looked name version (.ok date)] ++ tried plan name (.ok ()) ::
            (front ++ [looked name version (.ok date'), paused policy.settling]) := by
        rw [hfront]
        rfl
      refine .published hsplit ?_ (List.mem_cons_self ..) there
      simp [hnone]

/-- Every turn before another one has left a visible crate behind. -/
theorem confirmed_of_lt {names : List String} {s : σ} (hreal : plan.dryRun = false) {j k : Nat}
    (hjk : j < k) (hk : k < (turns plan policy partner names s).length) :
    ∃ name turn, names[j]? = some name ∧ (turns plan policy partner names s)[j]? = some turn ∧
      Confirmed plan policy name (calls turn.exchanges) := by
  obtain ⟨turn, state, hturn, hstate⟩ := (lt_length_turns_iff.mp hk).2 j hjk
  obtain ⟨name, hname, h⟩ := turn_of_getElem?_turns hturn
  rw [hstate] at h
  exact ⟨name, turn, hname, hturn, h.confirmed hreal⟩

/-- **Dependencies first.**  A release that is no rehearsal shows its opening line
and then goes through the places of the plan in order; whenever it publishes, it
publishes the crate at that place, and in the part of the record before, the turn
at every earlier place has shown that its crate is visible. -/
theorem confirmed_before_publication (plan : Plan) (policy : Policy) (partner : Partner steps σ)
    (s : σ) (hreal : plan.dryRun = false) :
    ((publishAll plan policy).play partner s).exchanges =
        ⟨.say (openingLine plan), ()⟩ :: (placed plan policy partner s).map (·.2) ∧
      (placed plan policy partner s).Pairwise (fun x y => x.1 ≤ y.1) ∧
      ∀ before k e after, placed plan policy partner s = before ++ (k, e) :: after →
        kindOf e = .publication →
          ∃ name answer, plan.crates[k]? = some name ∧ e = tried plan name answer ∧
            ∀ j < k, ∃ earlier, plan.crates[j]? = some earlier ∧
              Confirmed plan policy earlier (calls (eventsAt j before)) := by
  refine ⟨by rw [exchanges_publishAll, map_snd_placed], pairwise_placed, ?_⟩
  intro before k e after hsplit hkind
  have hmem : (k, e) ∈ placed plan policy partner s := by
    rw [hsplit]
    exact List.mem_append_right before (List.mem_cons_self ..)
  obtain ⟨turn, hturn, he⟩ := exists_turn_of_mem_placed hmem
  obtain ⟨name, hname, h⟩ := turn_of_getElem?_turns hturn
  have hcall : e ∈ calls turn.exchanges := mem_calls.mpr ⟨he, by simp [hkind]⟩
  obtain ⟨answer, rfl⟩ := h.eq_tried_of_mem hcall hkind
  refine ⟨name, answer, hname, rfl, fun j hjk => ?_⟩
  have hk : k < (turnsOf plan policy partner s).length := (List.getElem?_eq_some_iff.mp hturn).1
  obtain ⟨earlier, turn', hearlier, hturn', hconfirmed⟩ := confirmed_of_lt hreal hjk hk
  refine ⟨earlier, hearlier, ?_⟩
  rw [eventsAt_of_lt pairwise_placed hsplit hjk, eventsAt_placed hturn']
  exact hconfirmed

/-- With a slow registry the first of two crates is looked for twice before the
second one is published. -/
theorem confirmed_before_publication_of_app :
    twoCrates.dryRun = false ∧
      ∃ before after, placed twoCrates .standard (slowRegistry []) ([], []) =
          before ++ (1, tried twoCrates "app" (.ok ())) :: after ∧
        Confirmed twoCrates .standard "core" (calls (eventsAt 0 before)) := by
  have hsplit : placed twoCrates .standard (slowRegistry []) ([], []) =
      (placed twoCrates .standard (slowRegistry []) ([], [])).take 19 ++
        (1, tried twoCrates "app" (.ok ())) ::
          (placed twoCrates .standard (slowRegistry []) ([], [])).drop 20 := rfl
  obtain ⟨-, -, h⟩ :=
    confirmed_before_publication twoCrates .standard (slowRegistry []) ([], []) rfl
  obtain ⟨name, answer, -, -, hconfirmed⟩ := h _ _ _ _ hsplit rfl
  obtain ⟨earlier, hearlier, hcore⟩ := hconfirmed 0 Nat.zero_lt_one
  cases hearlier
  exact ⟨rfl, _, _, hsplit, hcore⟩

end ReleaseTrain.Publication
