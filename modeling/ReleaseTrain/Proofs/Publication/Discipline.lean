import ReleaseTrain.Proofs.Publication.Places

/-!
# How a turn proceeds

Publishing cannot be undone, so it must be known when it happens, how often and
what comes after it.  `Disciplined` states the rules for the calls of one turn, and
`disciplined_turns` that every turn of every release keeps to them, whatever
the answers are.
-/

namespace ReleaseTrain.Publication

variable {σ : Type} {plan : Plan} {policy : Policy} {name : String} {cs : List (Exchange steps)}
  {o : Except Failure CrateState}

/-- The rules for the calls of the turn of a crate. -/
structure Disciplined (plan : Plan) (name : String) (cs : List (Exchange steps)) : Prop where
  /-- The version of the crate is asked for before all else, and never again. -/
  version_first : ∃ answer rest, cs = told name answer :: rest ∧ ∀ e ∈ rest, kindOf e ≠ .version
  /-- A version that was told is looked up next. -/
  look_next : ∀ version rest, cs = told name (.ok version) :: rest →
    ∃ check tail, rest = looked name version check :: tail
  /-- The crate is published exactly if that look did not find it, ... -/
  publication_iff : (∃ e ∈ cs, kindOf e = .publication) ↔
    ∃ version date, cs[1]? = some (looked name version (.ok date)) ∧ date.isTruthy = false
  /-- ... never twice, ... -/
  publication_once : cs.countP (fun e => kindOf e = .publication) ≤ 1
  /-- ... and as the plan wants it. -/
  publication_as_planned : ∀ e ∈ cs, kindOf e = .publication → ∃ answer, e = tried plan name answer
  /-- Nothing is called after a publication that failed or was none. -/
  nothing_after : ∀ before answer after, cs = before ++ tried plan name answer :: after →
    (plan.dryRun = true ∨ ∃ f, answer = .error f) → after = []
  /-- In a rehearsal there are no pauses and no further looks, published or not. -/
  rehearsal : plan.dryRun = true →
    cs.countP (fun e => kindOf e = .look) ≤ 1 ∧ ∀ e ∈ cs, kindOf e ≠ .pause
  /-- Every look is for the version that was told. -/
  same_version : ∀ e ∈ cs, kindOf e = .look →
    ∃ version answer, told name (.ok version) ∈ cs ∧ e = looked name version answer

/-- After a publication nothing is published and no version is asked for. -/
theorem Aftermath.kindOf_of_mem {version : String} {answer : Except Failure Unit}
    (h : Aftermath plan policy name version answer cs o) {e : Exchange steps} (he : e ∈ cs) :
    kindOf e = .pause ∨ kindOf e = .look := by
  rcases h.eq_of_mem he with ⟨seconds, rfl⟩ | ⟨answer, rfl⟩
  · exact .inl rfl
  · exact .inr rfl

/-- Nothing follows a publication that failed or was none. -/
theorem Aftermath.eq_nil {version : String} {answer : Except Failure Unit}
    (h : Aftermath plan policy name version answer cs o)
    (hnone : plan.dryRun = true ∨ ∃ f, answer = .error f) : cs = [] := by
  cases h with
  | refused f => rfl
  | rehearsed dry => rfl
  | lost real wait =>
    rcases hnone with hdry | ⟨f, hf⟩
    · exact absurd hdry (by simp [real])
    · cases hf
  | visible real wait =>
    rcases hnone with hdry | ⟨f, hf⟩
    · exact absurd hdry (by simp [real])
    · cases hf

theorem Turn.version_first (h : Turn plan policy name cs o) :
    ∃ answer rest, cs = told name answer :: rest ∧ ∀ e ∈ rest, kindOf e ≠ .version := by
  cases h with
  | unknown f => exact ⟨_, [], rfl, by simp⟩
  | unchecked version f =>
    refine ⟨_, _, rfl, ?_⟩
    simp
  | passedOver version there =>
    refine ⟨_, _, rfl, ?_⟩
    simp
  | entrusted absent after =>
    refine ⟨_, _, rfl, fun e he => ?_⟩
    rw [List.mem_cons, List.mem_cons] at he
    rcases he with rfl | rfl | he
    · simp
    · simp
    · rcases after.kindOf_of_mem he with hkind | hkind <;> simp [hkind]

theorem Turn.look_next (h : Turn plan policy name cs o) {version : String}
    {rest : List (Exchange steps)} (hcs : cs = told name (.ok version) :: rest) :
    ∃ check tail, rest = looked name version check :: tail := by
  cases h with
  | unknown f => cases hcs
  | unchecked version f =>
    cases hcs
    exact ⟨_, _, rfl⟩
  | passedOver version there =>
    cases hcs
    exact ⟨_, _, rfl⟩
  | entrusted absent after =>
    cases hcs
    exact ⟨_, _, rfl⟩

theorem Turn.publication_iff (h : Turn plan policy name cs o) :
    (∃ e ∈ cs, kindOf e = .publication) ↔
      ∃ version date, cs[1]? = some (looked name version (.ok date)) ∧ date.isTruthy = false := by
  constructor
  · rintro ⟨e, he, hkind⟩
    cases h with
    | unknown f =>
      rw [List.mem_singleton.mp he] at hkind
      cases hkind
    | unchecked version f =>
      rw [List.mem_cons, List.mem_singleton] at he
      rcases he with rfl | rfl <;> cases hkind
    | passedOver version there =>
      rw [List.mem_cons, List.mem_singleton] at he
      rcases he with rfl | rfl <;> cases hkind
    | entrusted absent after => exact ⟨_, _, rfl, absent⟩
  · rintro ⟨version, date, hlook, habsent⟩
    cases h with
    | unknown f => cases hlook
    | unchecked version f => cases hlook
    | passedOver version there =>
      cases hlook
      rw [there] at habsent
      cases habsent
    | @entrusted _ _ _ answer _ _ after =>
      refine ⟨tried plan name answer, ?_, kindOf_tried ..⟩
      simp

theorem Aftermath.countP_publication {version : String} {answer : Except Failure Unit}
    (h : Aftermath plan policy name version answer cs o) :
    cs.countP (fun e => kindOf e = .publication) = 0 := by
  rw [List.countP_eq_zero]
  intro e he
  rcases h.kindOf_of_mem he with hkind | hkind <;> simp [hkind]

theorem Turn.publication_once (h : Turn plan policy name cs o) :
    cs.countP (fun e => kindOf e = .publication) ≤ 1 := by
  cases h with
  | unknown f => simp
  | unchecked version f => simp
  | passedOver version there => simp
  | entrusted absent after => simp [after.countP_publication]

/-- A publication in a turn stands behind the question for the version and the
first look, and the aftermath behind it. -/
theorem Turn.aftermath_of_eq_append {before after : List (Exchange steps)}
    {answer : Except Failure Unit} (h : Turn plan policy name cs o)
    (hcs : cs = before ++ tried plan name answer :: after) :
    ∃ version, Aftermath plan policy name version answer after o := by
  cases h with
  | unknown f => rcases before with _ | ⟨a, _ | ⟨b, before⟩⟩ <;> cases hcs
  | unchecked version f => rcases before with _ | ⟨a, _ | ⟨b, _ | ⟨c, before⟩⟩⟩ <;> cases hcs
  | passedOver version there => rcases before with _ | ⟨a, _ | ⟨b, _ | ⟨c, before⟩⟩⟩ <;> cases hcs
  | @entrusted version _ _ _ cs _ haftermath =>
    rcases before with _ | ⟨a, _ | ⟨b, _ | ⟨c, before⟩⟩⟩
    · cases hcs
    · cases hcs
    · cases hcs
      exact ⟨version, haftermath⟩
    · -- a second publication would be part of the aftermath of the first
      have hmem : tried plan name answer ∈ cs := by
        injection hcs with _ hcs
        injection hcs with _ hcs
        injection hcs with _ hcs
        rw [hcs]
        exact List.mem_append_right before (List.mem_cons_self ..)
      rcases haftermath.kindOf_of_mem hmem with hkind | hkind <;> cases hkind

theorem Turn.rehearsal (h : Turn plan policy name cs o) (hdry : plan.dryRun = true) :
    cs.countP (fun e => kindOf e = .look) ≤ 1 ∧ ∀ e ∈ cs, kindOf e ≠ .pause := by
  cases h with
  | unknown f => simp
  | unchecked version f => simp
  | passedOver version there => simp
  | entrusted absent after =>
    rw [after.eq_nil (.inl hdry)]
    simp

/-- A turn keeps to the rules. -/
theorem Turn.disciplined (h : Turn plan policy name cs o) : Disciplined plan name cs where
  version_first := h.version_first
  look_next _ _ hcs := h.look_next hcs
  publication_iff := h.publication_iff
  publication_once := h.publication_once
  publication_as_planned _ he hkind := h.eq_tried_of_mem he hkind
  nothing_after _ _ _ hcs hnone := by
    obtain ⟨version, haftermath⟩ := h.aftermath_of_eq_append hcs
    exact haftermath.eq_nil hnone
  rehearsal hdry := h.rehearsal hdry
  same_version e he hkind := by
    rcases h.eq_of_mem he with ⟨answer, rfl⟩ | ⟨answer, rfl⟩ | ⟨seconds, rfl⟩ | hlooked
    · cases hkind
    · cases hkind
    · cases hkind
    · exact hlooked

/-- **How a turn proceeds.**  A release is its opening line and the turns at the
places of the plan that it reaches, one after another, and each of them keeps to
the rules for the crate at its place. -/
theorem disciplined_turns (plan : Plan) (policy : Policy) (partner : Partner steps σ) (s : σ) :
    ((publishAll plan policy).play partner s).exchanges =
        ⟨.say (openingLine plan), ()⟩ ::
          (turnsOf plan policy partner s).flatMap (·.exchanges) ∧
      ∀ (k : Nat) (turn : Course steps σ CrateState),
        (turnsOf plan policy partner s)[k]? = some turn →
          ∃ name, plan.crates[k]? = some name ∧ Disciplined plan name (calls turn.exchanges) := by
  refine ⟨exchanges_publishAll, fun k turn hturn => ?_⟩
  obtain ⟨name, hname, h⟩ := turn_of_getElem?_turns hturn
  exact ⟨name, hname, h.disciplined⟩

/-- The turn of the second crate with a slow registry, in which it is published. -/
theorem disciplined_turns_at_app :
    ∃ turn, (turnsOf twoCrates .standard (slowRegistry []) ([], []))[1]? = some turn ∧
      tried twoCrates "app" (.ok ()) ∈ calls turn.exchanges ∧
      Disciplined twoCrates "app" (calls turn.exchanges) := by
  obtain ⟨turn, hturn⟩ : ∃ turn,
      (turnsOf twoCrates .standard (slowRegistry []) ([], []))[1]? = some turn := ⟨_, rfl⟩
  obtain ⟨name, hname, hdisciplined⟩ :=
    (disciplined_turns twoCrates .standard (slowRegistry []) ([], [])).2 1 turn hturn
  cases hname
  refine ⟨turn, hturn, ?_, hdisciplined⟩
  cases hturn
  exact List.mem_cons_of_mem _ (List.mem_cons_of_mem _ (List.mem_cons_self ..))

end ReleaseTrain.Publication
