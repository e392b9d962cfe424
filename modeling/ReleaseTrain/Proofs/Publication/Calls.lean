import ReleaseTrain.Proofs.Publication.Turns

/-!
# The calls about a crate

In a plan without repeated names a crate has one turn, so what is called about it can
be read off the record of the whole release.

* `Step.crate?`: the crate that a step names; `callsAbout`: the exchanges of a record
  that name a crate.
* `FirstLook`: how the first look at a crate was answered.
* `Turn.crate?_of_mem`: a turn names no crate but its own.
* `callsAbout_publishAll`: the calls of a release about a crate are those of its turn,
  and there are none if its turn has not come.
-/

namespace ReleaseTrain.Publication

open Dialogue

/-- The crate that a step names. -/
def Step.crate? : Step → Option String
  | .say _ | .pause _ => none
  | .localVersion name => some name
  | .publishedAt name _ => some name
  | .publish name _ _ _ => some name

/-- The exchanges of a record that name a crate. -/
def callsAbout (name : String) (es : List (Exchange steps)) : List (Exchange steps) :=
  es.filter fun e => e.question.crate? = some name

variable {σ : Type} {plan : Plan} {policy : Policy} {partner : Partner steps σ}
  {name other version : String} {cs es : List (Exchange steps)} {o : Except Failure CrateState}

theorem mem_callsAbout {e : Exchange steps} :
    e ∈ callsAbout name es ↔ e ∈ es ∧ e.question.crate? = some name := by
  simp [callsAbout]

@[simp] theorem callsAbout_nil : callsAbout name [] = [] := rfl

@[simp] theorem callsAbout_append (es es' : List (Exchange steps)) :
    callsAbout name (es ++ es') = callsAbout name es ++ callsAbout name es' :=
  List.filter_append ..

@[simp] theorem callsAbout_cons_say (line : String) (answer : Unit) :
    callsAbout name (⟨.say line, answer⟩ :: es) = callsAbout name es := by
  simp [callsAbout, Step.crate?]

@[simp] theorem callsAbout_cons_paused (seconds : Number) :
    callsAbout name (paused seconds :: es) = callsAbout name es := by
  simp [callsAbout, Step.crate?]

@[simp] theorem callsAbout_cons_told (answer : Except Failure String) :
    callsAbout name (told name answer :: es) = told name answer :: callsAbout name es := by
  simp [callsAbout, Step.crate?]

@[simp] theorem callsAbout_cons_looked (answer : Except Failure Value) :
    callsAbout name (looked name version answer :: es) =
      looked name version answer :: callsAbout name es := by
  simp [callsAbout, Step.crate?]

@[simp] theorem callsAbout_cons_tried (answer : Except Failure Unit) :
    callsAbout name (tried plan name answer :: es) =
      tried plan name answer :: callsAbout name es := by
  simp [callsAbout, Step.crate?]

/-- What names a crate is a call. -/
theorem callsAbout_calls : callsAbout name (calls es) = callsAbout name es := by
  rw [callsAbout, calls, List.filter_filter, callsAbout]
  refine List.filter_congr fun e _ => ?_
  obtain ⟨question, answer⟩ := e
  cases question <;> simp [Step.crate?, kindOf, Step.kind]

/-- The first look at a crate was answered so. -/
def FirstLook (name version : String) (answer : Except Failure Value)
    (cs : List (Exchange steps)) : Prop :=
  cs.find? (fun e => kindOf e = .look) = some (looked name version answer)

/-- A turn names no crate but its own. -/
theorem Turn.crate?_of_mem (h : Turn plan policy name cs o) {e : Exchange steps} (he : e ∈ cs) :
    e.question.crate? = none ∨ e.question.crate? = some name := by
  rcases h.eq_of_mem he with ⟨answer, rfl⟩ | ⟨answer, rfl⟩ | ⟨seconds, rfl⟩ |
    ⟨version, answer, -, rfl⟩
  · exact .inr rfl
  · exact .inr rfl
  · exact .inl rfl
  · exact .inr rfl

theorem Turn.callsAbout_of_ne (h : Turn plan policy name cs o) (hne : other ≠ name) :
    callsAbout other cs = [] := by
  rw [callsAbout, List.filter_eq_nil_iff]
  intro e he
  rcases h.crate?_of_mem he with hcrate | hcrate
  · simp [hcrate]
  · simp [hcrate, hne.symm]

/-- Crates that are not in a list of names are not named in their turns. -/
theorem callsAbout_turns_of_notMem {names : List String} {s : σ} (hname : name ∉ names) :
    callsAbout name ((turns plan policy partner names s).flatMap (·.exchanges)) = [] := by
  rw [callsAbout, List.filter_eq_nil_iff]
  intro e he
  obtain ⟨turn, hturn, he⟩ := List.mem_flatMap.mp he
  obtain ⟨k, hk, rfl⟩ := List.getElem_of_mem hturn
  obtain ⟨other, hother, h⟩ := turn_of_getElem?_turns (List.getElem?_eq_getElem hk)
  have hne : name ≠ other := fun heq => hname (heq ▸ List.mem_of_getElem? hother)
  have hnone : e ∉ callsAbout name (turns plan policy partner names s)[k].exchanges := by
    rw [← callsAbout_calls, h.callsAbout_of_ne hne]
    exact List.not_mem_nil
  rw [mem_callsAbout] at hnone
  simpa using fun hcrate => hnone ⟨he, hcrate⟩

/-- What is called about the first crate is called in the first turn. -/
theorem callsAbout_turns_cons_self {rest : List String} {s : σ} (hname : name ∉ rest) :
    callsAbout name ((turns plan policy partner (name :: rest) s).flatMap (·.exchanges)) =
      callsAbout name ((publishCrate plan policy name).play partner s).exchanges := by
  cases houtcome : ((publishCrate plan policy name).play partner s).outcome with
  | ok state =>
    rw [turns_cons_of_ok houtcome, List.flatMap_cons, callsAbout_append,
      callsAbout_turns_of_notMem hname, List.append_nil]
  | error f =>
    rw [turns_cons_of_error houtcome, List.flatMap_cons, List.flatMap_nil, List.append_nil]

/-- What is called about another crate is called behind the first turn, if that ends well. -/
theorem callsAbout_turns_cons_of_ne {first : String} {rest : List String} {s : σ}
    {state : CrateState} (hne : name ≠ first)
    (houtcome : ((publishCrate plan policy first).play partner s).outcome = .ok state) :
    callsAbout name ((turns plan policy partner (first :: rest) s).flatMap (·.exchanges)) =
      callsAbout name ((turns plan policy partner rest
        ((publishCrate plan policy first).play partner s).state).flatMap (·.exchanges)) := by
  have hfirst := turn_of_unfolds (unfolds_play partner (publishCrate plan policy first) s)
  rw [turns_cons_of_ok houtcome, List.flatMap_cons, callsAbout_append, ← callsAbout_calls,
    hfirst.callsAbout_of_ne hne, List.nil_append]

/-- The calls of turns about a crate are those of its own turn. -/
theorem callsAbout_turns {names : List String} {s : σ} {k : Nat} (hnodup : names.Nodup)
    (hname : names[k]? = some name) :
    callsAbout name ((turns plan policy partner names s).flatMap (·.exchanges)) =
      ((turns plan policy partner names s)[k]?.map fun turn =>
        callsAbout name turn.exchanges).getD [] := by
  induction names generalizing s k with
  | nil => cases hname
  | cons first rest ih =>
    rw [List.nodup_cons] at hnodup
    cases k with
    | zero =>
      obtain rfl := Option.some.inj hname
      rw [callsAbout_turns_cons_self hnodup.1]
      cases houtcome : ((publishCrate plan policy first).play partner s).outcome with
      | ok state => rw [turns_cons_of_ok houtcome]; rfl
      | error f => rw [turns_cons_of_error houtcome]; rfl
    | succ k =>
      rw [List.getElem?_cons_succ] at hname
      have hne : name ≠ first := fun heq => hnodup.1 (heq ▸ List.mem_of_getElem? hname)
      cases houtcome : ((publishCrate plan policy first).play partner s).outcome with
      | ok state =>
        rw [callsAbout_turns_cons_of_ne hne houtcome, ih hnodup.2 hname, turns_cons_of_ok houtcome,
          List.getElem?_cons_succ]
      | error f =>
        have hfirst := turn_of_unfolds (unfolds_play partner (publishCrate plan policy first) s)
        rw [turns_cons_of_error houtcome, List.flatMap_cons, List.flatMap_nil, List.append_nil,
          ← callsAbout_calls, hfirst.callsAbout_of_ne hne]
        rfl

/-- The calls of a release about a crate are those of its turn. -/
theorem callsAbout_publishAll {s : σ} {k : Nat} (hnodup : plan.crates.Nodup)
    (hname : plan.crates[k]? = some name) :
    callsAbout name ((publishAll plan policy).play partner s).exchanges =
      ((turnsOf plan policy partner s)[k]?.map fun turn =>
        callsAbout name (calls turn.exchanges)).getD [] := by
  rw [exchanges_publishAll, callsAbout_cons_say, turnsOf, callsAbout_turns hnodup hname]
  simp only [callsAbout_calls]

end ReleaseTrain.Publication
