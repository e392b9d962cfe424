import Mathlib.Data.List.Basic
import ReleaseTrain.Proofs.Publication.Books
import ReleaseTrain.Proofs.Publication.Discipline
import ReleaseTrain.Proofs.Publication.Splitting
import ReleaseTrain.Release

/-!
# What the summary counts

A release that nothing stopped ends with a line that says how many crates it has published.

* `comesAgain`: whether a plan names the crate at a place again at a later one.
* `publications`: the publications of a release, each with its place in the plan.
* `countP_lasting`: the books, from a place on, against the publications from there on;
  `count_add_length`: the same for a whole release.
* `summary_counts_last_turns`: what the line says, and when it is the number of publications.

## Why a publication can be lost

The books have one entry for each name, and the work is done place by place.  If a crate has more
than one place, the state that its last turn leaves it in takes the place of the one before, also
when that was a publication.  Usually the registry has the crate by then, so that the last turn
passes it over, and the publication is counted as something that was there before.
-/

namespace ReleaseTrain.Publication

open Dialogue

variable {σ : Type} {plan : Plan} {policy : Policy} {partner : Partner steps σ} {s : σ}
  {name : String} {cs : List (Exchange steps)} {report : Report}

/-! ## Places that come again -/

/-- Whether the name at a place stands at a later place again. -/
def comesAgain (names : List String) (k : Nat) : Bool :=
  match names.drop k with
  | [] => false
  | name :: rest => rest.contains name

theorem comesAgain_of_drop {names rest : List String} {k : Nat} (h : names.drop k = name :: rest) :
    comesAgain names k = rest.contains name := by
  rw [comesAgain, h]

/-- Names that do not repeat do not come again. -/
theorem comesAgain_of_nodup {names : List String} (h : names.Nodup) (k : Nat) :
    comesAgain names k = false := by
  have hdrop : (names.drop k).Nodup := (List.drop_sublist k names).nodup h
  rw [comesAgain]
  split
  next => rfl
  next name rest heq =>
    rw [heq, List.nodup_cons] at hdrop
    simpa using hdrop.1

/-! ## Publications -/

/-- Whether an exchange is a publication. -/
def isPublication (e : Exchange steps) : Bool := kindOf e = .publication

/-- The publications of a release, each with its place in the plan. -/
def publications (plan : Plan) (policy : Policy) (partner : Partner steps σ) (s : σ) :
    List (Nat × Exchange steps) :=
  (placed plan policy partner s).filter fun x => isPublication x.2

/-- They are all publications of the release. -/
theorem map_snd_publications :
    (publications plan policy partner s).map (·.2) =
      ((publishAll plan policy).play partner s).exchanges.filter isPublication := by
  have hline : isPublication ⟨.say (openingLine plan), ()⟩ = false := rfl
  rw [exchanges_publishAll, List.filter_cons_of_neg (by simp [hline]), ← map_snd_placed,
    List.filter_map]
  rfl

/-- A publication is that of the crate at its place. -/
theorem exists_tried_of_mem_publications {x : Nat × Exchange steps}
    (h : x ∈ publications plan policy partner s) :
    ∃ name answer, plan.crates[x.1]? = some name ∧ x.2 = tried plan name answer := by
  obtain ⟨hmem, hkind⟩ := List.mem_filter.mp h
  have hpublication : kindOf x.2 = .publication := of_decide_eq_true hkind
  obtain ⟨turn, hturn, he⟩ := exists_turn_of_mem_placed hmem
  obtain ⟨name, hname, hlist⟩ := turn_of_getElem?_turns hturn
  have hcall : x.2 ∈ calls turn.exchanges := mem_calls.mpr ⟨he, by simp [hpublication]⟩
  obtain ⟨answer, htried⟩ := hlist.eq_tried_of_mem hcall hpublication
  exact ⟨name, answer, hname, htried⟩

theorem countP_isPublication_calls (es : List (Exchange steps)) :
    (calls es).countP isPublication = es.countP isPublication := by
  rw [calls, List.countP_filter]
  refine List.countP_congr fun e _ => ?_
  simp only [isPublication, Bool.and_eq_true, decide_eq_true_eq]
  exact ⟨(·.1), fun h => ⟨h, by simp [h]⟩⟩

/-- A turn that ends well publishes once if it leaves its crate published, and not at all if it
passes it over. -/
theorem Turn.countP_isPublication {state : CrateState} (h : Turn plan policy name cs (.ok state)) :
    cs.countP isPublication = if state = .published then 1 else 0 := by
  cases h with
  | passedOver version there => rfl
  | @entrusted version date absent answer cs o after =>
    have hnone : cs.countP isPublication = 0 := after.countP_publication
    have hstate : state = .published := by
      cases after with
      | rehearsed dry => rfl
      | visible real wait => rfl
    have htried : isPublication (tried plan name answer) = true := rfl
    have hcheck : isPublication (told name (.ok version)) = false ∧
      isPublication (looked name version (.ok date)) = false := ⟨rfl, rfl⟩
    simp [hnone, hstate, htried, hcheck]

theorem countP_isPublication_of_ok {state : CrateState}
    (h : ((publishCrate plan policy name).play partner s).outcome = .ok state) :
    ((publishCrate plan policy name).play partner s).exchanges.countP isPublication =
      if state = .published then 1 else 0 := by
  have hturn := turn_of_unfolds (unfolds_play partner (publishCrate plan policy name) s)
  rw [h] at hturn
  rw [← countP_isPublication_calls, hturn.countP_isPublication]

/-! ## The books against the publications -/

/-- If all turns from a place on end well, there are books about them, and the last entries in these
count the publications whose crates do not come again. -/
theorem countP_lasting {names : List String} {n : Nat} {s : σ} (hnames : plan.crates.drop n = names)
    (hended : ∀ turn ∈ turns plan policy partner names s, endedWell turn = true) :
    ∃ accounts : Entries String CrateState,
      ends names (turns plan policy partner names s) =
        accounts.map (fun account => (account.1, .ok account.2)) ∧
      accounts.map (·.1) = names ∧
      accounts.lasting.countP (fun account => account.2 == .published) =
        (numbered n ((turns plan policy partner names s).map (·.exchanges))).countP fun x =>
          isPublication x.2 && !comesAgain plan.crates x.1 := by
  -- along the names from the place on; `hnames` says which names of the plan they are
  induction names generalizing n s with
  | nil => exact ⟨[], rfl, rfl, rfl⟩
  | cons name rest ih =>
    have hrest : plan.crates.drop (n + 1) = rest := by
      rw [← List.drop_drop, hnames]
      rfl
    cases houtcome : ((publishCrate plan policy name).play partner s).outcome with
    | error f =>
      rw [turns_cons_of_error houtcome] at hended
      obtain ⟨state, hstate⟩ := endedWell_iff.mp (hended _ (List.mem_singleton_self _))
      cases houtcome.symm.trans hstate
    | ok state =>
      rw [turns_cons_of_ok houtcome] at hended ⊢
      obtain ⟨accounts, hends, hkeys, hcount⟩ :=
        ih hrest fun turn hturn => hended turn (List.mem_cons_of_mem _ hturn)
      refine ⟨(name, state) :: accounts, ?_, congrArg (name :: ·) hkeys, ?_⟩
      · rw [ends, List.map_cons, List.zip_cons_cons, houtcome, List.map_cons, ← hends]
        rfl
      · have hfirst := countP_isPublication_of_ok houtcome
        rw [Entries.lasting, hkeys, List.map_cons, numbered, List.countP_append, ← hcount,
          List.countP_map]
        simp only [Function.comp_def, comesAgain_of_drop hnames]
        -- what the first turn adds, it adds on both sides or on none
        cases hagain : rest.contains name with
        | true => simp
        | false => simp [hfirst, List.countP_cons, Nat.add_comm]

/-- What the books say about crates with a turn are the last entries about them. -/
theorem perm_putAll_pendingStates {accounts : Entries String CrateState} {names : List String}
    (hkeys : accounts.map (·.1) = names) :
    ((pendingStates names).putAll accounts).Perm accounts.lasting := by
  have hnodup : ((pendingStates names).map (·.1)).Nodup := Entries.nodup_putAll .nil
  have hnone : (pendingStates names).filter
      (fun entry => !(accounts.map (·.1)).contains entry.1) = [] := by
    refine List.filter_eq_nil_iff.mpr fun entry hentry => ?_
    have hname : entry.1 ∈ names :=
      mem_map_fst_pendingStates.mp (List.mem_map_of_mem (f := (·.1)) hentry)
    simpa [hkeys] using hname
  rw [← List.nil_append accounts.lasting, ← hnone]
  exact Entries.perm_putAll hnodup

/-- The crates that a report counts as published, and the publications whose crates come again, are
all publications together. -/
theorem count_add_length (h : ((publishAll plan policy).play partner s).outcome = .ok report)
    (hok : report.error = none) :
    report.count .published +
        ((publications plan policy partner s).filter fun x => comesAgain plan.crates x.1).length =
      (publications plan policy partner s).length := by
  have hdrop : plan.crates.drop 0 = plan.crates := rfl
  have hended : ∀ turn ∈ turns plan policy partner plan.crates
      (partner (.say (openingLine plan)) s).2, endedWell turn = true :=
    endedWell_of_outcome_ok h hok
  obtain ⟨accounts, hends, hkeys, hcount⟩ := countP_lasting hdrop hended
  have hstates : report.states = (pendingStates plan.crates).putAll accounts := by
    rw [outcome_publishAll, turnsOf, hends, reckon_of_ok] at h
    rw [← Except.ok.inj h]
  have hlast : report.count .published = ((publications plan policy partner s).filter
      fun x => !comesAgain plan.crates x.1).length := by
    rw [Report.count, ← List.countP_eq_length_filter, hstates,
      (perm_putAll_pendingStates hkeys).countP_eq, hcount, publications, List.filter_filter,
      ← List.countP_eq_length_filter]
    simp only [Bool.and_comm]
    rfl
  rw [hlast, Nat.add_comm, ← List.length_eq_length_filter_add]

/-! ## The summary -/

/-- **The summary counts last turns.**  If nothing stopped a release, its last line says how many
crates it has published.  This number leaves out the publications of crates that come again at a
later place, and counts all others.  So it is the number of publications exactly if no crate was
published at a place behind which it comes again, as in every plan without a repeated name. -/
theorem summary_counts_last_turns (plan : Plan) (policy : Policy) (partner : Partner steps σ)
    (s : σ) (report : Report)
    (h : ((publishAll plan policy).play partner s).outcome = .ok report)
    (hok : report.error = none) :
    let published := publications plan policy partner s
    published.map (·.2) =
        ((publishAll plan policy).play partner s).exchanges.filter isPublication ∧
      (∀ x ∈ published, ∃ name answer,
        plan.crates[x.1]? = some name ∧ x.2 = tried plan name answer) ∧
      report.count .published + (published.filter fun x => comesAgain plan.crates x.1).length =
        published.length ∧
      (report.count .published = published.length ↔
        ∀ x ∈ published, comesAgain plan.crates x.1 = false) ∧
      (plan.crates.Nodup → report.count .published = published.length) ∧
      ∀ (τ : Type) (console : Partner world τ) (t : τ),
        ∃ rest, ((Release.conclude report).play console t).exchanges =
          [⟨.say ("[publish] ✅ Завершено. Опубликовано: " ++ toString (report.count .published) ++
            rest), ()⟩] := by
  intro published
  have hsum : report.count .published +
      (published.filter fun x => comesAgain plan.crates x.1).length = published.length :=
    count_add_length h hok
  have hiff : report.count .published = published.length ↔
      ∀ x ∈ published, comesAgain plan.crates x.1 = false := by
    have hnone : (∀ x ∈ published, comesAgain plan.crates x.1 = false) ↔
        (published.filter fun x => comesAgain plan.crates x.1).length = 0 := by
      simp [List.filter_eq_nil_iff]
    rw [hnone]
    omega
  refine ⟨map_snd_publications, fun x => exists_tried_of_mem_publications, hsum, hiff,
    fun hnodup => hiff.mpr fun x _ => comesAgain_of_nodup hnodup x.1, fun τ console t => ?_⟩
  rw [Release.conclude, hok]
  exact ⟨_, by rw [String.append_assoc]; rfl⟩

/-- A plan that names a crate again behind another one.  With a slow registry two crates are
published, and one of them is counted. -/
theorem summary_counts_last_turns_of_core :
    let plan : Plan := ⟨["core", "app", "core"], none, [], false⟩
    let report : Report := ⟨[("core", .alreadyPublished), ("app", .published)], none, 0⟩
    ((publishAll plan .standard).play (slowRegistry []) ([], [])).outcome = .ok report ∧
      report.error = none ∧ report.count .published = 1 ∧
      (publications plan .standard (slowRegistry []) ([], [])).length = 2 := by
  intro plan report
  have houtcome : ((publishAll plan .standard).play (slowRegistry []) ([], [])).outcome =
      .ok report := rfl
  obtain ⟨-, -, hsum, -, -, -⟩ :=
    summary_counts_last_turns plan .standard (slowRegistry []) ([], []) report houtcome rfl
  have hcore : ((publications plan .standard (slowRegistry []) ([], [])).filter fun x =>
      comesAgain plan.crates x.1).length = 1 := rfl
  refine ⟨houtcome, rfl, rfl, ?_⟩
  rw [← hsum, hcore]
  rfl

/-- A plan that names its only crate twice.  The release is real and ends without an error, one
crate is published, and none is counted. -/
theorem publication_lost_at_second_turn :
    let plan : Plan := ⟨["app", "app"], none, [], false⟩
    let release := (publishAll plan .standard).play (slowRegistry []) ([], [])
    ∃ report, release.outcome = .ok report ∧ plan.dryRun = false ∧ report.error = none ∧
      report.count .published = 0 ∧ (release.exchanges.filter isPublication).length = 1 :=
  ⟨⟨[("app", .alreadyPublished)], none, 0⟩, rfl, rfl, rfl, rfl, rfl⟩

end ReleaseTrain.Publication
