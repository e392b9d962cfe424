import ReleaseTrain.Proofs.Cargo.Masking
import ReleaseTrain.Proofs.Cargo.Metadata
import ReleaseTrain.Proofs.Dialogue.Likeness
import ReleaseTrain.Proofs.Publication.CarriedOut

/-!
# The token is not shown

Two publications that differ in their tokens alone do the same, and they show the same.

* `SameButToken`: an exchange with the world, and the same exchange with another token.
* `alike_publishAll`: the two publications are alike in the world, up to any relation that
  holds between the runs of cargo that publish, and between any other exchange and itself.
* `token_not_shown`: the statement.

## Why the relation is left open

A rehearsal runs no cargo that publishes, so its two records are not only alike but equal.
Both follow from one proof, once with `SameButToken` for the relation and once with
equality.
-/

namespace ReleaseTrain

/-- Whether a request runs cargo in order to publish.  Only these runs leave their streams
to the console. -/
def Request.publishes : Request → Bool
  | .cargo _ _ captured => !captured
  | _ => false

namespace Publication

open Dialogue

/-- An exchange with the world, and the same exchange with another token: a run of cargo
that publishes has the respective token as its last argument, behind `--token`, and any
other exchange is the same. -/
inductive SameButToken (token token' : String) : Exchange world → Exchange world → Prop
  | same (e : Exchange world) (h : e.question.publishes = false) : SameButToken token token' e e
  | token (directory : Path) (arguments : List String) (answer : Except Failure Finished) :
      SameButToken token token'
        ⟨.cargo directory (arguments ++ [Cargo.tokenOption, token]) false, answer⟩
        ⟨.cargo directory (arguments ++ [Cargo.tokenOption, token']) false, answer⟩

/-! ## Parts without a token -/

section Parts

variable {α : Type} {R : Exchange world → Exchange world → Prop} {workspace : Workspace}
  {client : Registry.Client} {policy : Policy} {name version : String}
  (hsame : ∀ e : Exchange world, e.question.publishes = false → R e e)

include hsame

theorem alike_ask {q : Request} (hq : q.publishes = false)
    {next next' : q.Answer → Dialogue world α} (h : ∀ answer, Alike R (next answer) (next' answer)) :
    Alike R (ask (T := world) q next) (ask (T := world) q next') :=
  .ask (T := world) id (fun answer => hsame ⟨q, answer⟩ hq) h

theorem alike_say (line : String) : Alike R (World.say line) (World.say line) :=
  alike_ask hsame rfl fun _ => .done ()

theorem alike_pause (seconds : Number) : Alike R (World.pause seconds) (World.pause seconds) :=
  alike_ask hsame rfl fun _ => .done ()

theorem alike_manifest : Alike R (workspace.manifest name) (workspace.manifest name) := by
  rw [Workspace.manifest, Workspace.crate_eq]
  exact .bind (alike_ask hsame rfl fun answer => .ofExcept _) fun crate => .done crate.manifest

theorem alike_version : Alike R (workspace.version name) (workspace.version name) := by
  rw [Workspace.version, Workspace.crate_eq]
  exact .bind (alike_ask hsame rfl fun answer => .ofExcept _) fun crate => .done crate.version

theorem alike_noAnswer (address reason : String) :
    Alike R (Registry.Client.noAnswer address reason) (Registry.Client.noAnswer address reason) :=
  .bind (alike_ask hsame rfl fun _ => .done ()) fun _ => .done Value.null

theorem alike_publishedAt :
    Alike R (client.publishedAt name version) (client.publishedAt name version) := by
  rw [Registry.Client.publishedAt]
  refine .bind (alike_ask hsame rfl fun answer => .done answer) fun answer => ?_
  cases answer with
  | error f =>
    dsimp only
    split
    · exact alike_noAnswer hsame _ _
    · exact .fail f
  | ok response =>
    dsimp only
    split
    · exact .fail _
    · exact alike_noAnswer hsame _ _
    · exact .done _

theorem alike_poll (left : Nat) :
    Alike R (carryOut workspace client (poll policy name version left))
      (carryOut workspace client (poll policy name version left)) := by
  induction left with
  | zero => exact .fail _
  | succ left ih =>
    simp only [poll, carryOut_bind, carryOut_pause, carryOut_publishedAt]
    refine .bind (alike_pause hsame _) fun _ => .bind (alike_publishedAt hsame) fun date => ?_
    split
    · exact .bind (alike_say hsame _) fun _ => .done date
    · split
      · exact ih
      · simp only [carryOut_bind, carryOut_say]
        exact .bind (alike_say hsame _) fun _ => ih

theorem alike_waitUntilVisible :
    Alike R (carryOut workspace client (waitUntilVisible policy name version))
      (carryOut workspace client (waitUntilVisible policy name version)) := by
  simp only [waitUntilVisible, carryOut_bind, carryOut_say]
  refine .bind (alike_say hsame _) fun _ => .bind (alike_poll hsame _) fun date => ?_
  split
  · exact .fail _
  · simp only [carryOut_bind, carryOut_say, carryOut_pause]
    exact .bind (alike_say hsame _) fun _ => .bind (alike_pause hsame _) fun _ => .done date

end Parts

/-! ## Parts with a token -/

section Tokens

variable {R : Exchange world → Exchange world → Prop} {workspace : Workspace}
  {client : Registry.Client} {plan : Plan} {policy : Policy} {token token' : String}
  (hsame : ∀ e : Exchange world, e.question.publishes = false → R e e)
  (hpublication : plan.dryRun = false → ∀ directory arguments answer,
    R ⟨.cargo directory (arguments ++ [Cargo.tokenOption, token]) false, answer⟩
      ⟨.cargo directory (arguments ++ [Cargo.tokenOption, token']) false, answer⟩)
  (htoken : token ≠ "") (htoken' : token' ≠ "")

include hsame hpublication htoken htoken'

theorem alike_publish (name : String) :
    Alike R (workspace.publish name (some token) plan.flags plan.dryRun)
      (workspace.publish name (some token') plan.flags plan.dryRun) := by
  refine .bind (alike_manifest hsame) fun manifest => ?_
  cases hdry : plan.dryRun with
  | true =>
    simp only [if_true]
    rw [Cargo.shown_publishArguments htoken htoken']
    exact alike_say hsame _
  | false =>
    simp only [Bool.false_eq_true, if_false]
    rw [Cargo.publishArguments_of_token htoken, Cargo.publishArguments_of_token htoken',
      Workspace.run_eq, Workspace.run_eq]
    refine .bind (.ask (T := world) id (fun answer => hpublication hdry _ _ answer) fun answer =>
      .ofExcept _) fun finished => ?_
    split
    · exact .fail _
    · exact .done ()

theorem alike_publishCrate (name : String) :
    Alike R (carryOut workspace client (publishCrate { plan with token := some token } policy name))
      (carryOut workspace client
        (publishCrate { plan with token := some token' } policy name)) := by
  simp only [publishCrate, carryOut_bind, carryOut_localVersion, carryOut_publishedAt,
    carryOut_say]
  refine .bind (alike_version hsame) fun version => .bind (alike_publishedAt hsame) fun date =>
    .bind (alike_say hsame _) fun _ => ?_
  split
  · exact .bind (alike_say hsame _) fun _ => .done _
  · simp only [carryOut_bind, carryOut_say, carryOut_publish]
    refine .bind (alike_say hsame _) fun _ =>
      .bind (alike_publish hsame hpublication htoken htoken' name) fun _ => ?_
    split
    · exact .done _
    · simp only [carryOut_bind, carryOut_say]
      exact .bind (alike_waitUntilVisible hsame) fun _ => .bind (alike_say hsame _) fun _ => .done _

theorem alike_publishEach (states : Entries String CrateState) (names : List String) :
    Alike R
      (carryOut workspace client
        (publishEach { plan with token := some token } policy states names))
      (carryOut workspace client
        (publishEach { plan with token := some token' } policy states names)) := by
  induction names generalizing states with
  | nil => exact .done _
  | cons name rest ih =>
    rw [publishEach, publishEach, carryOut_bind, carryOut_bind, carryOut_attempt, carryOut_attempt]
    refine .bind (alike_publishCrate hsame hpublication htoken htoken' name).attempt
      fun outcome => ?_
    cases outcome with
    | ok state => exact ih _
    | error f =>
      dsimp only
      split
      · exact .done _
      · exact .fail f

/-- Two publications that differ in their tokens alone are alike in the world. -/
theorem alike_publishAll :
    Alike R (carryOut workspace client (publishAll { plan with token := some token } policy))
      (carryOut workspace client (publishAll { plan with token := some token' } policy)) := by
  rw [publishAll, publishAll, carryOut_bind, carryOut_bind, carryOut_say]
  exact .bind (alike_say hsame _) fun _ => alike_publishEach hsame hpublication htoken htoken' _ _

end Tokens

/-! ## The statement -/

variable {σ : Type}

/-- A partner who does not look at the token makes no difference between exchanges that are
the same but for it. -/
theorem respects_sameButToken {token token' : String} {partner : Partner world σ}
    (hblind : ∀ directory arguments s,
      partner (.cargo directory (arguments ++ [Cargo.tokenOption, token]) false) s =
        partner (.cargo directory (arguments ++ [Cargo.tokenOption, token']) false) s) :
    Respects (SameButToken token token') partner := by
  intro e e' s s' h hanswer
  cases h with
  | same e h => exact hanswer
  | token directory arguments answer => exact (hblind directory arguments s).symm.trans hanswer

theorem respects_eq (partner : Partner world σ) : Respects Eq partner := by
  rintro e _ s s' rfl hanswer
  exact hanswer

/-- **The token is not shown.**  Let two plans differ in their tokens alone, neither of which
is empty, and let nobody in the world answer to a run of cargo that publishes according to
the token at its end.  Then the two publications end in the same way and leave the world in
the same state, and their exchanges are the same one by one, but for the last argument of
the runs of cargo that publish.  If they are rehearsals, their exchanges are equal. -/
theorem token_not_shown (plan : Plan) (policy : Policy) (workspace : Workspace)
    (client : Registry.Client) (partner : Partner world σ) (s : σ) (token token' : String)
    (htoken : token ≠ "") (htoken' : token' ≠ "")
    (hblind : ∀ directory arguments s,
      partner (.cargo directory (arguments ++ [Cargo.tokenOption, token]) false) s =
        partner (.cargo directory (arguments ++ [Cargo.tokenOption, token']) false) s) :
    let course (token : String) :=
      (carryOut workspace client (publishAll { plan with token := some token } policy)).play
        partner s
    (course token').outcome = (course token).outcome ∧
      (course token').state = (course token).state ∧
      List.Forall₂ (SameButToken token token') (course token).exchanges
        (course token').exchanges ∧
      (plan.dryRun = true → (course token').exchanges = (course token).exchanges) := by
  intro course
  have halike : Alike (SameButToken token token')
      (carryOut workspace client (publishAll { plan with token := some token } policy))
      (carryOut workspace client (publishAll { plan with token := some token' } policy)) :=
    alike_publishAll .same (fun _ => .token) htoken htoken'
  obtain ⟨houtcome, hstate, hexchanges⟩ := halike.play (respects_sameButToken hblind) s
  refine ⟨houtcome, hstate, hexchanges, fun hdry => ?_⟩
  have hequal : Alike Eq
      (carryOut workspace client (publishAll { plan with token := some token } policy))
      (carryOut workspace client (publishAll { plan with token := some token' } policy)) :=
    alike_publishAll (fun _ _ => rfl) (fun hreal => absurd hdry (by simp [hreal])) htoken htoken'
  have hforall := (hequal.play (respects_eq partner) s).2.2
  rw [List.forall₂_eq_eq_eq] at hforall
  exact hforall.symm

/-- A token that looks like the option, with a flag that does too. -/
theorem token_not_shown_behind_option :
    "--token" ≠ "" ∧ "secret" ≠ "" ∧
      (∀ directory arguments s,
        appWorld (.cargo directory (arguments ++ [Cargo.tokenOption, "--token"]) false) s =
          appWorld (.cargo directory (arguments ++ [Cargo.tokenOption, "secret"]) false) s) ∧
      let course (token : String) :=
        (carryOut appWorkspace standardClient
          (publishAll ⟨["app"], some token, ["--token"], false⟩ .standard)).play
            appWorld false
      (course "--token").outcome.toOption =
          some ⟨[("app", .published)], none, 0⟩ ∧
        (course "secret").outcome = (course "--token").outcome ∧
        List.Forall₂ (SameButToken "--token" "secret") (course "--token").exchanges
          (course "secret").exchanges := by
  have htoken : "--token" ≠ "" := by decide
  have htoken' : "secret" ≠ "" := by decide
  have hblind : ∀ directory arguments s,
      appWorld (.cargo directory (arguments ++ [Cargo.tokenOption, "--token"]) false) s =
        appWorld (.cargo directory (arguments ++ [Cargo.tokenOption, "secret"]) false) s :=
    fun _ _ _ => rfl
  obtain ⟨houtcome, -, hexchanges, -⟩ := token_not_shown
    ⟨["app"], none, ["--token"], false⟩ .standard appWorkspace standardClient
    appWorld false "--token" "secret" htoken htoken' hblind
  exact ⟨htoken, htoken', hblind, by decide +kernel, houtcome, hexchanges⟩

end Publication

end ReleaseTrain
