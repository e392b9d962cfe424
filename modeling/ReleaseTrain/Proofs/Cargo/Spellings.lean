import ReleaseTrain.Proofs.Cargo.Masking

/-!
# Two spellings of the token option

Among the flags that a release hands on to cargo there can be a token as well.  Cargo takes it in
two spellings: as the argument behind `--token`, and in one argument with it, behind an equals sign.

* `AlikeApart`: flags that differ at most in tokens of the first spelling; such flags are shown
  alike (`masked_eq_of_alikeApart`).
* `joined`: the second spelling.
* `masked_append`: what is hidden behind the first arguments depends on the last one of them only.
* `hidden_behind_option_only`: the statement, and `joined_token_shown`: a token that is shown.

## Why the second spelling is shown

An argument is hidden for the one before it and never for what it is itself.  An argument that
joins option and token is not the option, so it neither is a secret nor makes one of the next
argument.  It is hidden by accident only, when the option stands alone in front of it.
-/

namespace ReleaseTrain.Cargo

/-- The option and a token in one argument. -/
def joined (token : String) : String := tokenOption ++ "=" ++ token

/-- Flags that are the same but for tokens that stand as arguments of their own behind the option.
A token is not the option itself. -/
inductive AlikeApart : List String → List String → Prop
  | nil : AlikeApart [] []
  | flag (argument : String) {flags flags' : List String} (rest : AlikeApart flags flags') :
      AlikeApart (argument :: flags) (argument :: flags')
  | token {token token' : String} {flags flags' : List String} (h : token ≠ tokenOption)
      (h' : token' ≠ tokenOption) (rest : AlikeApart flags flags') :
      AlikeApart (tokenOption :: token :: flags) (tokenOption :: token' :: flags')

/-- Whether what comes next is a secret, given whether the first argument is one. -/
def secretNext (secret : Bool) : List String → Bool
  | [] => secret
  | argument :: rest => secretNext (argument == tokenOption) rest

variable {flags flags' front back : List String} {token token' argument argument' : String}

/-! ## Behind the option -/

theorem AlikeApart.refl (flags : List String) : AlikeApart flags flags := by
  induction flags with
  | nil => exact .nil
  | cons argument rest ih => exact .flag argument ih

theorem AlikeApart.append (h : AlikeApart flags flags') (back : List String) :
    AlikeApart (flags ++ back) (flags' ++ back) := by
  induction h with
  | nil => exact .refl back
  | flag argument _ ih => exact .flag argument ih
  | token h h' _ ih => exact .token h h' ih

/-- Flags that differ in tokens behind the option are shown alike. -/
theorem masked_eq_of_alikeApart (h : AlikeApart flags flags') (secret : Bool) :
    masked secret flags = masked secret flags' := by
  induction h generalizing secret with
  | nil => rfl
  | flag argument _ ih => rw [masked, masked, ih]
  | token h h' _ ih =>
    -- neither token is the option, so the same is hidden behind the two
    have hnext : (_ == tokenOption) = false := beq_false_of_ne h
    have hnext' : (_ == tokenOption) = false := beq_false_of_ne h'
    have hoption : (tokenOption == tokenOption) = true := beq_self_eq_true tokenOption
    simp only [masked, hoption, if_true, hnext, hnext', ih]

/-- The flags stand between arguments that do not depend on them. -/
theorem exists_publishArguments_eq (manifest : Path) (token : Option String) :
    ∃ ending, ∀ flags, publishArguments manifest token flags =
      ["publish", "--manifest-path", manifest.text] ++ (flags ++ ending) :=
  ⟨_, fun _ => List.append_assoc ..⟩

theorem AlikeApart.inCommand (h : AlikeApart flags flags') (manifest : Path)
    (token : Option String) :
    AlikeApart (publishArguments manifest token flags)
      (publishArguments manifest token flags') := by
  obtain ⟨ending, heq⟩ := exists_publishArguments_eq manifest token
  rw [heq, heq]
  exact .flag _ (.flag _ (.flag _ (h.append ending)))

/-! ## In one argument with the option -/

theorem joined_ne_tokenOption (token : String) : joined token ≠ tokenOption := by
  intro h
  have hlength := congrArg String.length h
  simp only [joined, String.length_append] at hlength
  have hequals : "=".length = 1 := rfl
  omega

theorem joined_inj : joined token = joined token' ↔ token = token' :=
  String.append_right_inj (tokenOption ++ "=")

theorem masked_append (secret : Bool) (front back : List String) :
    masked secret (front ++ back) =
      masked secret front ++ masked (secretNext secret front) back := by
  induction front generalizing secret with
  | nil => rfl
  | cons argument rest ih => rw [List.cons_append, masked, masked, ih, List.cons_append, secretNext]

/-- What comes behind arguments is a secret exactly if the last one is the option. -/
theorem secretNext_cons (secret : Bool) (argument : String) (rest : List String) :
    secretNext secret (argument :: rest) = true ↔
      (argument :: rest).getLast? = some tokenOption := by
  induction rest generalizing secret argument with
  | nil => simp [secretNext]
  | cons next rest ih => rw [secretNext, ih, List.getLast?_cons_cons]

/-- An argument in the middle of a line can be read off the line. -/
theorem intercalate_middle_inj (separator : String) (front back : List String) :
    separator.intercalate (front ++ argument :: back) =
        separator.intercalate (front ++ argument' :: back) ↔ argument = argument' := by
  refine ⟨fun h => ?_, fun h => by rw [h]⟩
  have hback : separator.intercalate (argument :: back) =
      separator.intercalate (argument' :: back) := by
    cases front with
    | nil => exact h
    | cons first front =>
      have hfront : first :: front ≠ [] := List.cons_ne_nil first front
      rw [String.intercalate_append_of_ne_nil hfront (List.cons_ne_nil argument back),
        String.intercalate_append_of_ne_nil hfront (List.cons_ne_nil argument' back)] at h
      exact (String.append_right_inj _).mp h
  cases back with
  | nil => simpa using hback
  | cons next back =>
    rw [String.intercalate_cons_cons, String.intercalate_cons_cons] at hback
    exact (String.append_left_inj _).mp ((String.append_left_inj _).mp hback)

/-- A line shows which token is joined to the option, unless the argument counts as a secret for
the one before it. -/
theorem shown_joined_iff (front back : List String) :
    shown (front ++ joined token :: back) = shown (front ++ joined token' :: back) ↔
      token = token' ∨ secretNext false front = true := by
  have hnext (token : String) : (joined token == tokenOption) = false :=
    beq_false_of_ne (joined_ne_tokenOption token)
  rw [shown, shown, String.append_right_inj, masked_append, masked_append, masked, masked, hnext,
    hnext, intercalate_middle_inj]
  cases secretNext false front with
  | true => simp
  | false => simp [joined_inj]

/-- **A token among the flags is hidden behind its option, and only there.**  Whatever manifest,
token of the release and other flags there are: flags that differ in tokens behind the option make
commands that are shown alike.  But if a token is joined to the option by an equals sign, then two
tokens are shown alike only if they are the same, or if the argument in front is the option too. -/
theorem hidden_behind_option_only (manifest : Path) (token : Option String) :
    (∀ flags flags', AlikeApart flags flags' →
      shown (publishArguments manifest token flags) =
        shown (publishArguments manifest token flags')) ∧
      ∀ before after secret secret',
        shown (publishArguments manifest token (before ++ joined secret :: after)) =
            shown (publishArguments manifest token (before ++ joined secret' :: after)) ↔
          secret = secret' ∨ (manifest.text :: before).getLast? = some tokenOption := by
  refine ⟨fun flags flags' h => ?_, fun before after secret secret' => ?_⟩
  · rw [shown, shown, masked_eq_of_alikeApart (h.inCommand manifest token)]
  · obtain ⟨ending, heq⟩ := exists_publishArguments_eq manifest token
    have hmiddle (secret : String) :
        publishArguments manifest token (before ++ joined secret :: after) =
          (["publish", "--manifest-path", manifest.text] ++ before) ++
            joined secret :: (after ++ ending) := by
      simp only [heq, List.append_assoc, List.cons_append]
    have hfront : secretNext false (["publish", "--manifest-path", manifest.text] ++ before) =
        secretNext false (manifest.text :: before) := rfl
    rw [hmiddle, hmiddle, shown_joined_iff, hfront, secretNext_cons]

/-- The token is hidden between other flags. -/
theorem hidden_behind_option_only_between :
    AlikeApart ["--locked", "--token", "cio1", "--quiet"]
        ["--locked", "--token", "cio2", "--quiet"] ∧
      shown (publishArguments ⟨.relative, ["app"]⟩ none
          ["--locked", "--token", "cio1", "--quiet"]) =
        shown (publishArguments ⟨.relative, ["app"]⟩ none
          ["--locked", "--token", "cio2", "--quiet"]) := by
  have halike : AlikeApart ["--locked", "--token", "cio1", "--quiet"]
      ["--locked", "--token", "cio2", "--quiet"] :=
    .flag "--locked" (.token (by decide) (by decide) (.refl ["--quiet"]))
  exact ⟨halike, (hidden_behind_option_only ⟨.relative, ["app"]⟩ none).1 _ _ halike⟩

/-- A token that is joined to the option stands in the line, and another one makes another
line. -/
theorem joined_token_shown :
    shown (publishArguments ⟨.relative, ["app"]⟩ none ["--token=cio1"]) =
        "cargo publish --manifest-path app --token=cio1" ∧
      shown (publishArguments ⟨.relative, ["app"]⟩ none ["--token=cio1"]) ≠
        shown (publishArguments ⟨.relative, ["app"]⟩ none ["--token=cio2"]) := by
  decide

end ReleaseTrain.Cargo
