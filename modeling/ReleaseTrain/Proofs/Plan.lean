import ReleaseTrain.Plan
import ReleaseTrain.Proofs.Text.Words

/-!
# What a plan is made of

* `exists_of_ofSettings`: a plan that was put together consists of what its sources
  say.
* `crates_ne_nil`: it names a crate.
* `Lists`: the words that a setting stands for; `lists_of_listOf`: a list is made of nothing else.
* `secretIn`: what stands in an environment variable; `eq_of_tokenIn`: the token is made of it.
* `listOf_of_split`: a text is a list of its words.
* `listOf_join`, `listOf_map_text`: a list of words can be written as one text or as a list
  of texts, and `texts_serve_as_lists`: a plan does not depend on which it is.
* `ofSettings_congr`: a plan depends on no more of its settings than what they come to.
-/

namespace ReleaseTrain.Plan

variable {setting : String → Option Value} {given : List String}
  {environment : Entries String String} {dryRun : Bool} {plan : Plan}

/-- A plan that was put together consists of what its sources say. -/
theorem exists_of_ofSettings (h : ofSettings setting given environment dryRun = .ok plan) :
    ∃ token crates flags,
      tokenIn environment ((setting "token_env").getD (.text standardTokenVariable)) = .ok token ∧
      crateNames given ((setting "crates").getD .null) = .ok crates ∧
      listOf ((setting "publish_flags").getD .null) = .ok flags ∧
      plan = ⟨crates, token, flags,
        dryRun || ((setting "dry_run").getD (.bool false)).isTruthy⟩ := by
  unfold ofSettings at h
  split at h
  next => cases h
  next token htoken =>
    split at h
    next => cases h
    next crates hcrates =>
      split at h
      next => cases h
      next flags hflags =>
        exact ⟨token, crates, flags, htoken, hcrates, hflags, (Except.ok.inj h).symm⟩

theorem crateNames_ne_nil {v : Value} {crates : List String} (h : crateNames given v = .ok crates) :
    crates ≠ [] := by
  unfold crateNames at h
  split at h
  next =>
    split at h
    next => cases h
    next names hnames =>
      cases h
      split
      next => simp [standardCrates]
      next hne => exact fun hnil => hne (List.isEmpty_iff.mpr hnil)
  next hne =>
    cases h
    exact fun hnil => hne (List.isEmpty_iff.mpr hnil)

/-- A plan names a crate. -/
theorem crates_ne_nil (h : ofSettings setting given environment dryRun = .ok plan) :
    plan.crates ≠ [] := by
  obtain ⟨token, crates, flags, -, hcrates, -, rfl⟩ := exists_of_ofSettings h
  exact crateNames_ne_nil hcrates

/-! ## What the words and the token are -/

/-- The words that a setting stands for: none if it counts as absent, those of a text as a command
line is split, and one for each member of anything else. -/
inductive Lists : Value → List String → Prop
  | absent {v : Value} (h : v.isTruthy = false) : Lists v []
  | text {t : Text} {words : List String} (h : Text.Words.split t.shown = .ok words) :
      Lists (.text t) words
  | members {v : Value} {members : List Value} (other : ∀ t, v ≠ .text t)
      (h : v.members? = some members) : Lists v (members.map Value.sentence)

theorem lists_of_listOf {v : Value} {words : List String} (h : listOf v = .ok words) :
    Lists v words := by
  unfold listOf at h
  split at h
  next =>
    split at h
    next t =>
      split at h
      next words' hsplit =>
        obtain rfl := Except.ok.inj h
        exact .text hsplit
      next => cases h
    next other =>
      split at h
      next members hmembers =>
        split at h
        next =>
          obtain rfl := Except.ok.inj h
          exact .members other hmembers
        next => cases h
      next => cases h
  next habsent =>
    obtain rfl := Except.ok.inj h
    exact .absent (Bool.not_eq_true _ |>.mp habsent)

/-- What stands in the environment variable that a setting names, without the white space around
it; nothing if there is no such variable. -/
def secretIn (environment : Entries String String) (name : Value) : String :=
  String.ofList (Text.trim Text.isSpace ((environment.get? name.sentence).getD "").toList)

/-- The token is what stands in its variable, if anything does. -/
theorem eq_of_tokenIn {name : Value} {token : Option String}
    (h : tokenIn environment name = .ok token) :
    token = if secretIn environment name = "" then none else some (secretIn environment name) := by
  unfold tokenIn at h
  split at h
  next =>
    obtain rfl := Except.ok.inj h
    rw [secretIn]
    generalize Text.trim Text.isSpace ((environment.get? name.sentence).getD "").toList = letters
    cases letters with
    | nil => rfl
    | cons c rest =>
      have hne : String.ofList (c :: rest) ≠ "" := by simp [String.ext_iff]
      rw [if_neg hne]
      rfl
  next => cases h

/-! ## Two ways to write a list -/

/-- A text that can be split is a list of its words.  A text without characters counts as absent,
and it has no words either. -/
theorem listOf_of_split {text : String} {words : List String}
    (h : Text.Words.split text = .ok words) : listOf (.text (.whole text)) = .ok words := by
  have htruthy : (Value.text (.whole text)).isTruthy = !text.isEmpty := rfl
  by_cases htext : text = ""
  · subst htext
    have hnone : Text.Words.split "" = .ok [] := rfl
    obtain rfl := Except.ok.inj (hnone.symm.trans h)
    rfl
  · have hempty : text.isEmpty = false := by
      rw [← Bool.not_eq_true, String.isEmpty_iff]
      exact htext
    rw [listOf, htruthy, hempty]
    simp only [Bool.not_false, if_true, Text.shown, h]

/-- Words that were joined into one text are the words of that text. -/
theorem listOf_join (words : List String) :
    listOf (.text (.whole (Text.Words.join words))) = .ok words :=
  listOf_of_split (Text.Words.split_join words)

theorem all_isWritable_map_text (words : List String) :
    (words.map fun word => Value.text (.whole word)).all Value.isWritable = true := by
  rw [List.all_map, List.all_eq_true]
  exact fun word _ => rfl

/-- A list of texts is a list of words. -/
theorem listOf_map_text (words : List String) :
    listOf (.list (words.map fun word => .text (.whole word))) = .ok words := by
  have hsentences : (words.map fun word => Value.text (.whole word)).map Value.sentence =
      words := by
    rw [List.map_map]
    exact List.map_id _
  by_cases hwords : words = []
  · subst hwords
    rfl
  · have htruthy : (Value.list (words.map fun word => .text (.whole word))).isTruthy = true := by
      rw [Value.isTruthy, List.isEmpty_map, Bool.not_eq_true', List.isEmpty_eq_false_iff]
      exact hwords
    unfold listOf
    rw [if_pos htruthy]
    dsimp only [Value.members?]
    rw [all_isWritable_map_text, if_pos rfl, hsentences]

/-- Only the words of a setting matter for the names of the crates. -/
theorem crateNames_congr (given : List String) {v v' : Value} (h : listOf v = listOf v') :
    crateNames given v = crateNames given v' := by
  rw [crateNames, crateNames, h]

/-- A plan depends on no more of its settings than what they come to. -/
theorem ofSettings_congr {setting other : String → Option Value}
    (htoken : (setting "token_env").getD (.text standardTokenVariable) =
      (other "token_env").getD (.text standardTokenVariable))
    (hcrates : listOf ((setting "crates").getD .null) = listOf ((other "crates").getD .null))
    (hflags : listOf ((setting "publish_flags").getD .null) =
      listOf ((other "publish_flags").getD .null))
    (hdry : ((setting "dry_run").getD (.bool false)).isTruthy =
      ((other "dry_run").getD (.bool false)).isTruthy)
    (given : List String) (environment : Entries String String) (dryRun : Bool) :
    ofSettings setting given environment dryRun =
      ofSettings other given environment dryRun := by
  rw [ofSettings, ofSettings, htoken, crateNames_congr given hcrates, hflags, hdry]

/-- Settings with the crates and the flags put in, whatever else is set. -/
def withLists (crates flags : Value) (rest : String → Option Value) (name : String) :
    Option Value :=
  if name = "crates" then some crates
  else if name = "publish_flags" then some flags
  else rest name

section WithLists

variable {crates flags : Value} {rest : String → Option Value}

theorem withLists_crates : withLists crates flags rest "crates" = some crates := rfl

theorem withLists_flags : withLists crates flags rest "publish_flags" = some flags := rfl

theorem withLists_of_ne {name : String} (hcrates : name ≠ "crates")
    (hflags : name ≠ "publish_flags") : withLists crates flags rest name = rest name := by
  rw [withLists, if_neg hcrates, if_neg hflags]

end WithLists

/-- **Texts serve as lists.**  Crates and flags that are each joined into one text, quoted word by
word, make the same plan as the lists of these words, or fail in the same way, whatever the
words are, whatever else is set, and whatever the command line and the environment say; for
the words of such a text are exactly the ones that were joined. -/
theorem texts_serve_as_lists (crates flags : List String) (rest : String → Option Value)
    (given : List String) (environment : Entries String String) (dryRun : Bool) :
    ofSettings
        (withLists (.text (.whole (Text.Words.join crates)))
          (.text (.whole (Text.Words.join flags))) rest) given environment dryRun =
      ofSettings
        (withLists (.list (crates.map fun word => .text (.whole word)))
          (.list (flags.map fun word => .text (.whole word))) rest) given environment dryRun ∧
      listOf (.text (.whole (Text.Words.join crates))) = .ok crates := by
  refine ⟨?_, listOf_join crates⟩
  have hcrates := crateNames_congr given
    ((listOf_join crates).trans (listOf_map_text crates).symm)
  have hflags := (listOf_join flags).trans (listOf_map_text flags).symm
  -- the other settings that are asked for are those of the rest on both sides
  have htoken (v w : Value) : withLists v w rest "token_env" = rest "token_env" :=
    withLists_of_ne (by decide) (by decide)
  have hdry (v w : Value) : withLists v w rest "dry_run" = rest "dry_run" :=
    withLists_of_ne (by decide) (by decide)
  simp only [ofSettings, withLists_crates, withLists_flags, htoken, hdry, Option.getD_some,
    hcrates, hflags]

end ReleaseTrain.Plan
