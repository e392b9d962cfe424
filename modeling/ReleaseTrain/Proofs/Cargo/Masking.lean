import ReleaseTrain.Cargo.Command

/-!
# Commands without their token

* `publishArguments_of_token`: a token that is not empty is the last argument of a
  command that publishes, and `--token` stands before it.
* `shown_publishArguments`: such a command is shown without the token.

## Why nothing is asked of the flags

What is shown of an argument depends on the one before it in the command.  Flags that
hold `--token`, or end with it, hide other arguments and perhaps the option itself, but
the token always has the option before it and nothing behind it.
-/

namespace ReleaseTrain.Cargo

variable {manifest : Path} {flags : List String} {token token' : String}

theorem publishArguments_of_token (h : token ≠ "") :
    publishArguments manifest (some token) flags =
      (["publish", "--manifest-path", manifest.text] ++ flags) ++ [tokenOption, token] := by
  have hne : ¬token.isEmpty = true := fun hempty => h (String.isEmpty_iff.mp hempty)
  rw [publishArguments]
  simp only [if_neg hne]

/-- What stands behind the option at the end of a command is not shown. -/
theorem masked_append_token (secret : Bool) (arguments : List String) (token token' : String) :
    masked secret (arguments ++ [tokenOption, token]) =
      masked secret (arguments ++ [tokenOption, token']) := by
  induction arguments generalizing secret with
  | nil => rfl
  | cons argument rest ih => rw [List.cons_append, List.cons_append, masked, masked, ih]

/-- A command that publishes is shown without the token. -/
theorem shown_publishArguments (h : token ≠ "") (h' : token' ≠ "") :
    shown (publishArguments manifest (some token) flags) =
      shown (publishArguments manifest (some token') flags) := by
  rw [publishArguments_of_token h, publishArguments_of_token h', shown, shown,
    masked_append_token _ _ token token']

end ReleaseTrain.Cargo
