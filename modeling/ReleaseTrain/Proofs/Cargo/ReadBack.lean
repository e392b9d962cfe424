import ReleaseTrain.Proofs.Cargo.Spellings
import ReleaseTrain.Proofs.Plan

/-!
# Commands are read back from their line

A command is shown in one line: the name of the program, and its arguments one behind the other, a
mask in place of each that is hidden.

* `getElem?_masked`: what is shown at each position; `secretNext_false_iff`: an argument is hidden
  exactly if the one in front of it is the option.
* `plain_of_mem_masked`: nothing but the mask is shown that is not an argument.
* `split_shown`: the words of the line are the words that are shown.
* `command_reads_back`: the statement.

## Why the arguments have to be plain

The arguments stand in the line as they are, without quotes around them.  An argument with a blank
in it is read back as two, one with quotes in it loses them, and one without characters is lost.
What is hidden is never read back, so this matters only for the words that are shown.
-/

namespace ReleaseTrain.Cargo

open Text.Words

variable {arguments : List String}

/-! ## What is shown at each position -/

/-- What comes behind arguments is a secret exactly if they end with the option. -/
theorem secretNext_false_iff (front : List String) :
    secretNext false front = true ↔ front.getLast? = some tokenOption := by
  cases front with
  | nil => exact iff_of_false nofun nofun
  | cons argument rest => exact secretNext_cons false argument rest

/-- At each position the argument is shown that stands there, or the mask if the arguments in front
of it make it a secret. -/
theorem getElem?_masked (secret : Bool) (arguments : List String) (i : Nat) :
    (masked secret arguments)[i]? = arguments[i]?.map fun argument =>
      if secretNext secret (arguments.take i) then mask else argument := by
  induction arguments generalizing secret i with
  | nil => rfl
  | cons argument rest ih =>
    cases i with
    | zero => rfl
    | succ i =>
      rw [masked, List.getElem?_cons_succ, List.getElem?_cons_succ, ih, List.take_succ_cons,
        secretNext]

/-! ## What is read in the line -/

theorem plain_mask : Plain mask := by decide

theorem plain_of_mem_masked (h : ∀ argument ∈ arguments, Plain argument) (secret : Bool) :
    ∀ word ∈ masked secret arguments, Plain word := by
  induction arguments generalizing secret with
  | nil => exact List.forall_mem_nil _
  | cons argument rest ih =>
    obtain ⟨hargument, hrest⟩ := List.forall_mem_cons.mp h
    refine List.forall_mem_cons.mpr ⟨?_, ih hrest _⟩
    cases secret with
    | true => exact plain_mask
    | false => exact hargument

/-- The words of the line are the name of the program and the words that are shown. -/
theorem split_shown (h : ∀ word ∈ masked false arguments, Plain word) :
    split (shown arguments) = .ok ("cargo" :: masked false arguments) := by
  have hprogram : Plain "cargo" := by decide
  have hline : shown arguments = "cargo" ++ " " ++ " ".intercalate (masked false arguments) := rfl
  rw [hline, split_append hprogram.readsAs, split_intercalate_plain h]
  rfl

/-- **A command that is shown reads back.**  The line that shows a command is the name of the
program, a blank, and one word for each argument, with a blank between any two words.  The word is
the mask if the last of the arguments in front, as they are and not as they are shown, is the
option; else it is the argument itself.  If no argument is empty or has blanks, quotes or
backslashes in it, then a setting that holds the line stands for the list of exactly these words
behind the name of the program. -/
theorem command_reads_back (arguments : List String) :
    ∃ words,
      shown arguments = "cargo " ++ " ".intercalate words ∧
      (∀ i : Nat, words[i]? = arguments[i]?.map fun argument =>
        if (arguments.take i).getLast? = some tokenOption then mask else argument) ∧
      ((∀ argument ∈ arguments, Plain argument) →
        Plan.listOf (.text (.whole (shown arguments))) = .ok ("cargo" :: words)) := by
  refine ⟨masked false arguments, rfl, fun i => ?_, fun hplain => ?_⟩
  · rw [getElem?_masked]
    simp only [secretNext_false_iff]
  · exact Plan.listOf_of_split (split_shown (plain_of_mem_masked hplain false))

/-- Behind the option in a row of options everything is hidden, the option itself too, but nothing
behind the token; and all words are read back. -/
theorem command_reads_back_behind_options :
    (∀ argument ∈ ["publish", "--token", "--token", "cio1", "--locked"], Plain argument) ∧
      ∃ words, words[2]? = some mask ∧ words[3]? = some mask ∧ words[4]? = some "--locked" ∧
        words[5]? = none ∧
        Plan.listOf (.text (.whole
          (shown ["publish", "--token", "--token", "cio1", "--locked"]))) =
          .ok ("cargo" :: words) := by
  have hplain : ∀ argument ∈ ["publish", "--token", "--token", "cio1", "--locked"],
      Plain argument := by decide
  obtain ⟨words, -, hwords, hread⟩ :=
    command_reads_back ["publish", "--token", "--token", "cio1", "--locked"]
  exact ⟨hplain, words, hwords 2, hwords 3, hwords 4, hwords 5, hread hplain⟩

end ReleaseTrain.Cargo
