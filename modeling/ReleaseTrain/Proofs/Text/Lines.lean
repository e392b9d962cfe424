import Mathlib.Data.List.TakeWhile

/-!
# The last line of a stream

A stream is written line by line, each with a line feed behind it.  What was meant as one line is
several if there are line feeds in it.

* `OneLine`: texts without a line feed; `behindBreak`: what stands behind the last line feed.
* `stream`: lines as they are written; `lastLine`: the last line that can be read in a stream.
* `lastLine_stream`: it is what stands behind the last line feed of what was written last.
-/

namespace ReleaseTrain.Text

/-- Whether a text has no line feed in it. -/
def OneLine (text : String) : Prop := '\n' ∉ text.toList

instance (text : String) : Decidable (OneLine text) :=
  inferInstanceAs (Decidable ('\n' ∉ text.toList))

/-- What stands behind the last line feed. -/
def behindBreak (cs : List Char) : List Char := (cs.reverse.takeWhile (· ≠ '\n')).reverse

/-- Lines as they are written, each with a line feed behind it. -/
def stream (lines : List String) : List Char := lines.flatMap fun line => line.toList ++ ['\n']

/-- The last line that can be read in a stream, without the line feed behind it. -/
def lastLine (written : List Char) : List Char := behindBreak written.dropLast

variable {text text' : String}

theorem oneLine_append : OneLine (text ++ text') ↔ OneLine text ∧ OneLine text' := by
  rw [OneLine, OneLine, OneLine, String.toList_append, List.mem_append, not_or]

theorem oneLine_append_left (h : OneLine text) : OneLine (text ++ text') ↔ OneLine text' :=
  oneLine_append.trans (and_iff_right h)

theorem oneLine_append_right (h : OneLine text') : OneLine (text ++ text') ↔ OneLine text :=
  oneLine_append.trans (and_iff_left h)

/-- A whole number is written in one line. -/
theorem oneLine_nat (n : Nat) : OneLine (toString n) := by
  intro h
  have hmem : '\n' ∈ Nat.toDigits 10 n := by simpa using h
  have hdigit : '\n'.isDigit = true :=
    Nat.isDigit_of_mem_toDigits (by decide) (by decide) hmem
  cases hdigit

theorem oneLine_int (n : Int) : OneLine (toString n) := by
  cases n with
  | ofNat n => exact oneLine_nat n
  | negSucc n =>
    have hsign : toString (Int.negSucc n) = "-" ++ toString (n + 1) := rfl
    rw [hsign, oneLine_append_left (by decide)]
    exact oneLine_nat (n + 1)

/-- What stands in front of a line feed does not matter for what stands behind the last one. -/
theorem behindBreak_append_cons (front back : List Char) :
    behindBreak (front ++ '\n' :: back) = behindBreak back := by
  have hstop (cs : List Char) :
      (cs ++ '\n' :: front.reverse).takeWhile (· ≠ '\n') = cs.takeWhile (· ≠ '\n') := by
    induction cs with
    | nil => rfl
    | cons c rest ih => simp only [List.cons_append, List.takeWhile_cons, ih]
  rw [behindBreak, behindBreak, List.reverse_append, List.reverse_cons, List.append_assoc,
    List.singleton_append, hstop]

theorem behindBreak_of_oneLine (h : OneLine text) : behindBreak text.toList = text.toList := by
  rw [behindBreak, List.takeWhile_eq_self_iff.mpr, List.reverse_reverse]
  intro c hc
  refine decide_eq_true fun heq => h ?_
  rw [heq] at hc
  exact List.mem_reverse.mp hc

theorem behindBreak_append_of_not_oneLine (h : ¬OneLine text') :
    behindBreak (text ++ text').toList = behindBreak text'.toList := by
  obtain ⟨front, back, hsplit⟩ := List.append_of_mem (not_not.mp h)
  rw [String.toList_append, hsplit, ← List.append_assoc, behindBreak_append_cons,
    behindBreak_append_cons]

/-- A stream is empty or ends with a line feed. -/
theorem stream_eq_nil_or (lines : List String) :
    stream lines = [] ∨ ∃ front, stream lines = front ++ ['\n'] := by
  rcases lines.eq_nil_or_concat with rfl | ⟨front, line, rfl⟩
  · exact .inl rfl
  · refine .inr ⟨stream front ++ line.toList, ?_⟩
    simp [stream]

/-- The last line is what stands behind the last line feed of what was written last. -/
theorem lastLine_stream (lines : List String) (text : String) :
    lastLine (stream (lines ++ [text])) = behindBreak text.toList := by
  have hlast : stream (lines ++ [text]) = (stream lines ++ text.toList) ++ ['\n'] := by
    simp [stream]
  rw [lastLine, hlast, List.dropLast_concat]
  rcases stream_eq_nil_or lines with h | ⟨front, h⟩
  · rw [h, List.nil_append]
  · rw [h, List.append_assoc, List.singleton_append, behindBreak_append_cons]

end ReleaseTrain.Text
