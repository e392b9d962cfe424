import ReleaseTrain.Text.Words

/-!
# Words are read back

Splitting a text goes through it once, from one place to the next.  The lemmas below say
where a piece of a text leads, whatever stands behind it.

* `ReadsAs`: characters that are read as one word, wherever they stand between words.
* `scan_quoteChar`, `scan_flatMap_quoteChar`: a character that was quoted, and a row of them.
* `readsAs_quote`: a whole word between quotes.
* `Plain`: words that need no quotes; `Plain.readsAs`: such a word as it is.
* `split_intercalate`: words with a blank between any two of them are recovered.
* `split_join`: any words whatever are recovered from the text that `join` makes of them.
* `split_append`: a word in front of a text is the first of its words.

## Why the rest of the text is kept

A word ends where the next blank stands, so what a word is read as depends on what stands
behind it.  `ReadsAs` therefore does not speak of the word alone: it says that the characters
lead from between words into a word, in which the text may go on.
-/

namespace ReleaseTrain.Text.Words

/-- Whether characters are read as a word: they lead from between words to the end of the word,
outside quotes. -/
def ReadsAs (cs : List Char) (word : String) : Prop :=
  ∀ before rest, scan .gap before (cs ++ rest) = scan .bare word.toList.reverse rest

/-! ## Between quotes -/

/-- A quoted character adds itself to the word.  A single quote leaves the quotes for a moment,
and then comes back to them. -/
theorem scan_quoteChar (c : Char) (word rest : List Char) :
    scan (.quoted singleQuote) word (quoteChar c ++ rest) =
      scan (.quoted singleQuote) (c :: word) rest := by
  by_cases hc : c = singleQuote
  · subst hc
    rfl
  · have hescape : ¬(c = backslash ∧ singleQuote = doubleQuote) := fun h => absurd h.2 (by decide)
    rw [quoteChar, if_neg hc, List.singleton_append, scan, if_neg hc, if_neg hescape]

/-- Quoted characters add themselves to the word one after another. -/
theorem scan_flatMap_quoteChar (cs word rest : List Char) :
    scan (.quoted singleQuote) word (cs.flatMap quoteChar ++ rest) =
      scan (.quoted singleQuote) (cs.reverse ++ word) rest := by
  induction cs generalizing word with
  | nil => rfl
  | cons c cs ih =>
    rw [List.flatMap_cons, List.append_assoc, scan_quoteChar, ih, List.reverse_cons,
      List.append_assoc, List.singleton_append]

/-- A word between quotes leads from between words to its own end, outside quotes. -/
theorem readsAs_quote (word : String) : ReadsAs (quote word).toList word := by
  intro before rest
  have hopen : ∀ cs, scan .gap before (singleQuote :: cs) = scan (.quoted singleQuote) [] cs :=
    fun _ => rfl
  have hclose : ∀ w, scan (.quoted singleQuote) w (singleQuote :: rest) = scan .bare w rest :=
    fun _ => rfl
  rw [quote, String.toList_ofList, List.cons_append, List.append_assoc, hopen,
    scan_flatMap_quoteChar, List.append_nil, List.singleton_append, hclose]

/-! ## Without quotes -/

/-- Whether a character stands for itself: it separates no words, takes no meaning away from the
next character, and opens no quotes. -/
def isOrdinary (c : Char) : Bool :=
  !(isWordSpace c || c == backslash || c == singleQuote || c == doubleQuote)

/-- Whether a word needs no quotes: it has characters, and they all stand for themselves. -/
def Plain (word : String) : Prop := word ≠ "" ∧ ∀ c ∈ word.toList, isOrdinary c = true

-- the characters of the word are gone through, and not all characters that there are
instance (word : String) : Decidable (Plain word) :=
  decidable_of_iff (word ≠ "" ∧ word.toList.all isOrdinary = true)
    (and_congr_right fun _ => List.all_eq_true)

section Ordinary

variable {c : Char} {word : String}

theorem isOrdinary_iff :
    isOrdinary c = true ↔
      isWordSpace c = false ∧ c ≠ backslash ∧ ¬(c = singleQuote ∨ c = doubleQuote) := by
  simp only [isOrdinary, Bool.not_eq_true', Bool.or_eq_false_iff, beq_eq_false_iff_ne, ne_eq,
    not_or, and_assoc]

/-- An ordinary character begins a word. -/
theorem scan_gap_of_ordinary (h : isOrdinary c = true) (before rest : List Char) :
    scan .gap before (c :: rest) = scan .bare [c] rest := by
  obtain ⟨hspace, hbackslash, hquote⟩ := isOrdinary_iff.mp h
  rw [scan, hspace, if_neg Bool.false_ne_true, if_neg hbackslash, if_neg hquote]

/-- An ordinary character adds itself to the word. -/
theorem scan_bare_of_ordinary (h : isOrdinary c = true) (word rest : List Char) :
    scan .bare word (c :: rest) = scan .bare (c :: word) rest := by
  obtain ⟨hspace, hbackslash, hquote⟩ := isOrdinary_iff.mp h
  rw [scan, hspace, if_neg Bool.false_ne_true, if_neg hbackslash, if_neg hquote]

/-- Ordinary characters add themselves to the word one after another. -/
theorem scan_bare_of_forall_ordinary {cs : List Char} (h : ∀ c ∈ cs, isOrdinary c = true)
    (word rest : List Char) :
    scan .bare word (cs ++ rest) = scan .bare (cs.reverse ++ word) rest := by
  induction cs generalizing word with
  | nil => rfl
  | cons c cs ih =>
    obtain ⟨hc, hcs⟩ := List.forall_mem_cons.mp h
    rw [List.cons_append, scan_bare_of_ordinary hc, ih hcs, List.reverse_cons, List.append_assoc,
      List.singleton_append]

/-- A plain word is read as it stands. -/
theorem Plain.readsAs (h : Plain word) : ReadsAs word.toList word := by
  intro before rest
  obtain ⟨hne, hordinary⟩ := h
  cases hword : word.toList with
  | nil => exact absurd (String.toList_eq_nil_iff.mp hword) hne
  | cons c cs =>
    rw [hword] at hordinary
    obtain ⟨hc, hcs⟩ := List.forall_mem_cons.mp hordinary
    rw [List.cons_append, scan_gap_of_ordinary hc, scan_bare_of_forall_ordinary hcs,
      List.reverse_cons]

end Ordinary

/-! ## One word after another -/

variable {words : List String}

/-- A blank ends the word in front of it. -/
theorem ReadsAs.scan_blank {cs : List Char} {word : String} (h : ReadsAs cs word)
    (before rest : List Char) :
    scan .gap before (cs ++ ' ' :: rest) = (scan .gap [] rest).map (word.toList :: ·) := by
  have hblank : scan .bare word.toList.reverse (' ' :: rest) =
      (scan .gap [] rest).map (word.toList.reverse.reverse :: ·) := rfl
  rw [h, hblank, List.reverse_reverse]

/-- Words with a blank between any two of them are recovered, however each of them is written. -/
theorem scan_intercalate {written : String → List Char}
    (h : ∀ word ∈ words, ReadsAs (written word) word) :
    scan .gap [] ([' '].intercalate (words.map written)) = .ok (words.map String.toList) := by
  induction words with
  | nil => rfl
  | cons word rest ih =>
    obtain ⟨hword, hrest⟩ := List.forall_mem_cons.mp h
    cases rest with
    | nil =>
      have hlast := hword [] []
      rw [List.append_nil] at hlast
      rw [List.map_singleton, List.intercalate_singleton, hlast, scan, List.reverse_reverse]
      rfl
    | cons next rest =>
      have hjoined : [' '].intercalate ((word :: next :: rest).map written) =
          written word ++ ' ' :: [' '].intercalate ((next :: rest).map written) := by
        rw [List.map_cons, List.map_cons, List.intercalate_cons_cons, List.append_assoc]
        rfl
      rw [hjoined, hword.scan_blank, ih hrest]
      rfl

/-- Splitting recovers words from a line in which each is written so that it can be read. -/
theorem split_intercalate {written : String → String}
    (h : ∀ word ∈ words, ReadsAs (written word).toList word) :
    split (" ".intercalate (words.map written)) = .ok words := by
  have hchars : (" ".intercalate (words.map written)).toList =
      [' '].intercalate (words.map fun word => (written word).toList) := by
    rw [String.toList_intercalate, List.map_map]
    rfl
  have hwords : (words.map String.toList).map String.ofList = words := by
    simp [Function.comp_def]
  rw [split, hchars, scan_intercalate h, Except.map, hwords]

/-- Splitting recovers the words that were joined, whichever characters are in them. -/
theorem split_join (words : List String) : split (join words) = .ok words :=
  split_intercalate fun word _ => readsAs_quote word

/-- Splitting recovers plain words from the line in which they stand. -/
theorem split_intercalate_plain (h : ∀ word ∈ words, Plain word) :
    split (" ".intercalate words) = .ok words := by
  have hread : ∀ word ∈ words, ReadsAs (id word).toList word :=
    fun word hword => (h word hword).readsAs
  have hsplit := split_intercalate hread
  rwa [List.map_id] at hsplit

/-- A word in front of a text is the first of its words. -/
theorem split_append {word : String} (h : ReadsAs word.toList word) (text : String) :
    split (word ++ " " ++ text) = (split text).map (word :: ·) := by
  have hchars : (word ++ " " ++ text).toList = word.toList ++ ' ' :: text.toList := by
    simp [String.toList_append]
  rw [split, hchars, h.scan_blank, split]
  cases scan .gap [] text.toList with
  | error why => rfl
  | ok words => simp [Except.map]

end ReleaseTrain.Text.Words
