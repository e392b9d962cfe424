import ReleaseTrain.Proofs.Dialogue.Unfolding

/-!
# Dialogues, spelled out

A dialogue that is carried out on another topic leaves one record only, in which it can no
longer be told where the part for one question ends and that for the next one begins.
`spelled` keeps them apart.

* `spelled`: what is asked and answered, each exchange with those that spell it out.
* `Spells`: the exchanges beside each exchange spell it out.
* `unfolds_spelled`, `spells_spelled`: on the one side stands what the
  dialogue asks, on the other side what was exchanged in its place.
-/

namespace ReleaseTrain.Dialogue

variable {T U : Topic} {α σ : Type} {reply : (q : T.Question) → Dialogue U (T.Answer q)}

/-- The exchanges of a dialogue that is carried out on another topic with a partner, each with
the exchanges that spell it out. -/
def spelled (reply : (q : T.Question) → Dialogue U (T.Answer q)) (partner : Partner U σ) :
    Dialogue T α → σ → List (Exchange T × List (Exchange U))
  | done _, _ => []
  | fail _, _ => []
  | ask q next, s =>
    match (reply q).play partner s with
    | ⟨.ok answer, piece, s⟩ => (⟨q, answer⟩, piece) :: (next answer).spelled reply partner s
    | ⟨.error _, _, _⟩ => []

/-- What stands beside each exchange spells it out. -/
def Spells (reply : (q : T.Question) → Dialogue U (T.Answer q))
    (record : List (Exchange T × List (Exchange U))) : Prop :=
  ∀ entry ∈ record, (reply entry.1.question).Unfolds entry.2 (.ok entry.1.answer)

variable {record : List (Exchange T × List (Exchange U))}

theorem Spells.of_cons {entry : Exchange T × List (Exchange U)}
    (h : Spells reply (entry :: record)) :
    (reply entry.1.question).Unfolds entry.2 (.ok entry.1.answer) ∧ Spells reply record :=
  List.forall_mem_cons.mp h

theorem spells_spelled (partner : Partner U σ) (d : Dialogue T α) (s : σ) :
    Spells reply (d.spelled reply partner s) := by
  induction d generalizing s with
  | done a => exact fun _ h => absurd h List.not_mem_nil
  | fail f => exact fun _ h => absurd h List.not_mem_nil
  | ask q next ih =>
    have hpiece := unfolds_play partner (reply q) s
    rw [spelled]
    split
    next answer piece s' hplay =>
      rw [hplay] at hpiece
      exact List.forall_mem_cons.mpr ⟨hpiece, ih answer s'⟩
    next => exact fun _ h => absurd h List.not_mem_nil

/-- What spells out an exchange is the course, with the partner, of the part that stands for its
question. -/
theorem exists_play_of_mem_spelled {partner : Partner U σ} {d : Dialogue T α} {s : σ}
    {entry : Exchange T × List (Exchange U)} (h : entry ∈ d.spelled reply partner s) :
    ∃ s', ((reply entry.1.question).play partner s').outcome = .ok entry.1.answer ∧
      ((reply entry.1.question).play partner s').exchanges = entry.2 := by
  induction d generalizing s with
  | done a => cases h
  | fail f => cases h
  | ask q next ih =>
    rw [spelled] at h
    split at h
    next answer piece s' hplay =>
      rcases List.mem_cons.mp h with rfl | h
      · exact ⟨s, by rw [hplay], by rw [hplay]⟩
      · exact ih answer h
    next => cases h

/-- What is exchanged when a dialogue is carried out is what spells out its exchanges, and
these are an unfolding of the dialogue that ends in the same way, as long as no part that
spells out a question fails. -/
theorem unfolds_spelled (hreply : ∀ q piece f, ¬(reply q).Unfolds piece (.error f))
    (partner : Partner U σ) (d : Dialogue T α) (s : σ) :
    d.Unfolds ((d.spelled reply partner s).map (·.1)) ((d.via reply).play partner s).outcome ∧
      ((d.via reply).play partner s).exchanges =
        (d.spelled reply partner s).flatMap (·.2) := by
  induction d generalizing s with
  | done a => exact ⟨.done a, rfl⟩
  | fail f => exact ⟨.fail f, rfl⟩
  | ask q next ih =>
    have hpiece := unfolds_play partner (reply q) s
    have hvia : ((ask q next).via reply).play partner s =
        ((reply q).play partner s).andThen fun a s => ((next a).via reply).play partner s :=
      play_bind partner (reply q) _ s
    rw [hvia, spelled]
    split
    next answer piece s' hplay =>
      obtain ⟨hrest, hexchanges⟩ := ih answer s'
      rw [hplay]
      exact ⟨.ask answer hrest, congrArg (piece ++ ·) hexchanges⟩
    next f piece s' hplay =>
      rw [hplay] at hpiece
      exact absurd hpiece (hreply q piece f)

end ReleaseTrain.Dialogue
